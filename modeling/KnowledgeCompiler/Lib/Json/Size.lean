import KnowledgeCompiler.Lib.Json
import KnowledgeCompiler.Lib.Utf8
import Mathlib

namespace KnowledgeCompiler.Lib

namespace Utf8

def size (text : List Char) : ℕ := (text.map Char.utf8Size).sum

@[simp] theorem size_nil : size [] = 0 := rfl

@[simp] theorem size_cons (c : Char) (rest : List Char) : size (c :: rest) = c.utf8Size + size rest := by
  rw [size, List.map_cons, List.sum_cons, size]

@[simp] theorem size_append (first second : List Char) :
    size (first ++ second) = size first + size second := by
  rw [size, List.map_append, List.sum_append, size, size]

theorem size_encode (text : List Char) : (encode text).size = size text := by
  induction text with
  | nil => rfl
  | cons c rest ih =>
      have hsplit : encode (c :: rest) = encode [c] ++ encode rest := encode_append [c] rest
      have hfirst : (encode [c]).size = c.utf8Size := by
        rw [encode, String.toByteArray_ofList, List.utf8Encode_singleton]
        simp
      rw [hsplit, ByteArray.size_append, hfirst, ih, size_cons]

end Utf8

namespace Json

-- The bytes of a text between its quotation marks.
def escapedSize (value : String) : ℕ := Utf8.size (value.toList.flatMap escapeChar)

-- The bytes of a value's text.
def size (value : Json) : ℕ := Utf8.size (text value)

-- The bytes of a comma, a key, a colon and a value.
def memberSize (member : String × Json) : ℕ := 4 + escapedSize member.1 + size member.2

theorem size_quote (value : String) : Utf8.size (quote value) = 2 + escapedSize value := by
  have hmark : Char.utf8Size '"' = 1 := rfl
  rw [quote, escapedSize, Utf8.size_append, Utf8.size_cons, Utf8.size_cons, Utf8.size_nil, hmark]
  omega

@[simp] theorem size_str (value : String) : size (.str value) = 2 + escapedSize value := by
  rw [size, text, size_quote]

theorem size_textItems (items : List Json) :
    Utf8.size (textItems items) = (items.map (fun item => 1 + size item)).sum := by
  induction items with
  | nil => rfl
  | cons item rest ih =>
      have hcomma : Char.utf8Size ',' = 1 := rfl
      rw [textItems, Utf8.size_cons, Utf8.size_append, ih, hcomma, List.map_cons, List.sum_cons, size]
      omega

theorem size_textMembers (members : List (String × Json)) :
    Utf8.size (textMembers members) = (members.map memberSize).sum := by
  induction members with
  | nil => rfl
  | cons member rest ih =>
      obtain ⟨key, value⟩ := member
      have hcomma : Char.utf8Size ',' = 1 := rfl
      have hcolon : Char.utf8Size ':' = 1 := rfl
      rw [textMembers, Utf8.size_cons, Utf8.size_append, size_quote, Utf8.size_cons, Utf8.size_append, ih,
        hcomma, hcolon, List.map_cons, List.sum_cons, memberSize, size]
      dsimp only
      omega

theorem size_tail_textItems (items : List Json) :
    Utf8.size (textItems items).tail = (items.map (fun item => 1 + size item)).sum - 1 := by
  rw [← size_textItems]
  cases items with
  | nil => rfl
  | cons item rest =>
      have hcomma : Char.utf8Size ',' = 1 := rfl
      rw [textItems, List.tail_cons, Utf8.size_cons, hcomma, Nat.add_sub_cancel_left]

theorem size_tail_textMembers (members : List (String × Json)) :
    Utf8.size (textMembers members).tail = (members.map memberSize).sum - 1 := by
  rw [← size_textMembers]
  cases members with
  | nil => rfl
  | cons member rest =>
      obtain ⟨key, value⟩ := member
      have hcomma : Char.utf8Size ',' = 1 := rfl
      rw [textMembers, List.tail_cons, Utf8.size_cons, hcomma, Nat.add_sub_cancel_left]

@[simp] theorem size_arr (items : List Json) :
    size (.arr items) = 2 + ((items.map (fun item => 1 + size item)).sum - 1) := by
  have hopen : Char.utf8Size '[' = 1 := rfl
  have hclose : Char.utf8Size ']' = 1 := rfl
  rw [size, text, Utf8.size_append, Utf8.size_cons, size_tail_textItems, Utf8.size_cons, hopen, hclose,
    Utf8.size_nil]
  omega

@[simp] theorem size_obj (members : List (String × Json)) :
    size (.obj members) = 2 + ((members.map memberSize).sum - 1) := by
  have hopen : Char.utf8Size '\x7b' = 1 := rfl
  have hclose : Char.utf8Size '\x7d' = 1 := rfl
  rw [size, text, Utf8.size_append, Utf8.size_cons, size_tail_textMembers, Utf8.size_cons, hopen, hclose,
    Utf8.size_nil]
  omega

-- Keys in another order take as many bytes.
mutual
theorem size_sortKeys : ∀ value : Json, size (sortKeys value) = size value
  | .null | .bool _ | .int _ | .float _ | .str _ => by simp only [sortKeys]
  | .arr items => by rw [sortKeys, size_arr, size_arr, sizes_sortItems items]
  | .obj members => by
      rw [sortKeys, size_obj, size_obj, ((List.perm_insertionSort _ _).map memberSize).sum_eq,
        sizes_sortMembers members]

theorem sizes_sortItems : ∀ items : List Json,
    ((sortItems items).map (fun item => 1 + size item)).sum = (items.map (fun item => 1 + size item)).sum
  | [] => rfl
  | item :: rest => by
      rw [sortItems, List.map_cons, List.map_cons, List.sum_cons, List.sum_cons, size_sortKeys item,
        sizes_sortItems rest]

theorem sizes_sortMembers : ∀ members : List (String × Json),
    ((sortMembers members).map memberSize).sum = (members.map memberSize).sum
  | [] => rfl
  | (key, value) :: rest => by
      rw [sortMembers, List.map_cons, List.map_cons, List.sum_cons, List.sum_cons, memberSize, memberSize,
        size_sortKeys value, sizes_sortMembers rest]
end

theorem size_encode_dumps (value : Json) : (Utf8.encode (dumps value)).size = size value := by
  rw [Utf8.size_encode, dumps, ← size, size_sortKeys]

end Json

end KnowledgeCompiler.Lib
