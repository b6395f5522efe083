import KnowledgeCompiler.Lib.Json.Ascii
import KnowledgeCompiler.Lib.Utf8

namespace KnowledgeCompiler.Lib

namespace Json

inductive Encoding
  | utf8
  | utf8Sig
  | utf16 (big : Bool)
  | utf32 (big : Bool)
deriving DecidableEq

-- `json.detect_encoding`, with the bytes after a mark that the codec drops.
def detectEncoding (bytes : List UInt8) : Encoding × List UInt8 :=
  match bytes with
  | 0 :: 0 :: 0xfe :: 0xff :: rest => (.utf32 true, rest)
  | 0xff :: 0xfe :: 0 :: 0 :: rest => (.utf32 false, rest)
  | 0xfe :: 0xff :: rest => (.utf16 true, rest)
  | 0xff :: 0xfe :: rest => (.utf16 false, rest)
  | 0xef :: 0xbb :: 0xbf :: rest => (.utf8Sig, rest)
  | a :: b :: c :: d :: _ =>
      if a = 0 then (if b = 0 then .utf32 true else .utf16 true, bytes)
      else if b = 0 then (if c = 0 ∧ d = 0 then .utf32 false else .utf16 false, bytes)
      else (.utf8, bytes)
  | [a, b] =>
      if a = 0 then (.utf16 true, bytes) else if b = 0 then (.utf16 false, bytes) else (.utf8, bytes)
  | _ => (.utf8, bytes)

-- The code units of so many bytes each.
def codeUnits (width : Nat) (big : Bool) : Nat → List UInt8 → Option (List Nat)
  | _, [] => some []
  | 0, _ :: _ => none
  | fuel + 1, bytes =>
      let unit := bytes.take width
      if unit.length < width then none
      else
        let ordered := if big then unit else unit.reverse
        (codeUnits width big fuel (bytes.drop width)).map
          (ordered.foldl (fun number byte => 256 * number + byte.toNat) 0 :: ·)

-- `surrogatepass` takes a surrogate without its partner as it is.
def fromUtf16 : List Nat → List Char
  | [] => []
  | [unit] => [if 0xd800 ≤ unit ∧ unit ≤ 0xdfff then lone unit else Char.ofNat unit]
  | unit :: next :: rest =>
      if 0xd800 ≤ unit ∧ unit ≤ 0xdbff ∧ 0xdc00 ≤ next ∧ next ≤ 0xdfff then
        Char.ofNat (0x10000 + (unit - 0xd800) * 0x400 + (next - 0xdc00)) :: fromUtf16 rest
      else if 0xd800 ≤ unit ∧ unit ≤ 0xdfff then lone unit :: fromUtf16 (next :: rest)
      else Char.ofNat unit :: fromUtf16 (next :: rest)

def fromUtf32 (units : List Nat) : Option (List Char) :=
  units.mapM (fun unit =>
    if 0xd800 ≤ unit ∧ unit ≤ 0xdfff then some (lone unit)
    else if unit.isValidChar then some (Char.ofNat unit)
    else none)

-- The three bytes of a surrogate, which no other character begins with.
def passSurrogates : List UInt8 → List UInt8
  | 0xed :: second :: third :: rest =>
      if 0xa0 ≤ second ∧ second < 0xc0 ∧ 0x80 ≤ third ∧ third < 0xc0 then
        (Utf8.encode [lone (0xd000 + (second.toNat - 0x80) * 0x40 + (third.toNat - 0x80))]).data.toList ++
          passSurrogates rest
      else 0xed :: passSurrogates (second :: third :: rest)
  | byte :: rest => byte :: passSurrogates rest
  | [] => []

-- A text without surrogates is decoded as strictly as ever.
def fromUtf8 (bytes : List UInt8) : Option (List Char) :=
  (Utf8.decode ⟨bytes.toArray⟩).or (Utf8.decode ⟨(passSurrogates bytes).toArray⟩)

-- `bytes.decode(detect_encoding(bytes), "surrogatepass")`
def decodeBytes (bytes : List UInt8) : Option (List Char) :=
  match detectEncoding bytes with
  | (.utf8, rest) | (.utf8Sig, rest) => fromUtf8 rest
  | (.utf16 big, rest) => (codeUnits 2 big rest.length rest).map fromUtf16
  | (.utf32 big, rest) => (codeUnits 4 big rest.length rest).bind fromUtf32

inductive LoadsError
  | value
  | recursion
deriving DecidableEq, Repr

-- `json.loads` on bytes. Which texts are nested too deeply for it is the host's matter.
def loadsBytes (too_deep : List Char → Bool) (bytes : List UInt8) : Except LoadsError Json :=
  match decodeBytes bytes with
  | none => .error .value
  | some text =>
      if too_deep text then .error .recursion
      else
        match loads text with
        | none => .error .value
        | some value => .ok value

mutual
def depth : Json → Nat
  | .arr items => depthItems items + 1
  | .obj members => depthMembers members + 1
  | _ => 0

def depthItems : List Json → Nat
  | [] => 0
  | item :: rest => max (depth item) (depthItems rest)

def depthMembers : List (String × Json) → Nat
  | [] => 0
  | (_, value) :: rest => max (depth value) (depthMembers rest)
end

-- The largest integer in it.
mutual
def magnitude : Json → Nat
  | .int value => value.natAbs
  | .arr items => magnitudeItems items
  | .obj members => magnitudeMembers members
  | _ => 0

def magnitudeItems : List Json → Nat
  | [] => 0
  | item :: rest => max (magnitude item) (magnitudeItems rest)

def magnitudeMembers : List (String × Json) → Nat
  | [] => 0
  | (_, value) :: rest => max (magnitude value) (magnitudeMembers rest)
end

theorem magnitudeItems_map_str (texts : List String) : magnitudeItems (texts.map .str) = 0 := by
  induction texts with
  | nil => rfl
  | cons text rest ih => simp [magnitudeItems, magnitude, ih]

theorem depthItems_map_str (texts : List String) : depthItems (texts.map .str) = 0 := by
  induction texts with
  | nil => rfl
  | cons text rest ih => simp [depthItems, depth, ih]

-- `text.encode("utf-8")`
def utf8 (text : List Char) : List UInt8 := (Utf8.encode text).data.toList

theorem detectEncoding_object (rest : List UInt8) :
    detectEncoding (0x7b :: 0x22 :: rest) = (.utf8, 0x7b :: 0x22 :: rest) := by
  match rest with
  | [] => rfl
  | [_] => rfl
  | _ :: _ :: _ => rfl

theorem dumps_object (key : String) (value : Json) (rest : List (String × Json)) :
    ∃ more, dumps (.obj ((key, value) :: rest)) = '{' :: '"' :: more := by
  have hsorted : ∃ first members,
      sortKeys (.obj ((key, value) :: rest)) = .obj (first :: members) := by
    have hlength : ((sortMembers ((key, value) :: rest)).insertionSort
        (fun first second => first.1 ≤ second.1)).length = (sortMembers rest).length + 1 := by
      rw [List.length_insertionSort, sortMembers, List.length_cons]
    obtain ⟨first, members, h⟩ := List.exists_cons_of_length_eq_add_one hlength
    exact ⟨first, members, by rw [sortKeys, h]⟩
  obtain ⟨⟨name, first⟩, members, h⟩ := hsorted
  have htext : dumps (.obj ((key, value) :: rest)) = '{' :: '"' ::
      ((name.toList.flatMap escapeChar ++ ['"']) ++
        ':' :: (text first ++ textMembers members) ++ ['}']) := by
    rw [dumps, h, text, textMembers, List.tail_cons, quote]
    simp only [List.cons_append, List.append_assoc]
  exact ⟨_, htext⟩

theorem dumpsAscii_object (key : String) (value : Json) (rest : List (String × Json)) :
    ∃ more, dumpsAscii (.obj ((key, value) :: rest)) = '{' :: '"' :: more := by
  obtain ⟨more, hmore⟩ := dumps_object key value rest
  rw [dumpsAscii, hmore]
  exact ⟨_, rfl⟩

theorem utf8_dumpsAscii (value : Json) :
    utf8 (dumpsAscii value) = (dumpsAscii value).map (fun c => UInt8.ofNat c.toNat) :=
  Utf8.encode_ascii (fun _ hc => Nat.lt_succ_of_lt (dumpsAscii_ascii hc))

theorem utf8_object (key : String) (value : Json) (rest : List (String × Json)) :
    ∃ more, utf8 (dumpsAscii (.obj ((key, value) :: rest))) = 0x7b :: 0x22 :: more := by
  obtain ⟨more, hmore⟩ := dumpsAscii_object key value rest
  rw [utf8_dumpsAscii, hmore]
  exact ⟨_, rfl⟩

theorem fromUtf8_utf8 (text : List Char) : fromUtf8 (utf8 text) = some text := by
  have hdecode : Utf8.decode ⟨(utf8 text).toArray⟩ = some text := Utf8.decode_encode text
  rw [fromUtf8, hdecode, Option.some_or]

theorem decodeBytes_dumpsAscii (key : String) (value : Json) (rest : List (String × Json)) :
    decodeBytes (utf8 (dumpsAscii (.obj ((key, value) :: rest)))) =
      some (dumpsAscii (.obj ((key, value) :: rest))) := by
  have hdetect : detectEncoding (utf8 (dumpsAscii (.obj ((key, value) :: rest)))) =
      (.utf8, utf8 (dumpsAscii (.obj ((key, value) :: rest)))) := by
    obtain ⟨more, hmore⟩ := utf8_object key value rest
    rw [hmore]
    exact detectEncoding_object more
  rw [decodeBytes, hdetect]
  exact fromUtf8_utf8 _

-- Looking up.

theorem get?_eq_some_iff {members : List (String × Json)} (hkeys : (members.map Prod.fst).Nodup)
    {key : String} {value : Json} : get? members key = some value ↔ (key, value) ∈ members := by
  induction members with
  | nil => simp [get?]
  | cons member rest ih =>
      obtain ⟨hnew, hrest⟩ := List.nodup_cons.mp hkeys
      have ih := ih hrest
      unfold get? at ih ⊢
      by_cases hmember : member.1 = key
      · subst hmember
        rw [List.find?_cons_of_pos (by simp), Option.map_some]
        constructor
        · rintro ⟨⟩
          exact List.mem_cons_self
        · intro hmem
          rcases List.mem_cons.mp hmem with hhead | htail
          · rw [← hhead]
          · exact absurd (List.mem_map.mpr ⟨_, htail, rfl⟩) hnew
      · rw [List.find?_cons_of_neg (by simpa using hmember), ih, List.mem_cons]
        refine ⟨.inr, ?_⟩
        rintro (rfl | htail)
        · exact absurd rfl hmember
        · exact htail

theorem get?_perm {members others : List (String × Json)} (hperm : others.Perm members)
    (hkeys : (members.map Prod.fst).Nodup) (key : String) : get? others key = get? members key := by
  have hothers : (others.map Prod.fst).Nodup := (hperm.map Prod.fst).nodup_iff.mpr hkeys
  refine Option.ext fun value => ?_
  rw [get?_eq_some_iff hothers, get?_eq_some_iff hkeys, hperm.mem_iff]

theorem get?_sortMembers (members : List (String × Json)) (key : String) :
    get? (sortMembers members) key = (get? members key).map sortKeys := by
  rw [sortMembers_eq_map, get?, get?, List.find?_map, Option.map_map, Option.map_map]
  rfl

def sorted (members : List (String × Json)) : List (String × Json) :=
  (sortMembers members).insertionSort (fun first second => first.1 ≤ second.1)

theorem sortKeys_obj (members : List (String × Json)) :
    sortKeys (.obj members) = .obj (sorted members) := rfl

theorem get?_sorted {members : List (String × Json)} (hkeys : (members.map Prod.fst).Nodup)
    (key : String) : get? (sorted members) key = (get? members key).map sortKeys := by
  rw [sorted, get?_perm (List.perm_insertionSort _ _) (by rwa [keys_sortMembers]), get?_sortMembers]

theorem sortItems_eq_map (items : List Json) : sortItems items = items.map sortKeys := by
  induction items with
  | nil => rfl
  | cons item rest ih => rw [sortItems, ih, List.map_cons]

-- Nesting.

theorem depthItems_le_iff {items : List Json} {limit : Nat} :
    depthItems items ≤ limit ↔ ∀ item ∈ items, depth item ≤ limit := by
  induction items with
  | nil => simp [depthItems]
  | cons item rest ih => simp [depthItems, ih]

theorem depthMembers_le_iff {members : List (String × Json)} {limit : Nat} :
    depthMembers members ≤ limit ↔ ∀ member ∈ members, depth member.2 ≤ limit := by
  induction members with
  | nil => simp [depthMembers]
  | cons member rest ih => simp [depthMembers, ih]

mutual
theorem depth_sortKeys (value : Json) : depth (sortKeys value) = depth value := by
  match value with
  | .null => rfl
  | .bool _ => rfl
  | .int _ => rfl
  | .float _ => rfl
  | .str _ => rfl
  | .arr items => exact congrArg (· + 1) (depthItems_sortItems items)
  | .obj members =>
    have hmembers := depthMembers_sortMembers members
    have hperm := List.perm_insertionSort (fun first second : String × Json => first.1 ≤ second.1)
      (sortMembers members)
    have hsorted : depthMembers (sorted members) = depthMembers (sortMembers members) := by
      refine Nat.le_antisymm ?_ ?_
      · exact depthMembers_le_iff.mpr fun member hmember =>
          depthMembers_le_iff.mp (Nat.le_refl _) member (hperm.mem_iff.mp hmember)
      · exact depthMembers_le_iff.mpr fun member hmember =>
          depthMembers_le_iff.mp (Nat.le_refl _) member (hperm.mem_iff.mpr hmember)
    rw [sortKeys_obj, depth, depth, hsorted, hmembers]

theorem depthItems_sortItems (items : List Json) : depthItems (sortItems items) = depthItems items := by
  match items with
  | [] => rfl
  | item :: rest => rw [sortItems, depthItems, depthItems, depth_sortKeys item, depthItems_sortItems rest]

theorem depthMembers_sortMembers (members : List (String × Json)) :
    depthMembers (sortMembers members) = depthMembers members := by
  match members with
  | [] => rfl
  | (_, value) :: rest =>
    rw [sortMembers, depthMembers, depthMembers, depth_sortKeys value, depthMembers_sortMembers rest]
end

-- What is nested no deeper than that is within the reader's limit.
def Within (limit : Nat) (too_deep : List Char → Bool) : Prop :=
  ∀ text value, loads text = some value → depth value ≤ limit → too_deep text = false

-- A written object with a line end after it.

theorem loads_line (members : List (String × Json)) (hv : Printable (.obj members)) :
    loads (text (.obj members) ++ ['\n']) = some (.obj members) := by
  rw [loads, run_append, start, run_object members hv, Option.bind_some]
  rfl

theorem utf8_cons {c : Char} (hc : c.toNat < 0x80) (rest : List Char) :
    utf8 (c :: rest) = UInt8.ofNat c.toNat :: utf8 rest := by
  have hsplit : Utf8.encode (c :: rest) = Utf8.encode [c] ++ Utf8.encode rest :=
    Utf8.encode_append [c] rest
  rw [utf8, utf8, hsplit, ByteArray.data_append, Array.toList_append, Utf8.encode_char hc]
  rfl

theorem decodeBytes_object (more : List Char) :
    decodeBytes (utf8 ('{' :: '"' :: more)) = some ('{' :: '"' :: more) := by
  have hbytes : utf8 ('{' :: '"' :: more) = 0x7b :: 0x22 :: utf8 more := by
    rw [utf8_cons (by decide), utf8_cons (by decide)]
    rfl
  rw [decodeBytes, hbytes, detectEncoding_object, ← hbytes]
  exact fromUtf8_utf8 _

theorem loadsBytes_line {too_deep : List Char → Bool} {limit : Nat} (hwithin : Within limit too_deep)
    (key : String) (value : Json) (rest : List (String × Json))
    (hv : Printable (.obj ((key, value) :: rest)))
    (hdepth : depth (.obj ((key, value) :: rest)) ≤ limit) :
    loadsBytes too_deep (utf8 (dumps (.obj ((key, value) :: rest)) ++ ['\n'])) =
      .ok (.obj (sorted ((key, value) :: rest))) := by
  obtain ⟨more, hmore⟩ := dumps_object key value rest
  have hloads := loads_line (sorted ((key, value) :: rest)) (printable_sortKeys _ hv)
  rw [← sortKeys_obj, ← dumps] at hloads
  have hdeep := hwithin _ _ hloads (by rwa [depth_sortKeys])
  have hdecode : decodeBytes (utf8 (dumps (.obj ((key, value) :: rest)) ++ ['\n'])) =
      some (dumps (.obj ((key, value) :: rest)) ++ ['\n']) := by
    rw [hmore]
    exact decodeBytes_object _
  rw [loadsBytes, hdecode]
  simp [hdeep, hloads, sortKeys_obj]

end Json

end KnowledgeCompiler.Lib
