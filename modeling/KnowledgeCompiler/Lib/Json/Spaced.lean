import KnowledgeCompiler.Lib.Json.Bytes
import KnowledgeCompiler.Lib.Json.Torn

namespace KnowledgeCompiler.Lib.Json

-- With the writer's own separators, `", "` and `": "`.
mutual
def spaced : Json → List Char
  | .arr items => '[' :: (spacedItems items).drop 2 ++ [']']
  | .obj members => '{' :: (spacedMembers members).drop 2 ++ ['}']
  | value => text value

def spacedItems : List Json → List Char
  | [] => []
  | item :: rest => ',' :: ' ' :: (spaced item ++ spacedItems rest)

def spacedMembers : List (String × Json) → List Char
  | [] => []
  | (key, value) :: rest =>
      ',' :: ' ' :: (quote key ++ ':' :: ' ' :: (spaced value ++ spacedMembers rest))
end

-- `json.dumps(value, ensure_ascii=False, sort_keys=True)`
def dumpsSpaced (value : Json) : List Char := spaced (sortKeys value)

-- A blank before a value or a key is passed over.

theorem run_blank_value (stack : List Frame) (rest : List Char) :
    run ⟨.value, stack⟩ (' ' :: rest) = run ⟨.value, stack⟩ rest := run_of_step rfl rest

theorem run_blank_key (members : List (String × Json)) (stack : List Frame) (rest : List Char) :
    run ⟨.key members, stack⟩ (' ' :: rest) = run ⟨.key members, stack⟩ rest := run_of_step rfl rest

theorem firstItem_of_spaced (value : Json) (hv : Printable value) (stack : List Frame)
    (rest : List Char) :
    run ⟨.firstItem, stack⟩ (spaced value ++ rest) =
      run ⟨.value, .item [] :: stack⟩ (spaced value ++ rest) := by
  have hstep (c : Char) (hblank : isBlank c = false) (hclose : c ≠ ']') (more : List Char) :
      run ⟨.firstItem, stack⟩ (c :: more) = run ⟨.value, .item [] :: stack⟩ (c :: more) := by
    simp [run_cons, step, hblank, hclose]
  cases value with
  | arr items => exact hstep '[' (by decide) (by decide) _
  | obj members => exact hstep '{' (by decide) (by decide) _
  | _ => exact firstItem_of_text _ hv stack rest

-- The separators make no difference to a reader.
mutual
theorem run_spaced (value : Json) (hv : Printable value) (stack : List Frame) :
    run ⟨.value, stack⟩ (spaced value) = run ⟨.value, stack⟩ (text value) := by
  match value with
  | .null | .bool _ | .int _ | .float _ | .str _ => rfl
  | .arr [] => rfl
  | .arr (item :: rest) =>
      obtain ⟨hitem, hrest⟩ := hv
      obtain ⟨state, hrun, hends⟩ := run_text item hitem (.item [] :: stack)
      have hopen : step ⟨.value, stack⟩ '[' = some ⟨.firstItem, stack⟩ := rfl
      have hspaced : spaced (.arr (item :: rest)) =
          '[' :: (spaced item ++ (spacedItems rest ++ [']'])) := by simp [spaced, spacedItems]
      have htext : text (.arr (item :: rest)) = '[' :: (text item ++ (textItems rest ++ [']'])) := by
        simp [text, textItems]
      have hsame := (run_spaced item hitem (.item [] :: stack)).trans hrun
      rw [hspaced, htext, run_of_step hopen, run_of_step hopen, firstItem_of_text item hitem,
        firstItem_of_spaced item hitem, run_of_run hrun, run_of_run hsame]
      exact run_spacedItems rest hrest state [item] stack hends
  | .obj [] => rfl
  | .obj ((key, value) :: rest) =>
      obtain ⟨hkeys, hvalue, hrest⟩ := hv
      obtain ⟨state, hrun, hends⟩ := run_text value hvalue (.member [] key :: stack)
      have hopen : step ⟨.value, stack⟩ '{' = some ⟨.firstKey, stack⟩ := rfl
      have hkey : step ⟨.firstKey, stack⟩ '"' = some ⟨.string (.key []) [], stack⟩ := rfl
      have hcolon : step ⟨.colon [] key, stack⟩ ':' = some ⟨.value, .member [] key :: stack⟩ := rfl
      have hspaced : spaced (.obj ((key, value) :: rest)) =
          '{' :: (quote key ++ (':' :: ' ' :: (spaced value ++ (spacedMembers rest ++ ['}'])))) := by
        simp [spaced, spacedMembers]
      have htext : text (.obj ((key, value) :: rest)) =
          '{' :: (quote key ++ (':' :: (text value ++ (textMembers rest ++ ['}'])))) := by
        simp [text, textMembers]
      have hsame := (run_spaced value hvalue (.member [] key :: stack)).trans hrun
      rw [hspaced, htext, run_of_step hopen, run_of_step hopen, run_of_run (run_quote hkey key),
        run_of_run (run_quote hkey key), closeString, String.ofList_toList, run_of_step hcolon,
        run_of_step hcolon, run_blank_value, run_of_run hrun, run_of_run hsame]
      exact run_spacedMembers rest hrest state [(key, value)] stack hends

theorem run_spacedItems (rest : List Json) (hrest : PrintableItems rest) (state : State)
    (items : List Json) (stack : List Frame) (hstate : Ends state ⟨.nextItem items, stack⟩) :
    run state (spacedItems rest ++ [']']) = run state (textItems rest ++ [']']) := by
  match rest with
  | [] => rfl
  | item :: more =>
      obtain ⟨hitem, hmore⟩ := hrest
      obtain ⟨next, hrun, hends⟩ := run_text item hitem (.item items :: stack)
      have hcomma : step state ',' = some ⟨.value, .item items :: stack⟩ := by
        rw [hstate.step_eq ',' (by simp)]
        rfl
      have hspaced : spacedItems (item :: more) ++ [']'] =
          ',' :: ' ' :: (spaced item ++ (spacedItems more ++ [']'])) := by simp [spacedItems]
      have htext : textItems (item :: more) ++ [']'] =
          ',' :: (text item ++ (textItems more ++ [']'])) := by simp [textItems]
      have hsame := (run_spaced item hitem (.item items :: stack)).trans hrun
      rw [hspaced, htext, run_of_step hcomma, run_of_step hcomma, run_blank_value, run_of_run hrun,
        run_of_run hsame]
      exact run_spacedItems more hmore next (items ++ [item]) stack hends

theorem run_spacedMembers (rest : List (String × Json)) (hrest : PrintableMembers rest)
    (state : State) (members : List (String × Json)) (stack : List Frame)
    (hstate : Ends state ⟨.nextMember members, stack⟩) :
    run state (spacedMembers rest ++ ['}']) = run state (textMembers rest ++ ['}']) := by
  match rest with
  | [] => rfl
  | (key, value) :: more =>
      obtain ⟨hvalue, hmore⟩ := hrest
      obtain ⟨next, hrun, hends⟩ := run_text value hvalue (.member members key :: stack)
      have hcomma : step state ',' = some ⟨.key members, stack⟩ := by
        rw [hstate.step_eq ',' (by simp)]
        rfl
      have hkey : step ⟨.key members, stack⟩ '"' = some ⟨.string (.key members) [], stack⟩ := rfl
      have hcolon : step ⟨.colon members key, stack⟩ ':' =
          some ⟨.value, .member members key :: stack⟩ := rfl
      have hspaced : spacedMembers ((key, value) :: more) ++ ['}'] = ',' :: ' ' ::
          (quote key ++ (':' :: ' ' :: (spaced value ++ (spacedMembers more ++ ['}'])))) := by
        simp [spacedMembers]
      have htext : textMembers ((key, value) :: more) ++ ['}'] =
          ',' :: (quote key ++ (':' :: (text value ++ (textMembers more ++ ['}'])))) := by
        simp [textMembers]
      have hsame := (run_spaced value hvalue (.member members key :: stack)).trans hrun
      rw [hspaced, htext, run_of_step hcomma, run_of_step hcomma, run_blank_key,
        run_of_run (run_quote hkey key), run_of_run (run_quote hkey key), closeString,
        String.ofList_toList, run_of_step hcolon, run_of_step hcolon, run_blank_value,
        run_of_run hrun, run_of_run hsame]
      exact run_spacedMembers more hmore next (members ++ [(key, value)]) stack hends
end

theorem loads_spaced (value : Json) (hv : Printable value) : loads (spaced value) = some value := by
  have hsame := run_spaced value hv []
  rw [loads, start, hsame]
  exact loads_text value hv

-- A blank behind an object is passed over.
theorem loads_spaced_newline {members : List (String × Json)} (hv : Printable (.obj members)) :
    loads (spaced (.obj members) ++ ['\n']) = some (.obj members) := by
  have hrun := (run_spaced _ hv []).trans (run_object members hv [])
  have hend : step (settle [] (.obj members)) '\n' = some (settle [] (.obj members)) := rfl
  rw [loads, start, run_of_run hrun, run_of_step hend]
  rfl

-- Only blanks are added.

mutual
theorem mem_spaced (value : Json) {c : Char} (hc : c ∈ spaced value) : c ∈ text value ∨ c = ' ' := by
  match value with
  | .null | .bool _ | .int _ | .float _ | .str _ => exact Or.inl hc
  | .arr [] => exact Or.inl hc
  | .arr (item :: rest) =>
      simp only [spaced, spacedItems, List.drop_succ_cons, List.drop_zero, List.mem_append,
        List.mem_cons, List.not_mem_nil, or_false] at hc
      simp only [text, textItems, List.tail_cons, List.mem_append, List.mem_cons, List.not_mem_nil,
        or_false]
      have hitem := @mem_spaced item c
      have hrest := @mem_spacedItems rest c
      tauto
  | .obj [] => exact Or.inl hc
  | .obj ((key, value) :: rest) =>
      simp only [spaced, spacedMembers, List.drop_succ_cons, List.drop_zero, List.mem_append,
        List.mem_cons, List.not_mem_nil, or_false] at hc
      simp only [text, textMembers, List.tail_cons, List.mem_append, List.mem_cons,
        List.not_mem_nil, or_false]
      have hvalue := @mem_spaced value c
      have hrest := @mem_spacedMembers rest c
      tauto

theorem mem_spacedItems (items : List Json) {c : Char} (hc : c ∈ spacedItems items) :
    c ∈ textItems items ∨ c = ' ' := by
  match items with
  | [] => exact Or.inl hc
  | item :: rest =>
      simp only [spacedItems, List.mem_append, List.mem_cons] at hc
      simp only [textItems, List.mem_append, List.mem_cons]
      have hitem := @mem_spaced item c
      have hrest := @mem_spacedItems rest c
      tauto

theorem mem_spacedMembers (members : List (String × Json)) {c : Char}
    (hc : c ∈ spacedMembers members) : c ∈ textMembers members ∨ c = ' ' := by
  match members with
  | [] => exact Or.inl hc
  | (key, value) :: rest =>
      simp only [spacedMembers, List.mem_append, List.mem_cons] at hc
      simp only [textMembers, List.mem_append, List.mem_cons]
      have hvalue := @mem_spaced value c
      have hrest := @mem_spacedMembers rest c
      tauto
end

-- No control character is written, and so no line end.
theorem control_not_mem_spaced {value : Json} (hv : Printable value) {c : Char}
    (hc : c.toNat < 0x20) : c ∉ spaced value := by
  intro hm
  rcases mem_spaced value hm with hm | rfl
  · have hhigh := ((mem_text_iff (Or.inl hc) value hv).mp hm).2
    omega
  · exact absurd hc (by decide)

theorem exists_spaced (members : List (String × Json)) :
    ∃ inner, spaced (.obj members) = '{' :: inner ++ ['}'] := ⟨_, rfl⟩

-- What stops before the object's last brace is no text at all.
theorem loads_spaced_torn {members : List (String × Json)} (hv : Printable (.obj members))
    {torn rest : List Char} (htext : spaced (.obj members) = torn ++ rest) (hrest : rest ≠ []) :
    loads torn = none := by
  have hlast : '}' ∈ rest := by
    have h := congrArg List.getLast? htext
    rw [spaced, List.getLast?_concat, List.getLast?_append_of_ne_nil _ hrest] at h
    exact List.mem_of_getLast? h.symm
  have hrun := (run_spaced _ hv []).trans (run_object members hv [])
  rw [htext] at hrun
  obtain ⟨inner, hinner⟩ := exists_spaced members
  exact loads_cut ((hinner.symm.trans htext).symm) hrun hlast

end KnowledgeCompiler.Lib.Json
