import KnowledgeCompiler.Lib.Json.RoundTrip

namespace KnowledgeCompiler.Lib.Json

def Role.isValue : Role → Bool
  | .value => true
  | .key _ => false

-- A value has begun, or is about to, and is not yet read.
def Mode.underway : Mode → Bool
  | .value | .number _ | .literal _ _ => true
  | .string role _ | .escape role _ | .unicode role _ _ _ | .highRead role _ _
  | .highEscape role _ _ => role.isValue
  | _ => false

-- What is left of a literal under way.
def Mode.expected : Mode → List Char
  | .literal rest _ => rest
  | _ => []

-- Every value under way lies inside a container, and no literal waits for a brace.
def Opened (state : State) : Prop :=
  (state.mode.underway = true → state.stack ≠ []) ∧ '{' ∉ state.mode.expected

theorem opened_of_idle {mode : Mode} (stack : List Frame) (hmode : mode.underway = false) :
    Opened ⟨mode, stack⟩ := by
  refine ⟨fun h => absurd h (by simp [hmode]), ?_⟩
  cases mode with
  | literal rest value => cases hmode
  | _ => exact List.not_mem_nil

theorem opened_settle (stack : List Frame) (value : Json) : Opened (settle stack value) := by
  unfold settle
  split <;> exact opened_of_idle _ rfl

theorem opened_afterValue {state next : State} {c : Char} (hstate : Opened state)
    (hafter : afterValue state c = some next) : Opened next := by
  unfold afterValue at hafter
  split at hafter
  · exact Option.some.inj hafter ▸ hstate
  split at hafter
  · split at hafter
    · exact Option.some.inj hafter ▸ ⟨fun _ => List.cons_ne_nil _ _, List.not_mem_nil⟩
    split at hafter
    · exact Option.some.inj hafter ▸ opened_settle _ _
    · cases hafter
  · split at hafter
    · exact Option.some.inj hafter ▸ opened_of_idle _ rfl
    split at hafter
    · exact Option.some.inj hafter ▸ opened_settle _ _
    · cases hafter
  · cases hafter

theorem opened_startValue {stack : List Frame} {next : State} {c : Char} (hstack : stack ≠ [])
    (hnext : startValue stack c = some next) : Opened next := by
  have h : next.stack = stack ∧ '{' ∉ next.mode.expected := by
    unfold startValue at hnext
    repeat' split at hnext
    all_goals cases hnext
    all_goals exact ⟨rfl, by simp [Mode.expected]⟩
  exact ⟨fun _ => h.1 ▸ hstack, h.2⟩

theorem opened_closeString (role : Role) (taken : List Char) (stack : List Frame) :
    Opened (closeString role taken stack) := by
  cases role with
  | value => exact opened_settle _ _
  | key members => exact opened_of_idle _ rfl

theorem opened_stepString {role : Role} {taken : List Char} {stack : List Frame} {c : Char}
    {next : State} (hopen : role.isValue = true → stack ≠ [])
    (hstep : stepString role taken stack c = some next) : Opened next := by
  have hstate (mode : Mode) (hmode : mode.underway = role.isValue ∧ mode.expected = []) :
      Opened ⟨mode, stack⟩ :=
    ⟨fun hunderway => hopen (hmode.1.symm.trans hunderway), hmode.2 ▸ List.not_mem_nil⟩
  unfold stepString at hstep
  split at hstep
  · exact Option.some.inj hstep ▸ opened_closeString role taken stack
  split at hstep
  · exact Option.some.inj hstep ▸ hstate _ ⟨rfl, rfl⟩
  split at hstep
  · cases hstep
  · exact Option.some.inj hstep ▸ hstate _ ⟨rfl, rfl⟩

theorem opened_stepEscape {role : Role} {taken : List Char} {stack : List Frame} {c : Char}
    {next : State} (hopen : role.isValue = true → stack ≠ [])
    (hstep : stepEscape role taken stack c = some next) : Opened next := by
  have hstate (mode : Mode) (hmode : mode.underway = role.isValue ∧ mode.expected = []) :
      Opened ⟨mode, stack⟩ :=
    ⟨fun hunderway => hopen (hmode.1.symm.trans hunderway), hmode.2 ▸ List.not_mem_nil⟩
  unfold stepEscape at hstep
  split at hstep
  · exact Option.some.inj hstep ▸ hstate _ ⟨rfl, rfl⟩
  · obtain ⟨found, -, rfl⟩ := Option.map_eq_some_iff.mp hstep
    exact hstate _ ⟨rfl, rfl⟩

theorem underway_stepUnicode {role : Role} {taken digits : List Char} {high : Option Nat} {c : Char}
    {mode : Mode} (hmode : stepUnicode role taken high digits c = some mode) :
    mode.underway = role.isValue ∧ mode.expected = [] := by
  unfold stepUnicode closeUnicode closeSingle at hmode
  repeat' split at hmode
  all_goals cases hmode
  all_goals exact ⟨rfl, rfl⟩

theorem Opened.step {state next : State} {c : Char} (hstate : Opened state)
    (hstep : step state c = some next) : Opened next := by
  obtain ⟨mode, stack⟩ := state
  cases mode with
  | value =>
      simp only [Json.step] at hstep
      split at hstep
      · exact Option.some.inj hstep ▸ hstate
      · exact opened_startValue (hstate.1 rfl) hstep
  | firstItem =>
      simp only [Json.step] at hstep
      split at hstep
      · exact Option.some.inj hstep ▸ hstate
      split at hstep
      · exact Option.some.inj hstep ▸ opened_settle _ _
      · exact opened_startValue (List.cons_ne_nil _ _) hstep
  | firstKey =>
      simp only [Json.step] at hstep
      split at hstep
      · exact Option.some.inj hstep ▸ hstate
      split at hstep
      · exact Option.some.inj hstep ▸ opened_settle _ _
      split at hstep
      · exact Option.some.inj hstep ▸ opened_of_idle _ rfl
      · cases hstep
  | key members =>
      simp only [Json.step] at hstep
      split at hstep
      · exact Option.some.inj hstep ▸ hstate
      split at hstep
      · exact Option.some.inj hstep ▸ opened_of_idle _ rfl
      · cases hstep
  | colon members key =>
      simp only [Json.step] at hstep
      split at hstep
      · exact Option.some.inj hstep ▸ hstate
      split at hstep
      · exact Option.some.inj hstep ▸ ⟨fun _ => List.cons_ne_nil _ _, List.not_mem_nil⟩
      · cases hstep
  | string role taken => exact opened_stepString hstate.1 hstep
  | escape role taken => exact opened_stepEscape hstate.1 hstep
  | unicode role taken high digits =>
      obtain ⟨mode, hmode, rfl⟩ := Option.map_eq_some_iff.mp hstep
      obtain ⟨hunderway, hexpected⟩ := underway_stepUnicode hmode
      exact ⟨fun hrole => hstate.1 (hunderway.symm.trans hrole), hexpected ▸ List.not_mem_nil⟩
  | highRead role taken high =>
      rw [step_highRead] at hstep
      split at hstep
      · exact Option.some.inj hstep ▸ hstate
      · exact opened_stepString hstate.1 hstep
  | highEscape role taken high =>
      rw [step_highEscape] at hstep
      split at hstep
      · exact Option.some.inj hstep ▸ hstate
      · exact opened_stepEscape hstate.1 hstep
  | number lexeme =>
      simp only [Json.step] at hstep
      split at hstep
      · exact Option.some.inj hstep ▸ hstate
      split at hstep
      · exact Option.some.inj hstep ▸ ⟨fun _ => hstate.1 rfl, by simp [Mode.expected]⟩
      · obtain ⟨value, -, hafter⟩ := Option.bind_eq_some_iff.mp hstep
        exact opened_afterValue (opened_settle stack value) hafter
  | literal rest value =>
      simp only [Json.step] at hstep
      split at hstep
      · cases hstep
      split at hstep
      · cases hstep
      split at hstep
      · exact Option.some.inj hstep ▸ opened_settle _ _
      · exact Option.some.inj hstep ▸
          ⟨fun _ => hstate.1 rfl, fun hm => hstate.2 (List.mem_cons_of_mem _ hm)⟩
  | nextItem items => exact opened_afterValue hstate hstep
  | nextMember members => exact opened_afterValue hstate hstep
  | done value => exact opened_afterValue hstate hstep

theorem Opened.run {state next : State} {text : List Char} (hstate : Opened state)
    (hrun : run state text = some next) : Opened next := by
  induction text generalizing state with
  | nil => exact Option.some.inj hrun ▸ hstate
  | cons c rest ih =>
      rw [run_cons] at hrun
      obtain ⟨middle, hstep, hrest⟩ := Option.bind_eq_some_iff.mp hrun
      exact ih (hstate.step hstep) hrest

-- Once the value of the whole text is read, only blanks may follow.
theorem isBlank_of_run_done {value : Json} {stack : List Frame} {next : State} {text : List Char}
    (hrun : run ⟨.done value, stack⟩ text = some next) : ∀ c ∈ text, isBlank c = true := by
  induction text with
  | nil => simp
  | cons c rest ih =>
      by_cases hc : isBlank c = true
      · have hstep : step ⟨.done value, stack⟩ c = some ⟨.done value, stack⟩ := by
          simp [step, afterValue, hc]
        rw [run_of_step hstep] at hrun
        exact List.forall_mem_cons.mpr ⟨hc, ih hrun⟩
      · simp [run_cons, step, afterValue, hc] at hrun

theorem finish_of_more {state next : State} {rest : List Char} (hstate : Opened state)
    (hrun : run state rest = some next) {c : Char} (hc : c ∈ rest) (hblank : isBlank c = false) :
    finish state = none := by
  obtain ⟨mode, stack⟩ := state
  cases mode with
  | done value =>
      have := isBlank_of_run_done hrun c hc
      simp [hblank] at this
  | number lexeme =>
      have hstack : stack ≠ [] := hstate.1 rfl
      simp [finish, hstack]
  | _ => rfl

theorem last_mem_of_append {members : List (String × Json)} {torn rest : List Char}
    (htext : text (.obj members) = torn ++ rest) (hrest : rest ≠ []) : '}' ∈ rest := by
  have h := congrArg List.getLast? htext
  rw [text, List.getLast?_concat, List.getLast?_append_of_ne_nil _ hrest] at h
  exact List.mem_of_getLast? h.symm

-- A text of an object that is cut before its last brace is no text at all.
theorem loads_cut {value : Json} {inner torn rest : List Char} (htext : torn ++ rest = '{' :: inner)
    (hrun : run ⟨.value, []⟩ (torn ++ rest) = some (settle [] value)) (hlast : '}' ∈ rest) :
    loads torn = none := by
  cases torn with
  | nil => rfl
  | cons c more =>
      obtain rfl : c = '{' := (List.cons.inj htext).1
      rw [run_append] at hrun
      obtain ⟨state, hstate, hmore⟩ := Option.bind_eq_some_iff.mp hrun
      have hopened : Opened state := by
        have hopen : step ⟨.value, []⟩ '{' = some ⟨.firstKey, []⟩ := rfl
        rw [run_of_step hopen] at hstate
        exact Opened.run (opened_of_idle _ rfl) hstate
      rw [loads, start, hstate, Option.bind_some]
      exact finish_of_more hopened hmore hlast (by decide)

-- An object is no longer than its text says.
theorem loads_torn {members : List (String × Json)} (hv : Printable (.obj members))
    {torn rest : List Char} (htext : text (.obj members) = torn ++ rest) (hrest : rest ≠ []) :
    loads torn = none := by
  have hrun := run_object members hv []
  rw [htext] at hrun
  exact loads_cut htext.symm hrun (last_mem_of_append htext hrest)

-- A member's opening can follow only where a value may begin.
theorem begins_of_run {state next : State} {d : Char} {more : List Char} (hstate : Opened state)
    (hd : isBlank d = false ∧ d ≠ ':' ∧ d ≠ ',' ∧ d ≠ ']' ∧ d ≠ '}')
    (hrun : run state ('{' :: '"' :: d :: more) = some next) :
    state.mode = .value ∨ state.mode = .firstItem := by
  obtain ⟨hblank, hcolon, hcomma, hbracket, hbrace⟩ := hd
  have hafter (found : State) : afterValue found '{' = none := by
    unfold afterValue
    split
    · rename_i h; exact absurd h (by decide)
    · split <;> rfl
  have hnone (found : State) (hfound : step state '{' = none) : False := by
    rw [run_cons, hfound, Option.bind_none] at hrun
    cases hrun
  -- The quotation mark closes a string, and the key's first letter may not follow.
  have hclosed (role : Role) (taken : List Char) (stack : List Frame) :
      run ⟨.string role taken, stack⟩ ('"' :: d :: more) = none := by
    have hclose : step ⟨.string role taken, stack⟩ '"' = some (closeString role taken stack) := rfl
    have hrefused : step (closeString role taken stack) d = none := by
      cases role with
      | value =>
          simp only [closeString, settle]
          split <;> simp [step, afterValue, hblank, hcomma, hbracket, hbrace]
      | key members => simp [closeString, step, hblank, hcolon]
    rw [run_of_step hclose, run_cons, hrefused, Option.bind_none]
  obtain ⟨mode, stack⟩ := state
  cases mode with
  | value => exact Or.inl rfl
  | firstItem => exact Or.inr rfl
  | string role taken =>
      have hopen : step ⟨.string role taken, stack⟩ '{' =
          some ⟨.string role (taken ++ ['{']), stack⟩ := rfl
      rw [run_of_step hopen, hclosed] at hrun
      cases hrun
  | highRead role taken high =>
      have hopen : step ⟨.highRead role taken high, stack⟩ '{' =
          some ⟨.string role (taken ++ [lone high] ++ ['{']), stack⟩ := rfl
      rw [run_of_step hopen, hclosed] at hrun
      cases hrun
  | unicode role taken high digits => exact absurd (hnone ⟨.value, []⟩ rfl) id
  | number lexeme =>
      refine absurd (hnone ⟨.value, []⟩ ?_) id
      have hnumber : isNumberChar '{' = false := by decide
      simp [step, hnumber, hafter]
  | literal rest value =>
      refine absurd (hnone ⟨.value, []⟩ ?_) id
      cases rest with
      | nil => rfl
      | cons expected more =>
          have hne : '{' ≠ expected := fun h => hstate.2 (h ▸ List.mem_cons_self)
          simp [step, hne]
  | nextItem items => exact absurd (hnone ⟨.value, []⟩ (hafter _)) id
  | nextMember members => exact absurd (hnone ⟨.value, []⟩ (hafter _)) id
  | done value => exact absurd (hnone ⟨.value, []⟩ (hafter _)) id
  | _ => exact absurd (hnone ⟨.value, []⟩ rfl) id

-- A text that something opened stands before, with no end of its line between
-- them: the second value lands inside the first, and neither is ever closed.
theorem loads_glued {members : List (String × Json)} (hv : Printable (.obj members))
    {inner glued rest more : List Char} {d : Char} (htext : text (.obj members) = glued ++ rest)
    (hglued : glued = '{' :: '"' :: d :: more)
    (hd : isBlank d = false ∧ d ≠ ':' ∧ d ≠ ',' ∧ d ≠ ']' ∧ d ≠ '}') :
    loads ('{' :: inner ++ glued) = none := by
  rw [loads, run_append]
  cases hstate : run start ('{' :: inner) with
  | none => rfl
  | some state =>
      have hopened : Opened state := by
        have hopen : step start '{' = some ⟨.firstKey, []⟩ := rfl
        rw [run_of_step hopen] at hstate
        exact Opened.run (opened_of_idle _ rfl) hstate
      rw [Option.bind_some]
      cases hnext : run state glued with
      | none => rfl
      | some next =>
          rw [Option.bind_some]
          -- The glued text runs as it would inside the container that was open.
          obtain ⟨stack, hstack, hinside⟩ :
              ∃ stack, stack ≠ [] ∧ run ⟨.value, stack⟩ glued = some next := by
            obtain ⟨mode, stack⟩ := state
            rcases begins_of_run hopened hd (hglued ▸ hnext) with hmode | hmode
            · simp only at hmode
              subst hmode
              exact ⟨stack, hopened.1 rfl, hnext⟩
            · simp only at hmode
              subst hmode
              refine ⟨.item [] :: stack, List.cons_ne_nil _ _, ?_⟩
              rw [← hnext, hglued, run_cons, run_cons]
              rfl
          have hfull := run_object members hv stack
          rw [htext, run_of_run hinside] at hfull
          by_cases hrest : rest = []
          · subst hrest
            obtain rfl : next = settle stack (.obj members) := Option.some.inj hfull
            cases stack with
            | nil => exact absurd rfl hstack
            | cons frame more => cases frame <;> rfl
          · have hlast : '}' ∈ rest := last_mem_of_append htext hrest
            have hunder : Opened ⟨.value, stack⟩ := ⟨fun _ => hstack, List.not_mem_nil⟩
            exact finish_of_more (Opened.run hunder hinside) hfull hlast (by decide)

-- The characters of the strings and keys of a value.
mutual
def chars : Json → List Char
  | .str value => value.toList
  | .arr items => charsItems items
  | .obj members => charsMembers members
  | _ => []

def charsItems : List Json → List Char
  | [] => []
  | item :: rest => chars item ++ charsItems rest

def charsMembers : List (String × Json) → List Char
  | [] => []
  | (key, value) :: rest => key.toList ++ (chars value ++ charsMembers rest)
end

theorem mem_escapeChar {c d : Char} (hc : c ∈ escapeChar d) :
    (0x20 ≤ c.toNat ∧ c.toNat < 0x7f) ∨ (c = d ∧ 0x20 ≤ c.toNat) := by
  have hdigit (n : Nat) (hn : n < 16) :
      0x20 ≤ (Nat.digitChar n).toNat ∧ (Nat.digitChar n).toNat < 0x7f := by
    have h : ∀ n < 16, 0x20 ≤ (Nat.digitChar n).toNat ∧ (Nat.digitChar n).toNat < 0x7f := by decide
    exact h n hn
  have hpair (e : Char) (he : 0x20 ≤ e.toNat ∧ e.toNat < 0x7f) (hm : c ∈ ['\\', e]) :
      (0x20 ≤ c.toNat ∧ c.toNat < 0x7f) ∨ (c = d ∧ 0x20 ≤ c.toNat) := by
    left
    rcases List.mem_cons.mp hm with rfl | hm
    · decide
    · exact List.mem_singleton.mp hm ▸ he
  unfold escapeChar at hc
  iterate 7
    split at hc
    · exact hpair _ (by decide) hc
  split at hc
  · rename_i hcontrol
    left
    simp only [List.mem_cons, List.not_mem_nil, or_false] at hc
    rcases hc with rfl | rfl | rfl | rfl | rfl | rfl
    · decide
    · decide
    · decide
    · decide
    · exact hdigit _ (by omega)
    · exact hdigit _ (by omega)
  · rename_i hcontrol
    obtain rfl := List.mem_singleton.mp hc
    exact Or.inr ⟨rfl, by omega⟩

theorem escapeChar_of_le {c : Char} (hc : 0x7f ≤ c.toNat) : escapeChar c = [c] := by
  have hne (d : Char) (hd : d.toNat < 0x7f) : c ≠ d := by
    rintro rfl
    omega
  have h0c : c.toNat ≠ 0x0c := by omega
  have h08 : c.toNat ≠ 0x08 := by omega
  have h20 : ¬c.toNat < 0x20 := by omega
  simp [escapeChar, hne '"' (by decide), hne '\\' (by decide), hne '\n' (by decide),
    hne '\r' (by decide), hne '\t' (by decide), h0c, h08, h20]

-- A character that is no printable ASCII: a text has it just where a string has
-- it raw, and the controls are never raw.
theorem mem_quote_iff {c : Char} (hc : c.toNat < 0x20 ∨ 0x7f ≤ c.toNat) (value : String) :
    c ∈ quote value ↔ c ∈ value.toList ∧ 0x7f ≤ c.toNat := by
  have hmark : c ≠ '"' := by
    rintro rfl
    exact absurd hc (by decide)
  simp only [quote, List.mem_append, List.mem_cons, hmark, false_or, List.not_mem_nil, or_false,
    List.mem_flatMap]
  constructor
  · rintro ⟨d, hd, hm⟩
    rcases mem_escapeChar hm with hplain | ⟨rfl, hlow⟩
    · omega
    · exact ⟨hd, by omega⟩
  · rintro ⟨hm, hhigh⟩
    exact ⟨c, hm, by simp [escapeChar_of_le hhigh]⟩

mutual
theorem mem_text_iff {c : Char} (hc : c.toNat < 0x20 ∨ 0x7f ≤ c.toNat) (value : Json)
    (hv : Printable value) : c ∈ text value ↔ c ∈ chars value ∧ 0x7f ≤ c.toNat := by
  have hne (d : Char) (hd : 0x20 ≤ d.toNat ∧ d.toNat < 0x7f) : c ≠ d := by
    rintro rfl
    omega
  match value with
  | .null =>
      simp [text, chars, hne 'n' (by decide), hne 'u' (by decide), hne 'l' (by decide)]
  | .bool true =>
      simp [text, chars, hne 't' (by decide), hne 'r' (by decide), hne 'u' (by decide),
        hne 'e' (by decide)]
  | .bool false =>
      simp [text, chars, hne 'f' (by decide), hne 'a' (by decide), hne 'l' (by decide),
        hne 's' (by decide), hne 'e' (by decide)]
  | .int n =>
      have hdigits (hm : c ∈ (toString n).toList) : False := by
        rw [toList_toString] at hm
        have hdigit (hm : c ∈ Nat.toDigits 10 n.natAbs) : False := by
          have h := toDigits_isDigit hm
          simp only [Char.isDigit, Bool.and_eq_true, decide_eq_true_eq] at h
          have h1 : 48 ≤ c.toNat := h.1
          have h2 : c.toNat ≤ 57 := h.2
          omega
        split at hm
        · rcases List.mem_cons.mp hm with he | hm
          · exact hne '-' (by decide) he
          · exact hdigit hm
        · exact hdigit hm
      simp only [text, chars, List.not_mem_nil, false_and, iff_false]
      exact hdigits
  | .float lexeme =>
      obtain ⟨first, rest, rfl, hfirst, hrest, -⟩ := exists_of_isFloat hv
      have hnumber : ∀ d ∈ first :: rest, isNumberChar d = true := by
        intro d hd
        rcases List.mem_cons.mp hd with rfl | hd
        · rcases hfirst with hdigit | rfl
          · exact isNumberChar_of_isDigit hdigit
          · rfl
        · exact hrest d hd
      simp only [text, chars, List.not_mem_nil, false_and, iff_false]
      intro hm
      have h := hnumber c hm
      simp only [isNumberChar, hne '-' (by decide), hne '+' (by decide), hne '.' (by decide),
        hne 'e' (by decide), hne 'E' (by decide), decide_false, Bool.or_false, Char.isDigit,
        Bool.and_eq_true, decide_eq_true_eq] at h
      have h1 : 48 ≤ c.toNat := h.1
      have h2 : c.toNat ≤ 57 := h.2
      omega
  | .str value => exact mem_quote_iff hc value
  | .arr items =>
      have hitems := mem_textItems_iff hc items hv
      rw [text, chars, ← hitems]
      cases items <;>
        simp [textItems, hne '[' (by decide), hne ']' (by decide), hne ',' (by decide)]
  | .obj members =>
      have hmembers := mem_textMembers_iff hc members hv.2
      rw [text, chars, ← hmembers]
      rcases members with _ | ⟨⟨key, value⟩, rest⟩ <;>
        simp [textMembers, hne '{' (by decide), hne '}' (by decide), hne ',' (by decide)]

theorem mem_textItems_iff {c : Char} (hc : c.toNat < 0x20 ∨ 0x7f ≤ c.toNat) (items : List Json)
    (hv : PrintableItems items) : c ∈ textItems items ↔ c ∈ charsItems items ∧ 0x7f ≤ c.toNat := by
  have hcomma : c ≠ ',' := by
    rintro rfl
    exact absurd hc (by decide)
  match items with
  | [] => simp [textItems, charsItems]
  | item :: rest =>
      have hitem := mem_text_iff hc item hv.1
      have hrest := mem_textItems_iff hc rest hv.2
      simp only [textItems, charsItems, List.mem_cons, List.mem_append, hcomma, false_or, hitem,
        hrest, or_and_right]

theorem mem_textMembers_iff {c : Char} (hc : c.toNat < 0x20 ∨ 0x7f ≤ c.toNat)
    (members : List (String × Json)) (hv : PrintableMembers members) :
    c ∈ textMembers members ↔ c ∈ charsMembers members ∧ 0x7f ≤ c.toNat := by
  have hcomma : c ≠ ',' := by
    rintro rfl
    exact absurd hc (by decide)
  have hcolon : c ≠ ':' := by
    rintro rfl
    exact absurd hc (by decide)
  match members with
  | [] => simp [textMembers, charsMembers]
  | (key, value) :: rest =>
      have hvalue := mem_text_iff hc value hv.1
      have hrest := mem_textMembers_iff hc rest hv.2
      simp only [textMembers, charsMembers, List.mem_cons, List.mem_append, hcomma, hcolon,
        false_or, mem_quote_iff hc, hvalue, hrest, or_and_right]
end

end KnowledgeCompiler.Lib.Json
