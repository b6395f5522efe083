import KnowledgeCompiler.Lib.Json
import Mathlib.Data.List.TakeWhile

namespace KnowledgeCompiler.Lib.Json

theorem run_append (state : State) (first second : List Char) :
    run state (first ++ second) = (run state first).bind (fun middle => run middle second) := by
  simp only [run, List.foldlM_append]
  rfl

@[simp] theorem run_nil (state : State) : run state [] = some state := rfl

theorem run_cons (state : State) (c : Char) (rest : List Char) :
    run state (c :: rest) = (step state c).bind (fun next => run next rest) := by
  simp only [run, List.foldlM_cons]
  rfl

theorem run_of_step {state next : State} {c : Char} (hstep : step state c = some next)
    (rest : List Char) : run state (c :: rest) = run next rest := by
  rw [run_cons, hstep, Option.bind_some]

theorem run_of_run {state next : State} {first : List Char} (hrun : run state first = some next)
    (second : List Char) : run state (first ++ second) = run next second := by
  rw [run_append, hrun, Option.bind_some]

-- Strings.

theorem step_string (role : Role) (taken : List Char) (stack : List Frame) (c : Char) :
    step ⟨.string role taken, stack⟩ c = stepString role taken stack c := rfl

theorem step_escape (role : Role) (taken : List Char) (stack : List Frame) (c : Char) :
    step ⟨.escape role taken, stack⟩ c = stepEscape role taken stack c := rfl

theorem step_highRead (role : Role) (taken : List Char) (high : Nat) (stack : List Frame) (c : Char) :
    step ⟨.highRead role taken high, stack⟩ c =
      if c = '\\' then some ⟨.highEscape role taken high, stack⟩
      else stepString role (taken ++ [lone high]) stack c := rfl

theorem step_highEscape (role : Role) (taken : List Char) (high : Nat) (stack : List Frame) (c : Char) :
    step ⟨.highEscape role taken high, stack⟩ c =
      if c = 'u' then some ⟨.unicode role taken (some high) [], stack⟩
      else stepEscape role (taken ++ [lone high]) stack c := rfl

theorem hexValue_digitChar (n : Nat) (hn : n < 16) : hexValue (Nat.digitChar n) = some n := by
  have h : ∀ n < 16, hexValue (Nat.digitChar n) = some n := by decide
  exact h n hn

theorem closeSingle_toNat (role : Role) (taken : List Char) (c : Char) :
    closeSingle role taken c.toNat = .string role (taken ++ [c]) := by
  have hvalid : c.toNat < 0xd800 ∨ 0xdfff < c.toNat ∧ c.toNat < 0x110000 := c.valid
  have hhigh : ¬(0xd800 ≤ c.toNat ∧ c.toNat ≤ 0xdbff) := by omega
  have hlow : ¬(0xdc00 ≤ c.toNat ∧ c.toNat ≤ 0xdfff) := by omega
  rw [closeSingle, if_neg hhigh, if_neg hlow, Char.ofNat_toNat]

theorem run_control (role : Role) (taken : List Char) (stack : List Frame) (c : Char)
    (hc : c.toNat < 0x20) :
    run ⟨.escape role taken, stack⟩
        ['u', '0', '0', Nat.digitChar (c.toNat / 16), Nat.digitChar (c.toNat % 16)] =
      some ⟨.string role (taken ++ [c]), stack⟩ := by
  have hzero : hexValue '0' = some 0 := by decide
  have hhigh := hexValue_digitChar (c.toNat / 16) (by omega)
  have hlow := hexValue_digitChar (c.toNat % 16) (by omega)
  have hcode : hexNumber ['0', '0', Nat.digitChar (c.toNat / 16), Nat.digitChar (c.toNat % 16)] =
      c.toNat := by
    simp only [hexNumber, List.foldl_cons, List.foldl_nil, hzero, hhigh, hlow, Option.getD_some]
    omega
  have hclose : closeUnicode role taken none c.toNat = .string role (taken ++ [c]) :=
    closeSingle_toNat role taken c
  simp [run_cons, step, stepEscape, stepUnicode, hzero, hhigh, hlow, hcode, hclose]

theorem run_escapeChar (role : Role) (taken : List Char) (stack : List Frame) (c : Char) :
    run ⟨.string role taken, stack⟩ (escapeChar c) = some ⟨.string role (taken ++ [c]), stack⟩ := by
  have hescape (rest : List Char) :
      run ⟨.string role taken, stack⟩ ('\\' :: rest) = run ⟨.escape role taken, stack⟩ rest :=
    run_of_step (by simp [step, stepString]) rest
  have hsimple (d found : Char) (hd : d ≠ 'u') (hfound : simpleEscape d = some found) :
      run ⟨.string role taken, stack⟩ ['\\', d] = some ⟨.string role (taken ++ [found]), stack⟩ := by
    rw [hescape, run_cons]
    simp [step, stepEscape, hd, hfound]
  unfold escapeChar
  split
  · rename_i hc; exact hc ▸ hsimple '"' '"' (by decide) (by decide)
  split
  · rename_i hc; exact hc ▸ hsimple '\\' '\\' (by decide) (by decide)
  split
  · rename_i hc; exact hc ▸ hsimple 'n' '\n' (by decide) (by decide)
  split
  · rename_i hc; exact hc ▸ hsimple 'r' '\r' (by decide) (by decide)
  split
  · rename_i hc; exact hc ▸ hsimple 't' '\t' (by decide) (by decide)
  split
  · rename_i hc
    have he : c = Char.ofNat 0x0c := by rw [← hc, Char.ofNat_toNat]
    exact he ▸ hsimple 'f' (Char.ofNat 0x0c) (by decide) (by decide)
  split
  · rename_i hc
    have he : c = Char.ofNat 0x08 := by rw [← hc, Char.ofNat_toNat]
    exact he ▸ hsimple 'b' (Char.ofNat 0x08) (by decide) (by decide)
  split
  · rename_i hc
    rw [hescape]
    exact run_control role taken stack c hc
  · rename_i hquote hback _ _ _ _ _ hcontrol
    simp [run_cons, step, stepString, hquote, hback, hcontrol]

theorem run_escaped (role : Role) (chars taken : List Char) (stack : List Frame) :
    run ⟨.string role taken, stack⟩ (chars.flatMap escapeChar) =
      some ⟨.string role (taken ++ chars), stack⟩ := by
  induction chars generalizing taken with
  | nil => simp
  | cons c rest ih =>
      rw [List.flatMap_cons, run_of_run (run_escapeChar role taken stack c), ih]
      simp

-- From any state that a quotation mark takes into a string.
theorem run_quote {state : State} {role : Role} {stack : List Frame}
    (hopen : step state '"' = some ⟨.string role [], stack⟩) (value : String) :
    run state (quote value) = some (closeString role value.toList stack) := by
  rw [quote, List.cons_append, run_of_step hopen, run_of_run (run_escaped role _ [] stack)]
  simp [run_cons, step, stepString]

-- Integers.

theorem isNumberChar_of_isDigit {c : Char} (hc : c.isDigit = true) : isNumberChar c = true := by
  simp [isNumberChar, hc]

theorem run_number (lexeme more : List Char) (stack : List Frame)
    (hmore : ∀ c ∈ more, isNumberChar c = true) :
    run ⟨.number lexeme, stack⟩ more = some ⟨.number (lexeme ++ more), stack⟩ := by
  induction more generalizing lexeme with
  | nil => simp
  | cons c rest ih =>
      have hc : isNumberChar c = true := hmore c List.mem_cons_self
      have hstep : step ⟨.number lexeme, stack⟩ c = some ⟨.number (lexeme ++ [c]), stack⟩ := by
        simp [step, hc]
      rw [run_of_step hstep, ih _ (fun d hd => hmore d (List.mem_cons_of_mem _ hd))]
      simp

-- Without a leading zero.
theorem naturalPart_toDigits (n : Nat) : naturalPart (Nat.toDigits 10 n) = some n := by
  have hall : (Nat.toDigits 10 n).all Char.isDigit = true :=
    List.all_eq_true.mpr (fun c hc => Nat.isDigit_of_mem_toDigits (by decide) (by decide) hc)
  have hzero (m : Nat) : (Nat.toDigits 10 m).head? = some '0' → m = 0 := by
    induction m using Nat.strongRecOn with
    | _ m ih =>
        intro hhead
        by_cases hm : m < 10
        · have h : ∀ m < 10, (Nat.toDigits 10 m).head? = some '0' → m = 0 := by decide
          exact h m hm hhead
        · rw [Nat.toDigits_of_base_le (by decide) (by omega)] at hhead
          have hne : Nat.toDigits 10 (m / 10) ≠ [] := Nat.toDigits_ne_nil
          rw [List.head?_append_of_ne_nil _ hne] at hhead
          have := ih (m / 10) (by omega) hhead
          omega
  have hlead : (Nat.toDigits 10 n).head? = some '0' → Nat.toDigits 10 n = ['0'] := by
    intro hhead
    rw [hzero n hhead]
    decide
  unfold naturalPart
  rw [if_pos ⟨Nat.toDigits_ne_nil, hall, hlead⟩, Nat.ofDigitChars_toDigits (by decide) (by decide)]

theorem toDigits_isDigit {n : Nat} {c : Char} (hc : c ∈ Nat.toDigits 10 n) : c.isDigit = true :=
  Nat.isDigit_of_mem_toDigits (by decide) (by decide) hc

theorem toList_toString (n : Int) :
    (toString n).toList =
      if n < 0 then '-' :: Nat.toDigits 10 n.natAbs else Nat.toDigits 10 n.natAbs := by
  cases n with
  | ofNat m => simp [toString, Int.repr, Nat.toList_repr]
  | negSucc m => simp [toString, Int.repr, Nat.toList_repr, Int.negSucc_lt_zero]

theorem parseNumber_toString (n : Int) : parseNumber (toString n).toList = some (.int n) := by
  have htake := List.takeWhile_eq_self_iff.mpr (fun c => @toDigits_isDigit n.natAbs c)
  have hdrop := List.dropWhile_eq_nil_iff.mpr (fun c => @toDigits_isDigit n.natAbs c)
  rw [toList_toString]
  split
  · rename_i hneg
    have habs : -(n.natAbs : Int) = n := by omega
    generalize n.natAbs = magnitude at *
    simp [parseNumber, splitSign, htake, hdrop, naturalPart_toDigits, habs]
  · rename_i hneg
    have habs : (n.natAbs : Int) = n := by omega
    have hsign : splitSign (Nat.toDigits 10 n.natAbs) = (false, Nat.toDigits 10 n.natAbs) := by
      unfold splitSign
      split
      · rename_i rest h
        exact absurd (toDigits_isDigit (h ▸ List.mem_cons_self)) (by decide)
      · rfl
    simp [parseNumber, hsign, htake, hdrop, naturalPart_toDigits, habs]

-- How an integer begins.
theorem exists_toString (n : Int) :
    ∃ first rest, (toString n).toList = first :: rest ∧ (first.isDigit = true ∨ first = '-') ∧
      ∀ c ∈ rest, isNumberChar c = true := by
  obtain ⟨first, rest, hsplit⟩ :=
    List.exists_cons_of_ne_nil (Nat.toDigits_ne_nil (b := 10) (n := n.natAbs))
  have hdigit (c : Char) (hc : c ∈ first :: rest) : c.isDigit = true := toDigits_isDigit (hsplit ▸ hc)
  rw [toList_toString]
  split
  · exact ⟨'-', _, rfl, Or.inr rfl, fun c hc => isNumberChar_of_isDigit (toDigits_isDigit hc)⟩
  · exact ⟨first, rest, hsplit, Or.inl (hdigit first List.mem_cons_self),
      fun c hc => isNumberChar_of_isDigit (hdigit c (List.mem_cons_of_mem _ hc))⟩

-- Such a character is no blank and opens or closes nothing.
theorem number_start {c : Char} (hc : c.isDigit = true ∨ c = '-') :
    isBlank c = false ∧ c ≠ '{' ∧ c ≠ '[' ∧ c ≠ '"' ∧ c ≠ ']' := by
  rcases hc with hc | rfl
  · have hne (d : Char) (hd : d.isDigit = false) : c ≠ d := by
      rintro rfl
      exact absurd hc (by simp [hd])
    simp [isBlank, hne ' ' (by decide), hne '\t' (by decide), hne '\n' (by decide),
      hne '\r' (by decide), hne '{' (by decide), hne '[' (by decide), hne '"' (by decide),
      hne ']' (by decide)]
  · decide

-- Values.

-- The spelling of a number with a fraction or an exponent.
def isFloat (lexeme : List Char) : Bool :=
  match lexeme, parseNumber lexeme with
  | first :: rest, some (.float found) =>
      (first.isDigit || first = '-') && rest.all isNumberChar && found = lexeme
  | _, _ => false

theorem exists_of_isFloat {lexeme : List Char} (hfloat : isFloat lexeme = true) :
    ∃ first rest, lexeme = first :: rest ∧ (first.isDigit = true ∨ first = '-') ∧
      (∀ c ∈ rest, isNumberChar c = true) ∧ parseNumber lexeme = some (.float lexeme) := by
  unfold isFloat at hfloat
  split at hfloat
  · rename_i first rest found hparse
    simp only [Bool.and_eq_true, Bool.or_eq_true, decide_eq_true_eq, List.all_eq_true] at hfloat
    obtain ⟨⟨hfirst, hrest⟩, rfl⟩ := hfloat
    exact ⟨first, rest, rfl, hfirst, hrest, hparse⟩
  · cases hfloat

-- What the writer emits: no float that is no number, no key twice in one object.
mutual
def Printable : Json → Prop
  | .float lexeme => isFloat lexeme = true
  | .arr items => PrintableItems items
  | .obj members => (members.map Prod.fst).Nodup ∧ PrintableMembers members
  | _ => True

def PrintableItems : List Json → Prop
  | [] => True
  | item :: rest => Printable item ∧ PrintableItems rest

def PrintableMembers : List (String × Json) → Prop
  | [] => True
  | (_, value) :: rest => Printable value ∧ PrintableMembers rest
end

-- A number is still open at its end, yet what may follow it sees it closed.
structure Ends (state target : State) : Prop where
  step_eq : ∀ c, c = ',' ∨ c = ']' ∨ c = '}' → step state c = step target c
  finish_eq : finish state = finish target

theorem Ends.refl (state : State) : Ends state state := ⟨fun _ _ => rfl, rfl⟩

theorem ends_number (lexeme : List Char) (stack : List Frame) (value : Json)
    (hparse : parseNumber lexeme = some value) :
    Ends ⟨.number lexeme, stack⟩ (settle stack value) := by
  constructor
  · intro c hc
    have hnumber : isNumberChar c = false := by rcases hc with rfl | rfl | rfl <;> decide
    have hinf : c ≠ 'I' := by rcases hc with rfl | rfl | rfl <;> decide
    have hafter : step (settle stack value) c = afterValue (settle stack value) c := by
      unfold settle
      split <;> rfl
    rw [hafter]
    simp [step, hnumber, hinf, hparse]
  · cases stack with
    | nil => simp [finish, settle, hparse]
    | cons frame rest => cases frame <;> simp [finish, settle]

theorem run_literal (rest : List Char) (value : Json) (stack : List Frame) (hrest : rest ≠ []) :
    run ⟨.literal rest value, stack⟩ rest = some (settle stack value) := by
  induction rest with
  | nil => exact absurd rfl hrest
  | cons c more ih =>
      by_cases hmore : more = []
      · subst hmore
        simp [run_cons, step]
      · have hstep : step ⟨.literal (c :: more) value, stack⟩ c =
            some ⟨.literal more value, stack⟩ := by
          simp [step, hmore]
        rw [run_of_step hstep]
        exact ih hmore

theorem run_int (n : Int) (stack : List Frame) :
    ∃ state, run ⟨.value, stack⟩ (toString n).toList = some state ∧
      Ends state (settle stack (.int n)) := by
  refine ⟨⟨.number (toString n).toList, stack⟩, ?_, ends_number _ stack _ (parseNumber_toString n)⟩
  obtain ⟨first, rest, hsplit, hfirst, hrest⟩ := exists_toString n
  obtain ⟨hblank, hbrace, hbracket, hquote, -⟩ := number_start hfirst
  have hstep : step ⟨.value, stack⟩ first = some ⟨.number [first], stack⟩ := by
    simp [step, startValue, hblank, hbrace, hbracket, hquote, hfirst]
  rw [hsplit, run_of_step hstep, run_number _ _ _ hrest]
  rfl

theorem run_float {lexeme : List Char} (hfloat : isFloat lexeme = true) (stack : List Frame) :
    ∃ state, run ⟨.value, stack⟩ lexeme = some state ∧
      Ends state (settle stack (.float lexeme)) := by
  obtain ⟨first, rest, rfl, hfirst, hrest, hparse⟩ := exists_of_isFloat hfloat
  refine ⟨⟨.number (first :: rest), stack⟩, ?_, ends_number _ stack _ hparse⟩
  obtain ⟨hblank, hbrace, hbracket, hquote, -⟩ := number_start hfirst
  have hstep : step ⟨.value, stack⟩ first = some ⟨.number [first], stack⟩ := by
    simp [step, startValue, hblank, hbrace, hbracket, hquote, hfirst]
  rw [run_of_step hstep, run_number _ _ _ hrest]
  rfl

-- The first character of a value is no blank and closes no list.
theorem firstItem_of_text (value : Json) (hv : Printable value) (stack : List Frame)
    (rest : List Char) :
    run ⟨.firstItem, stack⟩ (text value ++ rest) =
      run ⟨.value, .item [] :: stack⟩ (text value ++ rest) := by
  have hstep (c : Char) (hblank : isBlank c = false) (hclose : c ≠ ']') (more : List Char) :
      run ⟨.firstItem, stack⟩ (c :: more) = run ⟨.value, .item [] :: stack⟩ (c :: more) := by
    simp [run_cons, step, hblank, hclose]
  cases value with
  | null => exact hstep 'n' (by decide) (by decide) _
  | bool value => cases value <;> exact hstep _ (by decide) (by decide) _
  | int n =>
      obtain ⟨first, more, hsplit, hfirst, -⟩ := exists_toString n
      obtain ⟨hblank, -, -, -, hclose⟩ := number_start hfirst
      rw [text, hsplit]
      exact hstep first hblank hclose _
  | float lexeme =>
      obtain ⟨first, more, rfl, hfirst, -⟩ := exists_of_isFloat hv
      obtain ⟨hblank, -, -, -, hclose⟩ := number_start hfirst
      exact hstep first hblank hclose _
  | str value => exact hstep '"' (by decide) (by decide) _
  | arr items => exact hstep '[' (by decide) (by decide) _
  | obj members => exact hstep '{' (by decide) (by decide) _

mutual
theorem run_text (value : Json) (hv : Printable value) (stack : List Frame) :
    ∃ state, run ⟨.value, stack⟩ (text value) = some state ∧ Ends state (settle stack value) := by
  match value with
  | .null => exact ⟨_, run_literal "ull".toList .null stack (by decide), .refl _⟩
  | .bool true => exact ⟨_, run_literal "rue".toList (.bool true) stack (by decide), .refl _⟩
  | .bool false => exact ⟨_, run_literal "alse".toList (.bool false) stack (by decide), .refl _⟩
  | .int n => exact run_int n stack
  | .float lexeme => exact run_float hv stack
  | .str value =>
      have hopen : step ⟨.value, stack⟩ '"' = some ⟨.string .value [], stack⟩ := rfl
      refine ⟨_, run_quote hopen value, ?_⟩
      rw [closeString, String.ofList_toList]
      exact .refl _
  | .arr [] => exact ⟨_, rfl, .refl _⟩
  | .arr (item :: rest) =>
      refine ⟨_, ?_, .refl _⟩
      obtain ⟨hitem, hrest⟩ := hv
      obtain ⟨state, hrun, hends⟩ := run_text item hitem (.item [] :: stack)
      have hopen : step ⟨.value, stack⟩ '[' = some ⟨.firstItem, stack⟩ := rfl
      have htext : text (.arr (item :: rest)) = '[' :: (text item ++ (textItems rest ++ [']'])) := by
        simp [text, textItems]
      rw [htext, run_of_step hopen, firstItem_of_text item hitem, run_of_run hrun]
      exact run_items rest hrest state [item] stack hends
  | .obj members => exact ⟨_, run_object members hv stack, .refl _⟩

-- An object is closed by its own brace.
theorem run_object (members : List (String × Json)) (hv : Printable (.obj members))
    (stack : List Frame) :
    run ⟨.value, stack⟩ (text (.obj members)) = some (settle stack (.obj members)) := by
  obtain ⟨hkeys, hmembers⟩ := hv
  match members with
  | [] => rfl
  | (key, value) :: rest =>
      obtain ⟨hvalue, hrest⟩ := hmembers
      obtain ⟨state, hrun, hends⟩ := run_text value hvalue (.member [] key :: stack)
      have hopen : step ⟨.value, stack⟩ '{' = some ⟨.firstKey, stack⟩ := rfl
      have hkey : step ⟨.firstKey, stack⟩ '"' = some ⟨.string (.key []) [], stack⟩ := rfl
      have hcolon : step ⟨.colon [] key, stack⟩ ':' = some ⟨.value, .member [] key :: stack⟩ := rfl
      have htext : text (.obj ((key, value) :: rest)) =
          '{' :: (quote key ++ (':' :: (text value ++ (textMembers rest ++ ['}'])))) := by
        simp [text, textMembers]
      rw [htext, run_of_step hopen, run_of_run (run_quote hkey key), closeString,
        String.ofList_toList, run_of_step hcolon, run_of_run hrun]
      exact run_members rest hrest state [(key, value)] stack hkeys hends

theorem run_items (rest : List Json) (hrest : PrintableItems rest) (state : State)
    (items : List Json) (stack : List Frame) (hstate : Ends state ⟨.nextItem items, stack⟩) :
    run state (textItems rest ++ [']']) = some (settle stack (.arr (items ++ rest))) := by
  match rest with
  | [] =>
      have hclose : step state ']' = some (settle stack (.arr items)) := by
        rw [hstate.step_eq ']' (by simp)]
        rfl
      simp [textItems, run_cons, hclose]
  | item :: more =>
      obtain ⟨hitem, hmore⟩ := hrest
      obtain ⟨next, hrun, hends⟩ := run_text item hitem (.item items :: stack)
      have hcomma : step state ',' = some ⟨.value, .item items :: stack⟩ := by
        rw [hstate.step_eq ',' (by simp)]
        rfl
      have htext : textItems (item :: more) ++ [']'] =
          ',' :: (text item ++ (textItems more ++ [']'])) := by simp [textItems]
      rw [htext, run_of_step hcomma, run_of_run hrun,
        run_items more hmore next (items ++ [item]) stack hends]
      simp

theorem run_members (rest : List (String × Json)) (hrest : PrintableMembers rest) (state : State)
    (members : List (String × Json)) (stack : List Frame)
    (hkeys : ((members ++ rest).map Prod.fst).Nodup)
    (hstate : Ends state ⟨.nextMember members, stack⟩) :
    run state (textMembers rest ++ ['}']) = some (settle stack (.obj (members ++ rest))) := by
  match rest with
  | [] =>
      simp only [List.append_nil] at hkeys ⊢
      have hclose : step state '}' = some (settle stack (.obj members)) := by
        rw [hstate.step_eq '}' (by simp)]
        simp [step, afterValue, isBlank, Dict.entries_ofPairs members hkeys]
      simp [textMembers, run_cons, hclose]
  | (key, value) :: more =>
      obtain ⟨hvalue, hmore⟩ := hrest
      obtain ⟨next, hrun, hends⟩ := run_text value hvalue (.member members key :: stack)
      have hcomma : step state ',' = some ⟨.key members, stack⟩ := by
        rw [hstate.step_eq ',' (by simp)]
        rfl
      have hkey : step ⟨.key members, stack⟩ '"' = some ⟨.string (.key members) [], stack⟩ := rfl
      have hcolon : step ⟨.colon members key, stack⟩ ':' =
          some ⟨.value, .member members key :: stack⟩ := rfl
      have htext : textMembers ((key, value) :: more) ++ ['}'] =
          ',' :: (quote key ++ (':' :: (text value ++ (textMembers more ++ ['}'])))) := by
        simp [textMembers]
      have hnext : ((members ++ [(key, value)] ++ more).map Prod.fst).Nodup := by simpa using hkeys
      rw [htext, run_of_step hcomma, run_of_run (run_quote hkey key), closeString,
        String.ofList_toList, run_of_step hcolon, run_of_run hrun,
        run_members more hmore next (members ++ [(key, value)]) stack hnext hends]
      simp
end

theorem loads_text (value : Json) (hv : Printable value) : loads (text value) = some value := by
  obtain ⟨state, hrun, hends⟩ := run_text value hv []
  rw [loads, start, hrun, Option.bind_some, hends.finish_eq]
  rfl

theorem text_inj {first second : Json} (hfirst : Printable first) (hsecond : Printable second)
    (htext : text first = text second) : first = second := by
  have hloads := loads_text first hfirst
  rw [htext, loads_text second hsecond] at hloads
  exact (Option.some.inj hloads).symm

mutual
def decidePrintable : (value : Json) → Decidable (Printable value)
  | .null => .isTrue trivial
  | .bool _ => .isTrue trivial
  | .int _ => .isTrue trivial
  | .float lexeme => inferInstanceAs (Decidable (isFloat lexeme = true))
  | .str _ => .isTrue trivial
  | .arr items => decidePrintableItems items
  | .obj members => @instDecidableAnd _ _ inferInstance (decidePrintableMembers members)

def decidePrintableItems : (items : List Json) → Decidable (PrintableItems items)
  | [] => .isTrue trivial
  | item :: rest => @instDecidableAnd _ _ (decidePrintable item) (decidePrintableItems rest)

def decidePrintableMembers : (members : List (String × Json)) → Decidable (PrintableMembers members)
  | [] => .isTrue trivial
  | (_, value) :: rest => @instDecidableAnd _ _ (decidePrintable value) (decidePrintableMembers rest)
end

instance : DecidablePred Printable := decidePrintable

-- Sorting the keys leaves a value printable.

theorem printableMembers_iff (members : List (String × Json)) :
    PrintableMembers members ↔ ∀ member ∈ members, Printable member.2 := by
  induction members with
  | nil => simp [PrintableMembers]
  | cons member rest ih => simp [PrintableMembers, ih]

theorem keys_sortMembers (members : List (String × Json)) :
    (sortMembers members).map Prod.fst = members.map Prod.fst := by
  induction members with
  | nil => rfl
  | cons member rest ih => simp [sortMembers, ih]

mutual
theorem printable_sortKeys (value : Json) (hvalue : Printable value) : Printable (sortKeys value) := by
  match value with
  | .null => trivial
  | .bool _ => trivial
  | .int _ => trivial
  | .float _ => exact hvalue
  | .str _ => trivial
  | .arr items => exact printable_sortItems items hvalue
  | .obj members =>
    obtain ⟨hkeys, hmembers⟩ := hvalue
    have hperm := List.perm_insertionSort (fun first second : String × Json => first.1 ≤ second.1)
      (sortMembers members)
    refine ⟨(hperm.map Prod.fst).nodup_iff.mpr (by rw [keys_sortMembers]; exact hkeys), ?_⟩
    have hsorted := (printableMembers_iff _).mp (printable_sortMembers members hmembers)
    exact (printableMembers_iff _).mpr fun member hmember => hsorted member (hperm.mem_iff.mp hmember)

theorem printable_sortItems (items : List Json) (hitems : PrintableItems items) :
    PrintableItems (sortItems items) := by
  match items with
  | [] => trivial
  | item :: rest => exact ⟨printable_sortKeys item hitems.1, printable_sortItems rest hitems.2⟩

theorem printable_sortMembers (members : List (String × Json)) (hmembers : PrintableMembers members) :
    PrintableMembers (sortMembers members) := by
  match members with
  | [] => trivial
  | (_, value) :: rest =>
    exact ⟨printable_sortKeys value hmembers.1, printable_sortMembers rest hmembers.2⟩
end

theorem sortMembers_eq_map (members : List (String × Json)) :
    sortMembers members = members.map (fun member => (member.1, sortKeys member.2)) := by
  induction members with
  | nil => rfl
  | cons member rest ih => rw [sortMembers, ih, List.map_cons]

-- Sorted keys stay as they are.
mutual
theorem sortKeys_sortKeys (value : Json) : sortKeys (sortKeys value) = sortKeys value := by
  match value with
  | .null => rfl
  | .bool _ => rfl
  | .int _ => rfl
  | .float _ => rfl
  | .str _ => rfl
  | .arr items => exact congrArg Json.arr (sortItems_sortItems items)
  | .obj members =>
    have hkeys := List.map_insertionSort (fun first second : String × Json => first.1 ≤ second.1)
      (fun first second : String × Json => first.1 ≤ second.1)
      (fun member : String × Json => (member.1, sortKeys member.2)) (sortMembers members)
      (fun _ _ _ _ => Iff.rfl)
    simp only [sortKeys, obj.injEq]
    rw [sortMembers_eq_map (List.insertionSort _ _), hkeys, ← sortMembers_eq_map,
      sortMembers_sortMembers members]
    exact (List.pairwise_insertionSort _ _).insertionSort_eq

theorem sortItems_sortItems (items : List Json) : sortItems (sortItems items) = sortItems items := by
  match items with
  | [] => rfl
  | item :: rest => simp only [sortItems, sortKeys_sortKeys item, sortItems_sortItems rest]

theorem sortMembers_sortMembers (members : List (String × Json)) :
    sortMembers (sortMembers members) = sortMembers members := by
  match members with
  | [] => rfl
  | (_, value) :: rest =>
    simp only [sortMembers, sortKeys_sortKeys value, sortMembers_sortMembers rest]
end

-- What is written is read back but for the order of the keys.
theorem dumps_inj {first second : Json} (hfirst : Printable first) (hsecond : Printable second)
    (hdumps : dumps first = dumps second) : sortKeys first = sortKeys second :=
  text_inj (printable_sortKeys first hfirst) (printable_sortKeys second hsecond) hdumps

end KnowledgeCompiler.Lib.Json
