import KnowledgeCompiler.Lib.Json.RoundTrip

namespace KnowledgeCompiler.Lib.Json

def hex4 (code : Nat) : List Char :=
  [Nat.digitChar (code / 4096 % 16), Nat.digitChar (code / 256 % 16),
    Nat.digitChar (code / 16 % 16), Nat.digitChar (code % 16)]

def unicodeEscape (code : Nat) : List Char := '\\' :: 'u' :: hex4 code

-- What `ensure_ascii` makes of a character; the controls have been escaped before.
def asciiEscape (c : Char) : List Char :=
  if c.toNat < 0x7f then [c]
  else if c.toNat < 0x10000 then unicodeEscape c.toNat
  else
    unicodeEscape (0xd800 + (c.toNat - 0x10000) / 0x400) ++
      unicodeEscape (0xdc00 + (c.toNat - 0x10000) % 0x400)

-- `json.dumps(value, sort_keys=True, separators=(",", ":"))`
def dumpsAscii (value : Json) : List Char := (dumps value).flatMap asciiEscape

theorem run_hex4 (role : Role) (taken : List Char) (high : Option Nat) (stack : List Frame)
    {code : Nat} (hcode : code < 0x10000) :
    run ⟨.unicode role taken high [], stack⟩ (hex4 code) =
      some ⟨closeUnicode role taken high code, stack⟩ := by
  have h1 := hexValue_digitChar (code / 4096 % 16) (Nat.mod_lt _ (by decide))
  have h2 := hexValue_digitChar (code / 256 % 16) (Nat.mod_lt _ (by decide))
  have h3 := hexValue_digitChar (code / 16 % 16) (Nat.mod_lt _ (by decide))
  have h4 := hexValue_digitChar (code % 16) (Nat.mod_lt _ (by decide))
  have hnumber : hexNumber [Nat.digitChar (code / 4096 % 16), Nat.digitChar (code / 256 % 16),
      Nat.digitChar (code / 16 % 16), Nat.digitChar (code % 16)] = code := by
    simp only [hexNumber, List.foldl_cons, List.foldl_nil, h1, h2, h3, h4, Option.getD_some]
    omega
  simp [hex4, run_cons, step, stepUnicode, h1, h2, h3, h4, hnumber]

theorem run_unicodeEscape (role : Role) (taken : List Char) (stack : List Frame) {code : Nat}
    (hcode : code < 0x10000) :
    run ⟨.string role taken, stack⟩ (unicodeEscape code) =
      some ⟨closeSingle role taken code, stack⟩ := by
  have hescape : step ⟨.string role taken, stack⟩ '\\' = some ⟨.escape role taken, stack⟩ := by
    simp [step, stepString]
  have hunicode : step ⟨.escape role taken, stack⟩ 'u' =
      some ⟨.unicode role taken none [], stack⟩ := by
    simp [step, stepEscape]
  rw [unicodeEscape, run_of_step hescape, run_of_step hunicode, run_hex4 role taken none stack hcode,
    closeUnicode]

theorem run_highRead (role : Role) (taken : List Char) (stack : List Frame) (high : Nat) {code : Nat}
    (hcode : code < 0x10000) :
    run ⟨.highRead role taken high, stack⟩ (unicodeEscape code) =
      some ⟨closeUnicode role taken (some high) code, stack⟩ := by
  have hescape : step ⟨.highRead role taken high, stack⟩ '\\' =
      some ⟨.highEscape role taken high, stack⟩ := by simp [step]
  have hunicode : step ⟨.highEscape role taken high, stack⟩ 'u' =
      some ⟨.unicode role taken (some high) [], stack⟩ := by simp [step]
  rw [unicodeEscape, run_of_step hescape, run_of_step hunicode,
    run_hex4 role taken (some high) stack hcode]

-- A character outside ASCII is read back from its escape, or from its two surrogates.
theorem run_asciiEscape (role : Role) (taken : List Char) (stack : List Frame) (c : Char)
    (hc : 0x7f ≤ c.toNat) :
    run ⟨.string role taken, stack⟩ (asciiEscape c) = some ⟨.string role (taken ++ [c]), stack⟩ := by
  have hvalid : c.toNat < 0xd800 ∨ 0xdfff < c.toNat ∧ c.toNat < 0x110000 := c.valid
  rw [asciiEscape, if_neg (by omega)]
  split
  · rename_i hsmall
    rw [run_unicodeEscape role taken stack hsmall, closeSingle_toNat]
  · rename_i hlarge
    let high := 0xd800 + (c.toNat - 0x10000) / 0x400
    let low := 0xdc00 + (c.toNat - 0x10000) % 0x400
    have hhigh : 0xd800 ≤ high ∧ high ≤ 0xdbff := by simp only [high]; omega
    have hlow : 0xdc00 ≤ low ∧ low ≤ 0xdfff := by simp only [low]; omega
    have hcombined : 0x10000 + (high - 0xd800) * 0x400 + (low - 0xdc00) = c.toNat := by
      simp only [high, low]
      omega
    have hfirst : run ⟨.string role taken, stack⟩ (unicodeEscape high) =
        some ⟨.highRead role taken high, stack⟩ := by
      rw [run_unicodeEscape role taken stack (by omega), closeSingle, if_pos hhigh]
    have hsecond : run ⟨.highRead role taken high, stack⟩ (unicodeEscape low) =
        some ⟨.string role (taken ++ [c]), stack⟩ := by
      rw [run_highRead role taken stack high (by omega), closeUnicode]
      simp only [if_pos hlow, hcombined, Char.ofNat_toNat]
    rw [run_of_run hfirst]
    exact hsecond

-- An escape behind a surrogate without its partner is read as if that were any character.
theorem run_asciiEscape_highRead (role : Role) (taken : List Char) (stack : List Frame) (high : Nat)
    (c : Char) (hc : 0x7f ≤ c.toNat) :
    run ⟨.highRead role taken high, stack⟩ (asciiEscape c) =
      some ⟨.string role (taken ++ [lone high] ++ [c]), stack⟩ := by
  have hvalid : c.toNat < 0xd800 ∨ 0xdfff < c.toNat ∧ c.toNat < 0x110000 := c.valid
  obtain ⟨code, rest, hescape, hcode, hlow⟩ : ∃ code rest, asciiEscape c = unicodeEscape code ++ rest ∧
      code < 0x10000 ∧ ¬(0xdc00 ≤ code ∧ code ≤ 0xdfff) := by
    rw [asciiEscape, if_neg (by omega)]
    split
    · exact ⟨c.toNat, [], (List.append_nil _).symm, by omega, by omega⟩
    · exact ⟨_, _, rfl, by omega, by omega⟩
  rw [← run_asciiEscape role (taken ++ [lone high]) stack c hc, hescape, run_append, run_append,
    run_highRead role taken stack high hcode, run_unicodeEscape role _ stack hcode, closeUnicode,
    if_neg hlow]

-- The literals under way are ASCII.
def plainMode : Mode → Bool
  | .literal rest _ => rest.all (fun c => c.toNat < 0x7f)
  | _ => true

def Plain (state : State) : Prop := plainMode state.mode = true

section Wide

variable {c : Char} (hc : 0x7f ≤ c.toNat)

include hc

theorem ne_of_wide {d : Char} (hd : d.toNat < 0x7f) : c ≠ d := by
  rintro rfl
  omega

theorem isDigit_of_wide : c.isDigit = false := by
  rw [Bool.eq_false_iff]
  intro h
  have hrange : c.toNat ≤ 57 := by
    simp only [Char.isDigit, Bool.and_eq_true, decide_eq_true_eq] at h
    exact h.2
  omega

theorem isBlank_of_wide : isBlank c = false := by
  simp [isBlank, ne_of_wide hc (d := ' ') (by decide), ne_of_wide hc (d := '\t') (by decide),
    ne_of_wide hc (d := '\n') (by decide), ne_of_wide hc (d := '\r') (by decide)]

theorem isNumberChar_of_wide : isNumberChar c = false := by
  simp [isNumberChar, isDigit_of_wide hc, ne_of_wide hc (d := '-') (by decide),
    ne_of_wide hc (d := '+') (by decide), ne_of_wide hc (d := '.') (by decide),
    ne_of_wide hc (d := 'e') (by decide), ne_of_wide hc (d := 'E') (by decide)]

theorem hexValue_of_wide : hexValue c = none := by
  have hlower : ¬c ≤ 'f' := by
    intro h
    have hrange : c.toNat ≤ 102 := h
    omega
  have hupper : ¬c ≤ 'F' := by
    intro h
    have hrange : c.toNat ≤ 70 := h
    omega
  simp [hexValue, isDigit_of_wide hc, hlower, hupper]

theorem startValue_of_wide (stack : List Frame) : startValue stack c = none := by
  simp [startValue, isDigit_of_wide hc, ne_of_wide hc (d := '{') (by decide),
    ne_of_wide hc (d := '[') (by decide), ne_of_wide hc (d := '"') (by decide),
    ne_of_wide hc (d := '-') (by decide), ne_of_wide hc (d := 't') (by decide),
    ne_of_wide hc (d := 'f') (by decide), ne_of_wide hc (d := 'n') (by decide),
    ne_of_wide hc (d := 'N') (by decide), ne_of_wide hc (d := 'I') (by decide)]

theorem afterValue_of_wide (state : State) : afterValue state c = none := by
  unfold afterValue
  rw [isBlank_of_wide hc]
  cases state.mode <;>
    simp [ne_of_wide hc (d := ',') (by decide), ne_of_wide hc (d := ']') (by decide),
      ne_of_wide hc (d := '}') (by decide)]

theorem simpleEscape_of_wide : simpleEscape c = none := by
  simp [simpleEscape, ne_of_wide hc (d := '"') (by decide), ne_of_wide hc (d := '\\') (by decide),
    ne_of_wide hc (d := '/') (by decide), ne_of_wide hc (d := 'n') (by decide),
    ne_of_wide hc (d := 'r') (by decide), ne_of_wide hc (d := 't') (by decide),
    ne_of_wide hc (d := 'f') (by decide), ne_of_wide hc (d := 'b') (by decide)]

theorem stepString_of_wide (role : Role) (taken : List Char) (stack : List Frame) :
    stepString role taken stack c = some ⟨.string role (taken ++ [c]), stack⟩ := by
  have hcontrol : ¬c.toNat < 0x20 := by omega
  rw [stepString, if_neg (ne_of_wide hc (by decide)), if_neg (ne_of_wide hc (by decide)), if_neg hcontrol]

theorem stepEscape_of_wide (role : Role) (taken : List Char) (stack : List Frame) :
    stepEscape role taken stack c = none := by
  rw [stepEscape, if_neg (ne_of_wide hc (by decide)), simpleEscape_of_wide hc]
  rfl

-- Outside a string such a character is refused; inside it is taken as it is.
theorem step_of_wide {state next : State} (hplain : Plain state) (hstep : step state c = some next) :
    ∃ role taken stack,
      (state = ⟨.string role taken, stack⟩ ∧ next = ⟨.string role (taken ++ [c]), stack⟩) ∨
      ∃ high, state = ⟨.highRead role taken high, stack⟩ ∧
        next = ⟨.string role (taken ++ [lone high] ++ [c]), stack⟩ := by
  obtain ⟨mode, stack⟩ := state
  cases mode with
  | value => simp [step, isBlank_of_wide hc, startValue_of_wide hc] at hstep
  | firstItem =>
      simp [step, isBlank_of_wide hc, startValue_of_wide hc, ne_of_wide hc (d := ']') (by decide)]
        at hstep
  | nextItem items => simp [step, afterValue_of_wide hc] at hstep
  | firstKey =>
      simp [step, isBlank_of_wide hc, ne_of_wide hc (d := '}') (by decide),
        ne_of_wide hc (d := '"') (by decide)] at hstep
  | key members =>
      simp [step, isBlank_of_wide hc, ne_of_wide hc (d := '"') (by decide)] at hstep
  | colon members key =>
      simp [step, isBlank_of_wide hc, ne_of_wide hc (d := ':') (by decide)] at hstep
  | nextMember members => simp [step, afterValue_of_wide hc] at hstep
  | string role taken =>
      rw [step_string, stepString_of_wide hc] at hstep
      exact ⟨role, taken, stack, .inl ⟨rfl, (Option.some.inj hstep).symm⟩⟩
  | escape role taken =>
      rw [step_escape, stepEscape_of_wide hc] at hstep
      cases hstep
  | unicode role taken high digits => simp [step, stepUnicode, hexValue_of_wide hc] at hstep
  | highRead role taken high =>
      rw [step_highRead, if_neg (ne_of_wide hc (by decide)), stepString_of_wide hc] at hstep
      exact ⟨role, taken, stack, .inr ⟨high, rfl, (Option.some.inj hstep).symm⟩⟩
  | highEscape role taken high =>
      rw [step_highEscape, if_neg (ne_of_wide hc (by decide)), stepEscape_of_wide hc] at hstep
      cases hstep
  | number lexeme =>
      simp [step, isNumberChar_of_wide hc, ne_of_wide hc (d := 'I') (by decide),
        afterValue_of_wide hc] at hstep
  | literal rest value =>
      cases rest with
      | nil => simp [step] at hstep
      | cons expected more =>
          have hne : c ≠ expected :=
            ne_of_wide hc (by simpa using List.all_eq_true.mp hplain expected List.mem_cons_self)
          simp [step, hne] at hstep
  | done value => simp [step, afterValue_of_wide hc] at hstep

end Wide

theorem plain_settle (stack : List Frame) (value : Json) : Plain (settle stack value) := by
  unfold settle
  split <;> rfl

theorem plain_startValue {stack : List Frame} {c : Char} {next : State}
    (hstart : startValue stack c = some next) : Plain next := by
  unfold startValue at hstart
  repeat' split at hstart
  all_goals cases hstart <;> rfl

theorem plain_afterValue {state next : State} {c : Char} (hplain : Plain state)
    (hafter : afterValue state c = some next) : Plain next := by
  unfold afterValue at hafter
  split at hafter
  · exact Option.some.inj hafter ▸ hplain
  · split at hafter
    · split at hafter
      · cases hafter
        rfl
      · split at hafter
        · exact Option.some.inj hafter ▸ plain_settle _ _
        · cases hafter
    · split at hafter
      · cases hafter
        rfl
      · split at hafter
        · exact Option.some.inj hafter ▸ plain_settle _ _
        · cases hafter
    · cases hafter

theorem plain_stepString {role : Role} {taken : List Char} {stack : List Frame} {c : Char} {next : State}
    (hstep : stepString role taken stack c = some next) : Plain next := by
  unfold stepString at hstep
  split at hstep
  · obtain rfl := Option.some.inj hstep
    cases role with
    | value => exact plain_settle _ _
    | key members => rfl
  · split at hstep
    · cases hstep
      rfl
    · split at hstep <;> cases hstep
      rfl

theorem plain_stepEscape {role : Role} {taken : List Char} {stack : List Frame} {c : Char} {next : State}
    (hstep : stepEscape role taken stack c = some next) : Plain next := by
  unfold stepEscape at hstep
  split at hstep
  · cases hstep
    rfl
  · obtain ⟨found, -, rfl⟩ := Option.map_eq_some_iff.mp hstep
    rfl

theorem plain_stepUnicode {role : Role} {taken digits : List Char} {high : Option Nat} {c : Char}
    {mode : Mode} (hstep : stepUnicode role taken high digits c = some mode) :
    plainMode mode = true := by
  unfold stepUnicode closeUnicode closeSingle at hstep
  repeat' split at hstep
  all_goals cases hstep <;> rfl

theorem Plain.step {state next : State} {c : Char} (hplain : Plain state)
    (hstep : step state c = some next) : Plain next := by
  obtain ⟨mode, stack⟩ := state
  cases mode with
  | value =>
      simp only [Json.step] at hstep
      split at hstep
      · exact Option.some.inj hstep ▸ hplain
      · exact plain_startValue hstep
  | firstItem =>
      simp only [Json.step] at hstep
      split at hstep
      · exact Option.some.inj hstep ▸ hplain
      · split at hstep
        · exact Option.some.inj hstep ▸ plain_settle _ _
        · exact plain_startValue hstep
  | nextItem items => exact plain_afterValue hplain hstep
  | firstKey =>
      simp only [Json.step] at hstep
      split at hstep
      · exact Option.some.inj hstep ▸ hplain
      · split at hstep
        · exact Option.some.inj hstep ▸ plain_settle _ _
        · split at hstep <;> cases hstep
          rfl
  | key members =>
      simp only [Json.step] at hstep
      split at hstep
      · exact Option.some.inj hstep ▸ hplain
      · split at hstep <;> cases hstep
        rfl
  | colon members key =>
      simp only [Json.step] at hstep
      split at hstep
      · exact Option.some.inj hstep ▸ hplain
      · split at hstep <;> cases hstep
        rfl
  | nextMember members => exact plain_afterValue hplain hstep
  | string role taken => exact plain_stepString hstep
  | escape role taken => exact plain_stepEscape hstep
  | unicode role taken high digits =>
      obtain ⟨mode, hmode, rfl⟩ := Option.map_eq_some_iff.mp hstep
      exact plain_stepUnicode hmode
  | highRead role taken high =>
      rw [step_highRead] at hstep
      split at hstep
      · cases hstep
        rfl
      · exact plain_stepString hstep
  | highEscape role taken high =>
      rw [step_highEscape] at hstep
      split at hstep
      · cases hstep
        rfl
      · exact plain_stepEscape hstep
  | number lexeme =>
      simp only [Json.step] at hstep
      split at hstep
      · cases hstep
        rfl
      · split at hstep
        · cases hstep
          rfl
        · obtain ⟨value, -, hafter⟩ := Option.bind_eq_some_iff.mp hstep
          exact plain_afterValue (plain_settle _ _) hafter
  | literal rest value =>
      cases rest with
      | nil => cases hstep
      | cons expected more =>
          simp only [Json.step] at hstep
          split at hstep
          · cases hstep
          · split at hstep
            · exact Option.some.inj hstep ▸ plain_settle _ _
            · cases hstep
              exact List.all_eq_true.mpr (fun d hd =>
                List.all_eq_true.mp hplain d (List.mem_cons_of_mem _ hd))
  | done value => exact plain_afterValue hplain hstep

-- Escaping to ASCII changes nothing for the reader.
theorem run_ascii (text : List Char) {state final : State} (hplain : Plain state)
    (hrun : run state text = some final) : run state (text.flatMap asciiEscape) = some final := by
  induction text generalizing state with
  | nil => exact hrun
  | cons c rest ih =>
      rw [run_cons] at hrun
      obtain ⟨next, hstep, hrest⟩ := Option.bind_eq_some_iff.mp hrun
      rw [List.flatMap_cons]
      by_cases hc : c.toNat < 0x7f
      · rw [asciiEscape, if_pos hc, List.singleton_append, run_of_step hstep]
        exact ih (hplain.step hstep) hrest
      · obtain ⟨role, taken, stack, ⟨rfl, rfl⟩ | ⟨high, rfl, rfl⟩⟩ := step_of_wide (by omega) hplain hstep
        · rw [run_of_run (run_asciiEscape role taken stack c (by omega))]
          exact ih rfl hrest
        · rw [run_of_run (run_asciiEscape_highRead role taken stack high c (by omega))]
          exact ih rfl hrest

theorem loads_dumpsAscii (value : Json) (hv : Printable value) :
    loads (dumpsAscii value) = some (sortKeys value) := by
  have hloads := loads_text (sortKeys value) (printable_sortKeys value hv)
  obtain ⟨final, hrun, hfinish⟩ := Option.bind_eq_some_iff.mp hloads
  have hplain : Plain start := rfl
  rw [loads, dumpsAscii, dumps, run_ascii _ hplain hrun]
  exact hfinish

theorem digitChar_ascii {n : Nat} (hn : n < 16) : (Nat.digitChar n).toNat < 0x7f := by
  have h : ∀ n < 16, (Nat.digitChar n).toNat < 0x7f := by decide
  exact h n hn

theorem dumpsAscii_ascii {value : Json} {c : Char} (hc : c ∈ dumpsAscii value) :
    c.toNat < 0x7f := by
  have hescape : ∀ code, ∀ d ∈ unicodeEscape code, d.toNat < 0x7f := by
    intro code d hd
    simp only [unicodeEscape, hex4, List.mem_cons, List.not_mem_nil, or_false] at hd
    rcases hd with rfl | rfl | rfl | rfl | rfl | rfl
    · decide
    · decide
    all_goals exact digitChar_ascii (Nat.mod_lt _ (by decide))
  obtain ⟨d, -, hd⟩ := List.mem_flatMap.mp hc
  unfold asciiEscape at hd
  split at hd
  · rename_i hsmall
    exact List.mem_singleton.mp hd ▸ hsmall
  · split at hd
    · exact hescape _ c hd
    · exact (List.mem_append.mp hd).elim (hescape _ c) (hescape _ c)

end KnowledgeCompiler.Lib.Json
