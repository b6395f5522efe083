import KnowledgeCompiler.Lib.Text

namespace KnowledgeCompiler.Lib.Text

-- `for line in file`, each line with its end and the line under way in front.
def linesFrom (line : List Char) : List Char → List (List Char)
  | [] => if line = [] then [] else [line]
  | c :: rest => if c = '\n' then (line ++ [c]) :: linesFrom [] rest else linesFrom (line ++ [c]) rest

def lines (text : List Char) : List (List Char) := linesFrom [] text

-- Nothing of a last line is left open.
def EndsLine (text : List Char) : Prop := text = [] ∨ text.getLast? = some '\n'

theorem linesFrom_inner (line rest begun : List Char) (hline : '\n' ∉ line) :
    linesFrom begun (line ++ rest) = linesFrom (begun ++ line) rest := by
  induction line generalizing begun with
  | nil => simp
  | cons c more ih =>
      obtain ⟨hc, hmore⟩ := not_or.mp (mt List.mem_cons.mpr hline)
      rw [List.cons_append, linesFrom, if_neg (Ne.symm hc), ih _ hmore]
      simp

theorem lines_single {line : List Char} (hline : '\n' ∉ line) :
    lines line = if line = [] then [] else [line] := by
  have h := linesFrom_inner line [] [] hline
  rw [List.append_nil, List.nil_append] at h
  rw [lines, h, linesFrom]

theorem lines_ended {line : List Char} (hline : '\n' ∉ line) (rest : List Char) :
    lines (line ++ '\n' :: rest) = (line ++ ['\n']) :: lines rest := by
  rw [lines, linesFrom_inner line _ [] hline, List.nil_append, linesFrom, if_pos rfl, lines]

theorem linesFrom_append {text : List Char} (hlast : text.getLast? = some '\n') (line more : List Char) :
    linesFrom line (text ++ more) = linesFrom line text ++ lines more := by
  induction text generalizing line with
  | nil => cases hlast
  | cons c rest ih =>
      rw [List.cons_append, linesFrom, linesFrom]
      by_cases hrest : rest = []
      · subst hrest
        obtain rfl : c = '\n' := Option.some.inj hlast
        simp [linesFrom, lines]
      · have hmore : rest.getLast? = some '\n' := by
          rwa [List.getLast?_cons_of_ne_nil hrest] at hlast
        split
        · rw [ih hmore, List.cons_append]
        · rw [ih hmore]

-- Behind an ended line the lines go on by themselves.
theorem lines_append {text : List Char} (htext : EndsLine text) (more : List Char) :
    lines (text ++ more) = lines text ++ lines more := by
  rcases htext with rfl | hlast
  · rfl
  · exact linesFrom_append hlast [] more

-- With universal newlines too an ended line is read by itself.
theorem exists_universalNewlines_line (line : List Char) :
    ∃ before, ∀ rest,
      universalNewlines (line ++ '\n' :: rest) = before ++ '\n' :: universalNewlines rest := by
  induction line using universalNewlines.induct with
  | case1 => exact ⟨[], fun rest => by simp [universalNewlines]⟩
  | case2 more ih =>
      obtain ⟨before, hbefore⟩ := ih
      exact ⟨'\n' :: before, fun rest => by simp [universalNewlines, hbefore]⟩
  | case3 more hmore ih =>
      obtain ⟨before, hbefore⟩ := ih
      cases more with
      | nil => exact ⟨[], fun rest => by simp [universalNewlines]⟩
      | cons c others =>
          have hc : c ≠ '\n' := fun h => hmore others (h ▸ rfl)
          refine ⟨'\n' :: before, fun rest => ?_⟩
          rw [List.cons_append, universalNewlines, hbefore]
          · rfl
          · intro other hother
            exact hc (List.cons.inj hother).1
  | case4 c more hbreak hreturn ih =>
      obtain ⟨before, hbefore⟩ := ih
      refine ⟨c :: before, fun rest => ?_⟩
      rw [List.cons_append, universalNewlines, hbefore]
      · rfl
      · intro other hc hother
        exact hreturn hc
      · exact hreturn

variable {α : Type*}

section Kept

-- Both splitters cut at the same places.
theorem splitlinesFrom_kept (begun text : List Char) (hbegun : ∀ c ∈ begun, isLineBreak c = false) :
    splitlinesFrom false begun.reverse text =
      (keptLines begun text).map (List.takeWhile fun c => !isLineBreak c) := by
  have htake (line after : List Char) (hline : ∀ c ∈ line, isLineBreak c = false) {c : Char}
      (hc : isLineBreak c = true) : (line ++ c :: after).takeWhile (fun c => !isLineBreak c) = line := by
    rw [List.takeWhile_append_of_pos fun d hd => by simp [hline d hd]]
    simp [hc]
  fun_induction keptLines begun text with
  | case1 => rfl
  | case2 line hne =>
    have hwhole : line.takeWhile (fun c => !isLineBreak c) = line :=
      List.takeWhile_eq_self_iff.mpr fun c hc => by simp [hbegun c hc]
    simp [splitlinesFrom, hne, hwhole]
  | case3 line rest ih =>
    have hrest := ih (fun c hc => absurd hc List.not_mem_nil)
    have hreturn : isLineBreak '\r' = true := by decide
    rw [splitlinesFrom, if_neg (by simp), if_pos hreturn, splitlinesFrom, if_pos (by simp),
      List.map_cons, htake line ['\n'] hbegun hreturn, ← hrest]
    simp
  | case4 line c rest hreturn hbreak ih =>
    have hrest := ih (fun c hc => absurd hc List.not_mem_nil)
    have hafter : splitlinesFrom (decide (c = '\r')) [] rest = splitlinesFrom false [] rest := by
      by_cases hc : c = '\r'
      · cases rest with
        | nil => simp [splitlinesFrom]
        | cons d more =>
          have hd : d ≠ '\n' := fun h => hreturn more hc (by rw [h])
          simp [splitlinesFrom, hc, hd]
      · simp [hc]
    rw [splitlinesFrom, if_neg (by simp), if_pos hbreak, List.map_cons, htake line [] hbegun hbreak,
      hafter, ← hrest]
    simp
  | case5 line c rest hreturn hbreak ih =>
    have hbreak : isLineBreak c = false := Bool.eq_false_iff.mpr hbreak
    have hline : ∀ d ∈ line ++ [c], isLineBreak d = false := by
      intro d hd
      rcases List.mem_append.mp hd with hd | hd
      · exact hbegun d hd
      · rwa [List.mem_singleton.mp hd]
    rw [splitlinesFrom, if_neg (by simp), if_neg (by simp [hbreak]), ← ih hline]
    simp

theorem splitlines_eq_kept (text : List Char) :
    splitlines text = (keptLines [] text).map (List.takeWhile fun c => !isLineBreak c) :=
  splitlinesFrom_kept [] text fun _ hc => absurd hc List.not_mem_nil

-- A line with its end holds one newline or none.
theorem count_kept_le (begun text : List Char) (hbegun : ∀ c ∈ begun, isLineBreak c = false) :
    ∀ line ∈ keptLines begun text, line.count '\n' ≤ 1 := by
  have hzero (line : List Char) (hline : ∀ c ∈ line, isLineBreak c = false) : line.count '\n' = 0 := by
    refine List.count_eq_zero.mpr fun hmem => ?_
    have hbreak : isLineBreak '\n' = true := by decide
    rw [hline '\n' hmem] at hbreak
    cases hbreak
  have hempty : ∀ c ∈ ([] : List Char), isLineBreak c = false := fun _ hc => absurd hc List.not_mem_nil
  fun_induction keptLines begun text with
  | case1 => exact fun _ hmem => absurd hmem List.not_mem_nil
  | case2 line hne =>
    intro other hother
    rw [List.mem_singleton.mp hother, hzero line hbegun]
    exact Nat.zero_le 1
  | case3 line rest ih =>
    intro other hother
    rcases List.mem_cons.mp hother with rfl | hother
    · rw [List.count_append, hzero line hbegun]
      decide
    · exact ih hempty other hother
  | case4 line c rest hreturn hbreak ih =>
    intro other hother
    rcases List.mem_cons.mp hother with rfl | hother
    · rw [List.count_append, hzero line hbegun, Nat.zero_add]
      exact List.count_le_length
    · exact ih hempty other hother
  | case5 line c rest hreturn hbreak ih =>
    refine ih fun d hd => ?_
    rcases List.mem_append.mp hd with hd | hd
    · exact hbegun d hd
    · rw [List.mem_singleton.mp hd]
      exact Bool.eq_false_iff.mpr hbreak

theorem count_flatten_add_countP {c : Char} {parts : List (List Char)}
    (hparts : ∀ part ∈ parts, part.count c ≤ 1) :
    parts.flatten.count c + parts.countP (fun part => c ∉ part) = parts.length := by
  induction parts with
  | nil => rfl
  | cons part rest ih =>
    have hrest := ih fun other hother => hparts other (List.mem_cons_of_mem _ hother)
    have hpart := hparts part List.mem_cons_self
    rw [List.flatten_cons, List.count_append, List.countP_cons, List.length_cons]
    by_cases hmem : c ∈ part
    · have hone : part.count c = 1 := Nat.le_antisymm hpart (List.count_pos_iff.mpr hmem)
      simp only [hmem, not_true, decide_false, Bool.false_eq_true, if_false]
      omega
    · have hzero : part.count c = 0 := List.count_eq_zero.mpr hmem
      simp only [hmem, not_false_eq_true, decide_true, if_true]
      omega

-- A piece that holds no separator is part of the line it begins in.
theorem infix_splitOn {c : Char} (before piece after : List Char) (hpiece : c ∉ piece) :
    ∃ line, ((before ++ piece ++ after).splitOn c)[before.count c]? = some line ∧ piece <:+: line := by
  induction before with
  | nil =>
    obtain ⟨first, rest, hsplit⟩ := List.exists_cons_of_ne_nil (List.splitOn_ne_nil c after)
    have hpieces : (piece ++ after).splitOn c = (piece ++ first) :: rest := by
      induction piece with
      | nil => exact hsplit
      | cons d more ih =>
        obtain ⟨hd, hmore⟩ := not_or.mp (mt List.mem_cons.mpr hpiece)
        have hne : (d == c) = false := beq_eq_false_iff_ne.mpr (Ne.symm hd)
        rw [List.cons_append, List.splitOn_cons_eq_if_modifyHead, ih hmore, hne]
        rfl
    refine ⟨piece ++ first, ?_, (List.prefix_append _ _).isInfix⟩
    rw [List.nil_append, hpieces]
    rfl
  | cons d more ih =>
    obtain ⟨line, hline, hinfix⟩ := ih
    rw [List.cons_append, List.cons_append, List.splitOn_cons_eq_if_modifyHead]
    by_cases heq : d = c
    · refine ⟨line, ?_, hinfix⟩
      rw [heq, beq_self_eq_true, if_pos rfl, List.count_cons_self]
      exact hline
    · have hne : (d == c) = false := beq_eq_false_iff_ne.mpr heq
      rw [hne, List.count_cons_of_ne heq]
      cases hcount : more.count c with
      | zero =>
        rw [hcount] at hline
        refine ⟨d :: line, ?_, hinfix.trans (List.suffix_cons _ _).isInfix⟩
        obtain ⟨first, rest, hsplit⟩ := List.exists_cons_of_ne_nil
          (List.splitOn_ne_nil c (more ++ piece ++ after))
        rw [hsplit] at hline ⊢
        obtain rfl : first = line := Option.some.inj hline
        rfl
      | succ count =>
        rw [hcount] at hline
        refine ⟨line, ?_, hinfix⟩
        obtain ⟨first, rest, hsplit⟩ := List.exists_cons_of_ne_nil
          (List.splitOn_ne_nil c (more ++ piece ++ after))
        rw [hsplit] at hline ⊢
        exact hline

theorem infix_of_strip (text : List Char) : strip text <:+: text := by
  obtain ⟨lost, hlost⟩ := exists_rstrip (lstrip text)
  have hprefix : strip text <+: lstrip text := ⟨lost, hlost.symm⟩
  exact hprefix.isInfix.trans (List.dropWhile_suffix _).isInfix

theorem infix_of_rstrip (text : List Char) : rstrip text <:+: text := by
  obtain ⟨lost, hlost⟩ := exists_rstrip text
  exact List.IsPrefix.isInfix ⟨lost, hlost.symm⟩

end Kept

end KnowledgeCompiler.Lib.Text
