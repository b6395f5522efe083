import KnowledgeCompiler.Lib.Dict
import KnowledgeCompiler.Lib.Ranked
import KnowledgeCompiler.Lib.Sha256
import KnowledgeCompiler.Lib.Utf8
import KnowledgeCompiler.Lib.Wrapper
import Mathlib.Data.Prod.Lex

namespace KnowledgeCompiler.Trust

open Lib

inductive SourceThreatKind
  | IMPERATIVE_OVERRIDE
  | SYSTEM_PROMPT_MIMICRY
  | TOOL_CALL_INDUCED
  | DELIMITER_NEUTRALIZED
deriving DecidableEq

def SourceThreatKind.value : SourceThreatKind → String
  | IMPERATIVE_OVERRIDE => "IMPERATIVE_OVERRIDE"
  | SYSTEM_PROMPT_MIMICRY => "SYSTEM_PROMPT_MIMICRY"
  | TOOL_CALL_INDUCED => "TOOL_CALL_INDUCED"
  | DELIMITER_NEUTRALIZED => "DELIMITER_NEUTRALIZED"

-- The reserved delimiters, with the label of a passage between them.
def fences : Wrapper Char SourceThreatKind where
  opening := '⟦'
  closing := '⟧'
  label kind ends := (if ends then ['/'] else []) ++ "UNTRUSTED:".toList ++ kind.value.toList
  apart := by decide
  label_clear := by
    rintro (_ | _ | _ | _) (_ | _) <;> decide

structure InjectionFinding where
  kind : SourceThreatKind
  matched_text : List Char
  start : ℕ
  stop : ℕ
deriving DecidableEq

structure SanitizedContent where
  original_text : List Char
  original_sha256 : String
  sanitized_text : List Char
  findings : List InjectionFinding
deriving DecidableEq

-- `text[start:stop]`
def slice (text : List Char) (start stop : ℕ) : List Char := (text.drop start).take (stop - start)

-- A pattern with the spans that `finditer` finds of it.
structure ThreatPattern where
  kind : SourceThreatKind
  finditer : List Char → List (ℕ × ℕ)
  within : ∀ text, ∀ span ∈ finditer text, span.1 ≤ span.2 ∧ span.2 ≤ text.length

def isFence (c : Char) : Bool := c = fences.opening || c = fences.closing

def demoted (c : Char) : Char :=
  if c = fences.opening then '(' else if c = fences.closing then ')' else c

def _neutralize_fences (text : List Char) : List Char × List InjectionFinding :=
  (text.map demoted, text.zipIdx.filterMap fun entry =>
    if isFence entry.1 then
      some { kind := .DELIMITER_NEUTRALIZED, matched_text := [entry.1], start := entry.2, stop := entry.2 + 1 }
    else none)

-- A finding that begins before the last accepted one has ended is dropped.
def accept (accepted : List InjectionFinding) (finding : InjectionFinding) : List InjectionFinding :=
  if accepted.getLast?.any fun last => finding.start < last.stop then accepted
  else accepted ++ [finding]

def found (patterns : List ThreatPattern) (text : List Char) : List InjectionFinding :=
  patterns.flatMap fun pattern => (pattern.finditer text).map fun span =>
    { kind := pattern.kind, matched_text := slice text span.1 span.2, start := span.1, stop := span.2 }

def _detect_threats (patterns : List ThreatPattern) (text : List Char) : List InjectionFinding :=
  let sorted := Ranked.rank
    (fun finding => (toLex (finding.start, -((finding.stop : ℤ) - finding.start)) : ℕ ×ₗ ℤ))
    (found patterns text)
  sorted.foldl accept []

def isBreak (c : Char) : Bool := c = '.' || c = '!' || c = '?' || c = '\n'

def _passage_span (text : List Char) (start stop : ℕ) : ℕ × ℕ :=
  let back := (text.take start).reverse.takeWhile fun c => !isBreak c
  let ahead := (text.drop stop).takeWhile fun c => !isBreak c
  let finish := stop + ahead.length
  -- The terminator stays within the passage, a line break does not.
  (start - back.length, if (text[finish]?).any (· ≠ '\n') then finish + 1 else finish)

structure Passage where
  start : ℕ
  stop : ℕ
  members : List InjectionFinding
deriving DecidableEq

-- The last passage comes first.
def join_passage (text : List Char) (passages : List Passage) (finding : InjectionFinding) : List Passage :=
  let span := _passage_span text finding.start finding.stop
  match passages with
  | last :: before =>
      if span.1 < last.stop then
        { start := last.start, stop := max last.stop span.2, members := last.members ++ [finding] } :: before
      else { start := span.1, stop := span.2, members := [finding] } :: passages
  | [] => [{ start := span.1, stop := span.2, members := [finding] }]

def _group_by_passage (findings : List InjectionFinding) (text : List Char) : List Passage :=
  (findings.foldl (join_passage text) []).reverse

def kinds (passage : Passage) : List SourceThreatKind := fromkeys (passage.members.map (·.kind))

def splice (text : List Char) (cursor : ℕ) : List Passage → List Char
  | [] => text.drop cursor
  | passage :: rest =>
      slice text cursor passage.start ++ fences.opened (kinds passage) ++
        slice text passage.start passage.stop ++ fences.closed (kinds passage) ++
          splice text passage.stop rest

def sanitize_source_content (patterns : List ThreatPattern) (text : List Char) : SanitizedContent :=
  let neutralized := (_neutralize_fences text).1
  let fence_findings := (_neutralize_fences text).2
  let threats := _detect_threats patterns neutralized
  { original_text := text
    original_sha256 := Sha256.hexdigest (Utf8.encode text)
    sanitized_text := splice neutralized 0 (_group_by_passage threats neutralized)
    findings := Ranked.rank (·.start) (fence_findings ++ threats) }

section Neutral

theorem demoted_ne (c : Char) : demoted c ≠ fences.opening ∧ demoted c ≠ fences.closing := by
  unfold demoted
  split
  · decide
  split
  · decide
  · exact ⟨by assumption, by assumption⟩

theorem clear_neutralized (text : List Char) : fences.Clear (_neutralize_fences text).1 := by
  have hmem {mark : Char} (hmark : ∀ c, demoted c ≠ mark) : mark ∉ text.map demoted := by
    simp only [List.mem_map, not_exists, not_and]
    exact fun c _ => hmark c
  exact ⟨hmem fun c => (demoted_ne c).1, hmem fun c => (demoted_ne c).2⟩

end Neutral

section Detection

def Within (text : List Char) (finding : InjectionFinding) : Prop :=
  finding.start ≤ finding.stop ∧ finding.stop ≤ text.length

def Apart (findings : List InjectionFinding) : Prop :=
  findings.Pairwise fun first second => first.stop ≤ second.start

theorem within_found {patterns : List ThreatPattern} {text : List Char} {finding : InjectionFinding}
    (hfinding : finding ∈ found patterns text) : Within text finding := by
  simp only [found, List.mem_flatMap, List.mem_map] at hfinding
  obtain ⟨pattern, _, span, hspan, rfl⟩ := hfinding
  exact pattern.within text span hspan

theorem apart_accept {text : List Char} {accepted : List InjectionFinding} (hapart : Apart accepted)
    (haccepted : ∀ finding ∈ accepted, Within text finding) (finding : InjectionFinding) :
    Apart (accept accepted finding) := by
  unfold accept
  split
  · exact hapart
  · rename_i hlate
    refine List.pairwise_append.mpr ⟨hapart, List.pairwise_singleton .., ?_⟩
    intro first hfirst second hsecond
    cases List.mem_singleton.mp hsecond
    obtain ⟨before, last, rfl⟩ := List.eq_nil_or_concat' accepted |>.resolve_left (List.ne_nil_of_mem hfirst)
    have hlast : last.stop ≤ finding.start := by simpa using hlate
    rcases List.mem_append.mp hfirst with hbefore | hsame
    · have horder := (List.pairwise_append.mp hapart).2.2 first hbefore last (List.mem_singleton_self _)
      have hwithin := (haccepted last (by simp)).1
      omega
    · cases List.mem_singleton.mp hsame
      exact hlast

theorem accepted_spec {text : List Char} (findings : List InjectionFinding)
    (hfindings : ∀ finding ∈ findings, Within text finding) {accepted : List InjectionFinding}
    (hapart : Apart accepted) (haccepted : ∀ finding ∈ accepted, Within text finding) :
    Apart (findings.foldl accept accepted) ∧
      ∀ finding ∈ findings.foldl accept accepted, Within text finding := by
  induction findings generalizing accepted with
  | nil => exact ⟨hapart, haccepted⟩
  | cons finding findings ih =>
      obtain ⟨hfinding, hrest⟩ := List.forall_mem_cons.mp hfindings
      refine ih hrest (apart_accept hapart haccepted finding) ?_
      unfold accept
      split
      · exact haccepted
      · exact List.forall_mem_append.mpr ⟨haccepted, by simpa using hfinding⟩

theorem threats_spec (patterns : List ThreatPattern) (text : List Char) :
    Apart (_detect_threats patterns text) ∧
      ∀ finding ∈ _detect_threats patterns text, Within text finding := by
  refine accepted_spec _ (fun finding hfinding => ?_) List.Pairwise.nil (by simp)
  exact within_found ((Ranked.rank_perm _ _).mem_iff.mp hfinding)

end Detection

section Grouping

variable {text : List Char}

theorem passage_span_spec {finding : InjectionFinding} (hwithin : Within text finding) :
    (_passage_span text finding.start finding.stop).1 ≤ finding.start ∧
      finding.stop ≤ (_passage_span text finding.start finding.stop).2 ∧
      (_passage_span text finding.start finding.stop).2 ≤ text.length := by
  obtain ⟨_, hstop⟩ := hwithin
  have hahead := (List.takeWhile_prefix (l := text.drop finding.stop) fun c => !isBreak c).length_le
  rw [List.length_drop] at hahead
  unfold _passage_span
  dsimp only
  split
  · rename_i hbreak
    obtain ⟨c, hc, _⟩ := (Option.any_eq_true ..).mp hbreak
    have hlt := (List.getElem?_eq_some_iff.mp hc).1
    omega
  · omega

structure Grouped (text : List Char) (findings : List InjectionFinding) (passages : List Passage) : Prop where
  within : ∀ passage ∈ passages, passage.start ≤ passage.stop ∧ passage.stop ≤ text.length
  ordered : passages.Pairwise fun later earlier => earlier.stop ≤ later.start
  covers : ∀ finding ∈ findings, ∃ passage ∈ passages,
    passage.start ≤ finding.start ∧ finding.stop ≤ passage.stop ∧ finding ∈ passage.members
  begun : ∀ last ∈ passages.head?, ∃ finding ∈ findings, last.start ≤ finding.start

theorem grouped_join {findings : List InjectionFinding} {passages : List Passage}
    (hgrouped : Grouped text findings passages) {finding : InjectionFinding}
    (hwithin : Within text finding) (hlate : ∀ other ∈ findings, other.start ≤ finding.start) :
    Grouped text (findings ++ [finding]) (join_passage text passages finding) := by
  obtain ⟨hpassages, hordered, hcovers, hbegun⟩ := hgrouped
  obtain ⟨hstart, hstop, hlength⟩ := passage_span_spec hwithin
  have hspan := hwithin.1
  obtain ⟨span, hspanned⟩ : ∃ span, span = _passage_span text finding.start finding.stop := ⟨_, rfl⟩
  rw [← hspanned] at hstart hstop hlength
  unfold join_passage
  rw [← hspanned]
  cases passages with
  | nil =>
      have hnone : findings = [] := by
        refine List.eq_nil_iff_forall_not_mem.mpr fun other hother => ?_
        obtain ⟨_, hpassage, _⟩ := hcovers other hother
        cases hpassage
      subst hnone
      exact ⟨by simp; omega, by simp, by simp; omega, by simp; omega⟩
  | cons last before =>
      obtain ⟨hlast, hbefore⟩ := List.forall_mem_cons.mp hpassages
      obtain ⟨hafter, hpairs⟩ := List.pairwise_cons.mp hordered
      obtain ⟨first, hfirst, hbegan⟩ := hbegun last rfl
      have hearly := hlate first hfirst
      dsimp only
      split
      · refine ⟨?_, ?_, ?_, ?_⟩
        · refine List.forall_mem_cons.mpr ⟨⟨?_, ?_⟩, hbefore⟩ <;> dsimp only <;> omega
        · exact List.pairwise_cons.mpr ⟨hafter, hpairs⟩
        · refine List.forall_mem_append.mpr ⟨fun other hother => ?_, ?_⟩
          · obtain ⟨passage, hpassage, hlow, hhigh, hmember⟩ := hcovers other hother
            rcases List.mem_cons.mp hpassage with rfl | hpassage
            · exact ⟨_, List.mem_cons_self .., hlow, hhigh.trans (le_max_left ..), List.mem_append_left _ hmember⟩
            · exact ⟨passage, List.mem_cons_of_mem _ hpassage, hlow, hhigh, hmember⟩
          · simp only [List.forall_mem_singleton]
            refine ⟨_, List.mem_cons_self .., ?_, hstop.trans (le_max_right ..), by simp⟩
            dsimp only
            omega
        · rintro _ ⟨⟩
          exact ⟨first, List.mem_append_left _ hfirst, hbegan⟩
      · rename_i hfar
        refine ⟨?_, ?_, ?_, ?_⟩
        · refine List.forall_mem_cons.mpr ⟨⟨?_, hlength⟩, hpassages⟩
          dsimp only
          omega
        · refine List.pairwise_cons.mpr ⟨fun earlier hearlier => ?_, hordered⟩
          dsimp only
          rcases List.mem_cons.mp hearlier with rfl | hearlier
          · omega
          · have horder := hafter earlier hearlier
            omega
        · refine List.forall_mem_append.mpr ⟨fun other hother => ?_, ?_⟩
          · obtain ⟨passage, hpassage, hrest⟩ := hcovers other hother
            exact ⟨passage, List.mem_cons_of_mem _ hpassage, hrest⟩
          · simp only [List.forall_mem_singleton]
            exact ⟨_, List.mem_cons_self .., hstart, hstop, by simp⟩
        · rintro _ ⟨⟩
          exact ⟨finding, by simp, hstart⟩

theorem grouped_foldl (findings : List InjectionFinding) {done : List InjectionFinding}
    {passages : List Passage} (hgrouped : Grouped text done passages)
    (hwithin : ∀ finding ∈ done ++ findings, Within text finding) (hapart : Apart (done ++ findings)) :
    Grouped text (done ++ findings) (findings.foldl (join_passage text) passages) := by
  induction findings generalizing done passages with
  | nil => simpa using hgrouped
  | cons finding findings ih =>
      have hsplit : done ++ finding :: findings = (done ++ [finding]) ++ findings := by simp
      rw [hsplit] at hwithin hapart ⊢
      refine ih (grouped_join hgrouped (hwithin finding (by simp)) fun other hother => ?_) hwithin hapart
      have horder := (List.pairwise_append.mp (List.pairwise_append.mp hapart).1).2.2 other hother finding
        (List.mem_singleton_self _)
      have hother := (hwithin other (by simp [hother])).1
      omega

theorem grouped_group (findings : List InjectionFinding) (hwithin : ∀ finding ∈ findings, Within text finding)
    (hapart : Apart findings) : Grouped text findings (findings.foldl (join_passage text) []) := by
  have hstart : Grouped text [] [] := ⟨by simp, List.Pairwise.nil, by simp, by simp⟩
  simpa using grouped_foldl findings hstart (by simpa using hwithin) (by simpa using hapart)

end Grouping

section Splicing

variable {text : List Char}

-- Passages in order, none before the cursor.
def InOrder (text : List Char) (cursor : ℕ) (passages : List Passage) : Prop :=
  passages.Pairwise (fun earlier later => earlier.stop ≤ later.start) ∧
    ∀ passage ∈ passages, cursor ≤ passage.start ∧ passage.start ≤ passage.stop ∧
      passage.stop ≤ text.length

theorem InOrder.tail {cursor : ℕ} {passage : Passage} {rest : List Passage}
    (horder : InOrder text cursor (passage :: rest)) : InOrder text passage.stop rest := by
  obtain ⟨hpairs, hall⟩ := horder
  obtain ⟨hfirst, hrest⟩ := List.pairwise_cons.mp hpairs
  exact ⟨hrest, fun other hother => ⟨hfirst other hother, (hall other (List.mem_cons_of_mem _ hother)).2⟩⟩

theorem slice_append_drop {start stop : ℕ} (hle : start ≤ stop) :
    slice text start stop ++ text.drop stop = text.drop start := by
  unfold slice
  have hdrop : text.drop stop = (text.drop start).drop (stop - start) := by
    rw [List.drop_drop, Nat.add_sub_cancel' hle]
  rw [hdrop, List.take_append_drop]

theorem length_slice {start stop : ℕ} (hstop : stop ≤ text.length) :
    (slice text start stop).length = stop - start := by
  simp only [slice, List.length_take, List.length_drop]
  omega

theorem clear_slice (hclear : fences.Clear text) (start stop : ℕ) : fences.Clear (slice text start stop) :=
  hclear.of_subset fun _ hc => List.mem_of_mem_drop (List.mem_of_mem_take hc)

theorem clear_drop (hclear : fences.Clear text) (start : ℕ) : fences.Clear (text.drop start) :=
  hclear.of_subset fun _ hc => List.mem_of_mem_drop hc

theorem erase_passage_append (hclear : fences.Clear text) (cursor : ℕ) (passage : Passage)
    (rest : List Char) :
    fences.erase (slice text cursor passage.start ++ fences.opened (kinds passage) ++
      slice text passage.start passage.stop ++ fences.closed (kinds passage) ++ rest) =
        slice text cursor passage.start ++ slice text passage.start passage.stop ++ fences.erase rest := by
  have henclosed := Wrapper.erase_enclosed_append (kinds passage)
    (clear_slice hclear passage.start passage.stop) rest
  have hplain := Wrapper.erase_clear_append (clear_slice hclear cursor passage.start)
    (fences.opened (kinds passage) ++ slice text passage.start passage.stop ++
      fences.closed (kinds passage) ++ rest)
  simp only [List.append_assoc] at henclosed hplain ⊢
  rw [hplain, henclosed]

theorem erase_splice (hclear : fences.Clear text) (passages : List Passage) {cursor : ℕ}
    (horder : InOrder text cursor passages) :
    fences.erase (splice text cursor passages) = text.drop cursor := by
  induction passages generalizing cursor with
  | nil => exact Wrapper.erase_clear (clear_drop hclear cursor)
  | cons passage rest ih =>
      obtain ⟨hcursor, hstart, _⟩ := horder.2 passage (List.mem_cons_self ..)
      rw [splice, erase_passage_append hclear, ih horder.tail, List.append_assoc, slice_append_drop hstart,
        slice_append_drop hcursor]

theorem nested_splice (hclear : fences.Clear text) (passages : List Passage) (cursor : ℕ) :
    fences.Nested (splice text cursor passages) := by
  induction passages generalizing cursor with
  | nil => exact .text (clear_drop hclear cursor)
  | cons passage rest ih =>
      have hpassage := Wrapper.nested_enclosed (kinds passage)
        (clear_slice hclear passage.start passage.stop)
      have hwhole := Wrapper.Nested.append
        (.append (.text (clear_slice hclear cursor passage.start)) hpassage) (ih passage.stop)
      simpa only [splice, List.append_assoc] using hwhole

-- A wrapper of the kind stands around a passage of the text from one place to another.
structure Labelled (wrapped text : List Char) (kind : SourceThreatKind) (start stop : ℕ)
    (before inside after : List Char) : Prop where
  parts : wrapped = before ++ fences.mark kind false ++ inside ++ fences.mark kind true ++ after
  nested : fences.Nested inside
  text : text = fences.erase before ++ fences.erase inside ++ fences.erase after
  starts : (fences.erase before).length = start
  stops : (fences.erase before).length + (fences.erase inside).length = stop

theorem labelled_passage (hclear : fences.Clear text) {cursor : ℕ} {passage : Passage} {rest : List Passage}
    (horder : InOrder text cursor (passage :: rest)) {kind : SourceThreatKind}
    (hkind : kind ∈ kinds passage) :
    ∃ before inside after, Labelled (splice text cursor (passage :: rest)) (text.drop cursor) kind
      (passage.start - cursor) (passage.stop - cursor) before inside after := by
  obtain ⟨hcursor, hstart, hlength⟩ := horder.2 passage (List.mem_cons_self ..)
  obtain ⟨outer, inner, hkinds⟩ := List.append_of_mem hkind
  have hpassage := clear_slice hclear passage.start passage.stop
  have hbefore := Wrapper.erase_clear_opened (clear_slice hclear cursor passage.start) outer
  have hinside := Wrapper.erase_enclosed inner hpassage
  have hafter : fences.erase (fences.closed outer ++ splice text passage.stop rest) =
      text.drop passage.stop :=
    (Wrapper.erase_marks_append outer.reverse true _).trans (erase_splice hclear rest horder.tail)
  refine ⟨slice text cursor passage.start ++ fences.opened outer,
    fences.opened inner ++ slice text passage.start passage.stop ++ fences.closed inner,
    fences.closed outer ++ splice text passage.stop rest, ?_, Wrapper.nested_enclosed inner hpassage, ?_, ?_, ?_⟩
  · rw [splice, hkinds, Wrapper.opened_append, Wrapper.closed_append, Wrapper.closed_cons]
    simp [Wrapper.opened]
  · rw [hbefore, hinside, hafter, List.append_assoc, slice_append_drop hstart, slice_append_drop hcursor]
  · rw [hbefore, length_slice (hstart.trans hlength)]
  · rw [hbefore, hinside, length_slice (hstart.trans hlength), length_slice hlength]
    omega

theorem labelled_splice (hclear : fences.Clear text) (passages : List Passage) {cursor : ℕ}
    (horder : InOrder text cursor passages) {passage : Passage} (hpassage : passage ∈ passages)
    {kind : SourceThreatKind} (hkind : kind ∈ kinds passage) :
    ∃ before inside after, Labelled (splice text cursor passages) (text.drop cursor) kind
      (passage.start - cursor) (passage.stop - cursor) before inside after := by
  induction passages generalizing cursor with
  | nil => cases hpassage
  | cons first rest ih =>
      rcases List.mem_cons.mp hpassage with rfl | hlater
      · exact labelled_passage hclear horder hkind
      · obtain ⟨before, inside, after, hparts, hnested, htext, hstarts, hstops⟩ := ih horder.tail hlater
        obtain ⟨hcursor, hstart, hlength⟩ := horder.2 first (List.mem_cons_self ..)
        obtain ⟨hlow, hhigh, _⟩ := horder.tail.2 passage hlater
        have hbefore := erase_passage_append hclear cursor first before
        refine ⟨slice text cursor first.start ++ fences.opened (kinds first) ++
          slice text first.start first.stop ++ fences.closed (kinds first) ++ before, inside, after, ?_,
          hnested, ?_, ?_, ?_⟩
        · rw [splice, hparts]
          simp
        · rw [hbefore]
          simp only [List.append_assoc] at htext ⊢
          rw [← htext, slice_append_drop hstart, slice_append_drop hcursor]
        · rw [hbefore, List.length_append, List.length_append, hstarts, length_slice (hstart.trans hlength),
            length_slice hlength]
          omega
        · rw [hbefore, List.length_append, List.length_append, length_slice (hstart.trans hlength),
            length_slice hlength]
          omega

end Splicing

-- The finding lies within a passage whose wrapper carries its kind.
def InWrapper (result : SanitizedContent) (neutralized : List Char) (finding : InjectionFinding) : Prop :=
  ∃ start stop before inside after,
    Labelled result.sanitized_text neutralized finding.kind start stop before inside after ∧
      start ≤ finding.start ∧ finding.stop ≤ stop

theorem sanitized_faithful (patterns : List ThreatPattern) (text : List Char) :
    fences.erase (sanitize_source_content patterns text).sanitized_text = (_neutralize_fences text).1 ∧
      fences.Nested (sanitize_source_content patterns text).sanitized_text ∧
      ∀ finding ∈ (sanitize_source_content patterns text).findings,
        finding.kind ≠ .DELIMITER_NEUTRALIZED →
          InWrapper (sanitize_source_content patterns text) (_neutralize_fences text).1 finding := by
  have hclear := clear_neutralized text
  obtain ⟨neutralized, hneutralized⟩ : ∃ neutralized, neutralized = (_neutralize_fences text).1 := ⟨_, rfl⟩
  obtain ⟨hapart, hwithin⟩ := threats_spec patterns neutralized
  have hgrouped := grouped_group _ hwithin hapart
  have horder : InOrder neutralized 0
      (_group_by_passage (_detect_threats patterns neutralized) neutralized) := by
    refine ⟨List.pairwise_reverse.mpr hgrouped.ordered, fun passage hpassage => ?_⟩
    exact ⟨Nat.zero_le _, hgrouped.within passage (List.mem_reverse.mp hpassage)⟩
  have hresult : (sanitize_source_content patterns text).sanitized_text = splice neutralized 0
      (_group_by_passage (_detect_threats patterns neutralized) neutralized) := by
    rw [hneutralized]
    rfl
  rw [← hneutralized] at hclear ⊢
  rw [hresult]
  refine ⟨erase_splice hclear _ horder, nested_splice hclear _ 0, fun finding hfinding hkind => ?_⟩
  have hthreat : finding ∈ _detect_threats patterns neutralized := by
    rcases List.mem_append.mp ((Ranked.rank_perm _ _).mem_iff.mp hfinding) with hfence | hthreat
    · simp only [_neutralize_fences, List.mem_filterMap] at hfence
      obtain ⟨entry, _, hentry⟩ := hfence
      split at hentry
      · cases hentry
        exact absurd rfl hkind
      · cases hentry
    · rwa [hneutralized]
  obtain ⟨passage, hpassage, hlow, hhigh, hmember⟩ := hgrouped.covers finding hthreat
  have hcarried : finding.kind ∈ kinds passage := mem_fromkeys.mpr (List.mem_map_of_mem hmember)
  obtain ⟨before, inside, after, hlabelled⟩ := labelled_splice hclear _ horder
    (List.mem_reverse.mpr hpassage) hcarried
  exact ⟨_, _, before, inside, after, hresult ▸ hlabelled, hlow, hhigh⟩

-- A detector that takes the first twelve characters of a text for a call.
def first_twelve : ThreatPattern where
  kind := .TOOL_CALL_INDUCED
  finditer text := if 12 ≤ text.length then [(0, 12)] else []
  within text span hspan := by
    split at hspan
    · cases List.mem_singleton.mp hspan
      exact ⟨Nat.zero_le _, by assumption⟩
    · cases hspan

theorem call_in_wrapper :
    InWrapper (sanitize_source_content [first_twelve] "run the tool now. Then stop.".toList)
      "run the tool now. Then stop.".toList
      { kind := .TOOL_CALL_INDUCED, matched_text := "run the tool".toList, start := 0, stop := 12 } := by
  have hneutral : (_neutralize_fences "run the tool now. Then stop.".toList).1 =
      "run the tool now. Then stop.".toList := by
    decide
  rw [← hneutral]
  exact (sanitized_faithful [first_twelve] "run the tool now. Then stop.".toList).2.2 _
    (by decide) (by decide)

theorem fence_without_wrapper :
    ¬∀ finding ∈ (sanitize_source_content [] ['⟦']).findings,
      InWrapper (sanitize_source_content [] ['⟦']) (_neutralize_fences ['⟦']).1 finding := by
  intro hall
  have hfence : { kind := .DELIMITER_NEUTRALIZED, matched_text := ['⟦'], start := 0, stop := 1 } ∈
      (sanitize_source_content [] ['⟦']).findings := by
    decide
  obtain ⟨_, _, before, inside, after, hlabelled, _⟩ := hall _ hfence
  have hmark : '⟦' ∈ (sanitize_source_content [] ['⟦']).sanitized_text := by
    rw [hlabelled.parts]
    simp [Wrapper.mark, fences]
  revert hmark
  decide

end KnowledgeCompiler.Trust
