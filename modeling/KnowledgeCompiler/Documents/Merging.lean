import KnowledgeCompiler.Documents.Tables

namespace KnowledgeCompiler.Documents

open Lib Identity

namespace TableBlock

-- What a row of a table is traced back to.
def origins (table : TableBlock) : List (ℤ × ℤ) := table.with_origins.row_origins

-- The rows that carry one of the origins.
def rows_from (table : TableBlock) (wanted : List (ℤ × ℤ)) : List (List String) :=
  ((table.origins.zip table.rows).filter fun row => row.1 ∈ wanted).map Prod.snd

-- A row of the table is traced back to the page and the place.
def Names (table : TableBlock) (origin : ℤ × ℤ) : Prop :=
  if table.row_origins = [] then
    origin.1 = table.page_number1 ∧ 0 ≤ origin.2 ∧ origin.2 < table.rows.length
  else origin ∈ table.row_origins

def Apart (first second : TableBlock) : Prop := ∀ origin, first.Names origin → ¬second.Names origin

@[simp] theorem with_origins_rows (table : TableBlock) : table.with_origins.rows = table.rows := by
  unfold with_origins
  split <;> rfl

@[simp] theorem with_origins_page (table : TableBlock) :
    table.with_origins.page_number1 = table.page_number1 := by
  unfold with_origins
  split <;> rfl

@[simp] theorem with_origins_y1 (table : TableBlock) : table.with_origins.y1 = table.y1 := by
  unfold with_origins
  split <;> rfl

theorem origins_of_recorded {table : TableBlock} (hrecorded : table.row_origins ≠ []) :
    table.origins = table.row_origins := by
  rw [origins, with_origins, if_pos hrecorded]

theorem length_origins (table : TableBlock) : table.origins.length = table.rows.length := by
  unfold origins with_origins
  split
  · rename_i hrecorded
    exact table.every_row_sourced.resolve_left hrecorded
  · simp

theorem mem_origins_iff (table : TableBlock) (origin : ℤ × ℤ) :
    origin ∈ table.origins ↔ table.Names origin := by
  unfold origins with_origins Names
  by_cases hrecorded : table.row_origins = []
  swap
  · simp only [hrecorded, ne_eq, not_false_eq_true, if_true, if_false]
  · simp only [hrecorded, ne_eq, not_true_eq_false, if_false, if_true]
    obtain ⟨page, place⟩ := origin
    simp only [List.mem_map, List.mem_range, Prod.mk.injEq]
    constructor
    · rintro ⟨index, hindex, rfl, rfl⟩
      exact ⟨rfl, by omega, by omega⟩
    · rintro ⟨rfl, hlow, hhigh⟩
      exact ⟨place.toNat, by omega, rfl, by omega⟩

theorem nodup_origins_iff (table : TableBlock) : table.origins.Nodup ↔ table.row_origins.Nodup := by
  unfold origins with_origins
  split
  · rfl
  · rename_i hrecorded
    rw [not_not.mp hrecorded]
    refine iff_of_true (List.Nodup.map ?_ List.nodup_range) List.nodup_nil
    intro first second heq
    simpa using heq

theorem disjoint_origins_iff (first second : TableBlock) :
    List.Disjoint first.origins second.origins ↔ first.Apart second := by
  simp only [List.Disjoint, mem_origins_iff, Apart]

end TableBlock

open TableBlock

-- The tables a fragment was put together from, in order.
inductive Merged : List TableBlock → TableBlock → Prop
  | read (table : TableBlock) : Merged [table] table
  | merge {uppers lowers : List TableBlock} {upper lower merged : TableBlock} {decision : LinkDecision}
      (hupper : Merged uppers upper) (hlower : Merged lowers lower)
      (hmerge : merge_tables upper lower decision = .ok merged) : Merged (uppers ++ lowers) merged

structure Reversible (tables : List TableBlock) (merged : TableBlock) : Prop where
  distinct : merged.origins.Nodup
  recovered : ∀ table ∈ tables, merged.rows_from table.origins = table.rows

section Merging

variable {upper lower merged : TableBlock} {decision : LinkDecision}

structure Joined (upper lower merged : TableBlock) : Prop where
  origins : merged.row_origins = upper.origins ++ lower.origins
  rows : merged.rows = upper.rows ++ lower.rows
  page : merged.page_number1 = upper.page_number1
  bottom : merged.y1 = lower.y1
  covers : upper.page_number1 ∈ merged.page_span

theorem joined_of_merge (hmerge : merge_tables upper lower decision = .ok merged) :
    Joined upper lower merged := by
  simp only [merge_tables] at hmerge
  split at hmerge
  · cases hmerge
  split at hmerge
  · cases hmerge
  split at hmerge
  · cases hmerge
  split at hmerge
  · cases hmerge
  · rename_i hcovers
    cases hmerge
    refine ⟨rfl, by simp [stacked], by simp [stacked], by simp [stacked], ?_⟩
    simpa using not_not.mp hcovers (List.mem_cons_self ..)

theorem origins_of_merge (hmerge : merge_tables upper lower decision = .ok merged) :
    merged.origins = upper.origins ++ lower.origins := by
  have hjoined := joined_of_merge hmerge
  rw [origins_of_recorded, hjoined.origins]
  intro hnone
  have hcovers := hjoined.covers
  simp [page_span, hnone] at hcovers

theorem merged_flatMap {tables : List TableBlock} (hmerged : Merged tables merged) :
    merged.origins = tables.flatMap TableBlock.origins ∧ merged.rows = tables.flatMap TableBlock.rows := by
  induction hmerged with
  | read table => simp
  | merge _ _ hmerge ihupper ihlower =>
      rw [origins_of_merge hmerge, (joined_of_merge hmerge).rows, List.flatMap_append, List.flatMap_append,
        ihupper.1, ihupper.2, ihlower.1, ihlower.2]
      exact ⟨rfl, rfl⟩

theorem filter_zip_of_disjoint {wanted : List (ℤ × ℤ)} {found : List (ℤ × ℤ)} {rows : List (List String)}
    (hdisjoint : List.Disjoint found wanted) :
    (found.zip rows).filter (fun row => row.1 ∈ wanted) = [] := by
  rw [List.filter_eq_nil_iff]
  intro row hrow
  simpa using hdisjoint (List.of_mem_zip hrow).1

theorem filter_zip_self (table : TableBlock) :
    (table.origins.zip table.rows).filter (fun row => row.1 ∈ table.origins) =
      table.origins.zip table.rows := by
  rw [List.filter_eq_self]
  intro row hrow
  simpa using (List.of_mem_zip hrow).1

-- Where no origin occurs twice, a table's own are found nowhere else.
theorem recovered_of_nodup {tables : List TableBlock} (hmerged : Merged tables merged)
    (hdistinct : merged.origins.Nodup) {table : TableBlock} (htable : table ∈ tables) :
    merged.rows_from table.origins = table.rows := by
  obtain ⟨before, after, rfl⟩ := List.append_of_mem htable
  obtain ⟨horigins, hrows⟩ := merged_flatMap hmerged
  rw [horigins, List.flatMap_append, List.flatMap_cons] at hdistinct
  have hlength (more : List TableBlock) :
      (more.flatMap TableBlock.origins).length = (more.flatMap TableBlock.rows).length := by
    simp [List.length_flatMap, length_origins]
  obtain ⟨_, hrest, hbefore⟩ := List.nodup_append.mp hdistinct
  obtain ⟨_, _, hafter⟩ := List.nodup_append.mp hrest
  rw [rows_from, horigins, hrows, List.flatMap_append, List.flatMap_append, List.flatMap_cons,
    List.flatMap_cons, List.zip_append (hlength before), List.zip_append (length_origins table),
    List.filter_append, List.filter_append, filter_zip_of_disjoint, filter_zip_self, filter_zip_of_disjoint]
  · simp [List.map_snd_zip, length_origins]
  · intro origin hfound hwanted
    exact hafter origin hwanted origin hfound rfl
  · intro origin hfound hwanted
    exact hbefore origin hfound origin (List.mem_append_left _ hwanted) rfl

theorem reversible_iff {tables : List TableBlock} (hmerged : Merged tables merged) :
    Reversible tables merged ↔
      (∀ table ∈ tables, table.row_origins.Nodup) ∧ tables.Pairwise Apart := by
  have hdistinct : merged.origins.Nodup ↔
      (∀ table ∈ tables, table.row_origins.Nodup) ∧ tables.Pairwise Apart := by
    rw [(merged_flatMap hmerged).1, List.nodup_flatMap]
    exact and_congr (forall₂_congr fun table _ => nodup_origins_iff table)
      (List.Pairwise.iff fun first second => disjoint_origins_iff first second)
  rw [← hdistinct]
  exact ⟨fun hreversible => hreversible.distinct,
    fun hnodup => ⟨hnodup, fun table htable => recovered_of_nodup hmerged hnodup htable⟩⟩

end Merging

def ascii_reader : TableReader where
  unicode := Unicode.ascii
  is_digit := Char.isDigit

def read_table (page : ℤ) (local_id : String) (rows : List (List String))
    (y0 : Option ℤ := none) (y1 : Option ℤ := none) : TableBlock where
  page_number1 := page
  local_id := local_id
  header := ["name"]
  rows := rows
  y0 := y0
  y1 := y1
  every_row_sourced := .inl rfl

def first_page : TableBlock := read_table 1 "t1" [["ada"], ["bob"]] (some 100) (some 950)

def second_page : TableBlock := read_table 2 "t2" [["cyd"]] (some 50) (some 950)

def third_page : TableBlock := read_table 3 "t3" [["dee"]] (some 50) (some 400)

def two_pages : TableBlock := stacked first_page.with_origins second_page.with_origins (by decide)

theorem two_pages_merged :
    merge_tables first_page second_page (link_tables ascii_reader first_page second_page) =
      .ok two_pages := by
  decide +kernel

theorem two_pages_reversible : Reversible [first_page, second_page] two_pages := by
  refine (reversible_iff (.merge (.read _) (.read _) two_pages_merged)).mpr
    ⟨by decide, List.pairwise_pair.mpr ?_⟩
  rintro ⟨page, place⟩ hfirst hsecond
  have hone : page = 1 := hfirst.1
  have htwo : page = 2 := hsecond.1
  omega

-- Two tables of one page, as one that a figure cuts in two.
def upper_half : TableBlock := read_table 1 "t1" [["ada"]]

def lower_half : TableBlock := read_table 1 "t2" [["bob"]]

theorem one_page_not_reversible :
    merge_tables upper_half lower_half (link_tables ascii_reader upper_half lower_half) =
        .ok (stacked upper_half.with_origins lower_half.with_origins (by decide)) ∧
      ¬Reversible [upper_half, lower_half]
        (stacked upper_half.with_origins lower_half.with_origins (by decide)) := by
  refine ⟨by decide +kernel, fun hreversible => ?_⟩
  have hdistinct := hreversible.distinct
  revert hdistinct
  decide

-- What a link has found out about one signal: its value, or why it has none.
def LinkDecision.evidence (decision : LinkDecision) (signal : TableSignal) : Reading :=
  (decision.signals.lookup signal, decision.missing.lookup signal)

-- Nothing hangs on which page and which lower edge the merged table shows.
def PagesAgree (upper lower next : TableBlock) : Prop :=
  lower.y1 = none ∨ next.y0 = none ∨ upper.page_number1 = lower.page_number1 ∨
    (next.page_number1 ≠ upper.page_number1 + 1 ∧ next.page_number1 ≠ lower.page_number1 + 1) ∨
    ∃ bottom top, lower.y1 = some bottom ∧ next.y0 = some top ∧ bottom ≤ 700 ∧ 300 ≤ top

section Evidence

variable {upper lower merged : TableBlock} {decision : LinkDecision} {reader : TableReader}

theorem lookup_filterMap {κ β : Type} [DecidableEq κ] (found : κ → Option β) (key : κ) (keys : List κ) :
    (keys.filterMap fun key => (found key).map (key, ·)).lookup key =
      if key ∈ keys then found key else none := by
  induction keys with
  | nil => rfl
  | cons other keys ih =>
      by_cases hkey : key = other
      · subst hkey
        cases hfound : found key with
        | none => simp [hfound, ih]
        | some value => simp [hfound]
      · cases hfound : found other with
        | none => simp [hfound, ih, hkey]
        | some value =>
            have hbeq : (key == other) = false := by simpa using hkey
            simp [hfound, ih, hkey, List.lookup_cons, hbeq]

theorem evidence_link (reader : TableReader) (upper lower : TableBlock) (signal : TableSignal) :
    (link_tables reader upper lower).evidence signal =
      match (reader.raw upper lower signal).1 with
      | some value => (some value, none)
      | none => (none, some ((reader.raw upper lower signal).2.getD .MODEL_UNAVAILABLE)) := by
  have hall : signal ∈ TableSignal.all := by cases signal <;> decide
  have hsignals : (link_tables reader upper lower).signals = present_signals (reader.raw upper lower) := by
    unfold link_tables
    dsimp only
    split
    · rfl
    split <;> rfl
  have hmissing : (link_tables reader upper lower).missing = missing_signals (reader.raw upper lower) := by
    unfold link_tables
    dsimp only
    split
    · rfl
    split <;> rfl
  have hreasons : missing_signals (reader.raw upper lower) =
      TableSignal.all.filterMap fun signal =>
        (match (reader.raw upper lower signal).1 with
          | some _ => none
          | none => some ((reader.raw upper lower signal).2.getD .MODEL_UNAVAILABLE)).map (signal, ·) := by
    unfold missing_signals
    congr 1
    funext other
    cases (reader.raw upper lower other).1 <;> rfl
  unfold LinkDecision.evidence
  rw [hsignals, hmissing, hreasons, present_signals, lookup_filterMap, lookup_filterMap, if_pos hall,
    if_pos hall]
  cases (reader.raw upper lower signal).1 <;> rfl

theorem page_evidence (reader : TableReader) (upper lower : TableBlock) :
    (link_tables reader upper lower).evidence .page_bottom_top_position =
      TableReader.page_position upper lower := by
  rw [evidence_link]
  unfold TableReader.raw TableReader.page_position
  cases upper.y1 with
  | none => rfl
  | some bottom =>
      cases lower.y0 with
      | none => rfl
      | some top =>
          by_cases hpage : lower.page_number1 = upper.page_number1 + 1 <;> simp [hpage]

-- The value of two tables on neighbouring pages is none only in the middle of both pages.
theorem position_eq_zero_iff (bottom top : ℤ) :
    min 1 ((max 0 (((bottom : ℚ) - 700) / 300) + max 0 ((300 - (top : ℚ)) / 300)) / 2) = 0 ↔
      bottom ≤ 700 ∧ 300 ≤ top := by
  obtain ⟨low, hlow⟩ : ∃ low, low = max 0 (((bottom : ℚ) - 700) / 300) := ⟨_, rfl⟩
  obtain ⟨high, hhigh⟩ : ∃ high, high = max 0 ((300 - (top : ℚ)) / 300) := ⟨_, rfl⟩
  have hlow0 : 0 ≤ low := hlow ▸ le_max_left ..
  have hhigh0 : 0 ≤ high := hhigh ▸ le_max_left ..
  have hlowZero : low = 0 ↔ bottom ≤ 700 := by
    rw [hlow, max_eq_left_iff, div_le_iff₀ (by norm_num), zero_mul, sub_nonpos]
    exact_mod_cast Iff.rfl
  have hhighZero : high = 0 ↔ 300 ≤ top := by
    rw [hhigh, max_eq_left_iff, div_le_iff₀ (by norm_num), zero_mul, sub_nonpos]
    exact_mod_cast Iff.rfl
  rw [← hlow, ← hhigh, ← hlowZero, ← hhighZero]
  constructor
  · intro hmin
    rcases min_choice (1 : ℚ) ((low + high) / 2) with hone | hhalf
    · rw [hone] at hmin
      norm_num at hmin
    · rw [hhalf] at hmin
      constructor <;> linarith
  · rintro ⟨rfl, rfl⟩
    norm_num

theorem page_evidence_iff (hmerge : merge_tables upper lower decision = .ok merged)
    (reader : TableReader) (next : TableBlock) :
    (link_tables reader merged next).evidence .page_bottom_top_position =
        (link_tables reader lower next).evidence .page_bottom_top_position ↔
      PagesAgree upper lower next := by
  have hjoined := joined_of_merge hmerge
  rw [page_evidence, page_evidence]
  unfold TableReader.page_position PagesAgree
  rw [hjoined.bottom, hjoined.page]
  cases hbottom : lower.y1 with
  | none => simp
  | some bottom =>
      cases htop : next.y0 with
      | none => simp
      | some top =>
          have hzero := position_eq_zero_iff bottom top
          by_cases hupper : next.page_number1 = upper.page_number1 + 1
          · by_cases hlower : next.page_number1 = lower.page_number1 + 1
            · have hsame : upper.page_number1 = lower.page_number1 := by omega
              simp [hsame]
            · have hdifferent : upper.page_number1 ≠ lower.page_number1 := by omega
              simp [hupper, hdifferent, hzero]
          · by_cases hlower : next.page_number1 = lower.page_number1 + 1
            · have hdifferent : upper.page_number1 ≠ lower.page_number1 := by omega
              have hflat := eq_comm.trans hzero
              simpa [hlower, hdifferent, Ne.symm hdifferent] using hflat
            · simp [hupper, hlower]

end Evidence

theorem two_pages_evidence_iff :
    (link_tables ascii_reader two_pages third_page).evidence .page_bottom_top_position =
        (link_tables ascii_reader second_page third_page).evidence .page_bottom_top_position ↔
      PagesAgree first_page second_page third_page :=
  page_evidence_iff two_pages_merged ascii_reader third_page

-- The merged table shows its first page, so the third page does not seem to come next.
theorem third_page_not_next :
    merge_tables first_page second_page (link_tables ascii_reader first_page second_page) =
        .ok two_pages ∧
      (link_tables ascii_reader two_pages third_page).evidence .page_bottom_top_position ≠
        (link_tables ascii_reader second_page third_page).evidence .page_bottom_top_position := by
  decide +kernel

end KnowledgeCompiler.Documents
