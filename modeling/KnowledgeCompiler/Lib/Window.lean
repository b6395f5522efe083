import Mathlib.Data.List.Infix
import Mathlib.Data.List.Nodup

namespace KnowledgeCompiler.Lib.Window

variable {α : Type*}

-- A reader of a list that only grows: it may look at the `window` newest items
-- alone, and it remembers one item, the last of `seen`, to go on from. What it
-- takes each time is what is newer than that item, as far as the window reaches;
-- when the item lies outside the window, it remembers the oldest item it took.
structure Reader (α : Type*) where
  seen : List α
  newer : List α
  reported : List α
  latest : List α

namespace Reader

def start : Reader α := ⟨[], [], [], []⟩

def read (window : Nat) (reader : Reader α) (pushed : List α) : Reader α :=
  let newer := reader.newer ++ pushed
  let cut := newer.length - window
  if reader.seen = [] then ⟨newer, [], reader.reported ++ newer.drop cut, newer.drop cut⟩
  else if newer.length < window then ⟨reader.seen ++ newer, [], reader.reported ++ newer, newer⟩
  else
    ⟨reader.seen ++ newer.take (cut + 1), newer.drop (cut + 1),
      reader.reported ++ newer.drop cut, newer.drop cut⟩

end Reader

def run (window : Nat) (pushes : List (List α)) : Reader α :=
  pushes.foldl (Reader.read window) Reader.start

theorem run_concat (window : Nat) (pushes : List (List α)) (pushed : List α) :
    run window (pushes ++ [pushed]) = (run window pushes).read window pushed := by
  rw [run, List.foldl_append, run]
  rfl

-- The first read that finds anything reaches back to the beginning. Each later
-- one finds less than fills the window, but for a row of reads at the end that
-- each fill it exactly.
def Within (window : Nat) (pushes : List (List α)) : Prop :=
  ∀ earlier pushed later, pushes = earlier ++ pushed :: later →
    (earlier.flatten = [] → pushed.length ≤ window) ∧
      (earlier.flatten ≠ [] → pushed.length < window ∨
        ∀ other ∈ pushed :: later, other.length = window)

-- The item remembered is the newest.
structure Level (window : Nat) (done : List (List α)) : Prop where
  seen : (run window done).seen = done.flatten
  newer : (run window done).newer = []
  reported : (run window done).reported = done.flatten

-- The item remembered is the oldest of the window.
structure Behind (window : Nat) (done : List (List α)) : Prop where
  seen : (run window done).seen ≠ []
  newer : (run window done).newer.length + 1 = window
  whole : (run window done).seen ++ (run window done).newer = done.flatten
  reported : (run window done).reported = done.flatten

theorem flatten_concat (done : List (List α)) (pushed : List α) :
    (done ++ [pushed]).flatten = done.flatten ++ pushed := by simp

-- What one read does.

section Read

variable {window : Nat} {reader : Reader α} {pushed : List α}

theorem read_first (hseen : reader.seen = []) (hnewer : reader.newer = []) :
    reader.read window pushed = ⟨pushed, [], reader.reported ++ pushed.drop (pushed.length - window),
      pushed.drop (pushed.length - window)⟩ := by
  simp only [Reader.read, hseen, hnewer, List.nil_append, if_true]

theorem read_near (hseen : reader.seen ≠ []) (hshort : (reader.newer ++ pushed).length < window) :
    reader.read window pushed = ⟨reader.seen ++ (reader.newer ++ pushed), [],
      reader.reported ++ (reader.newer ++ pushed), reader.newer ++ pushed⟩ := by
  simp only [Reader.read, if_neg hseen, if_pos hshort]

theorem read_far (hseen : reader.seen ≠ []) {cut : Nat}
    (hcut : (reader.newer ++ pushed).length = cut + window) :
    reader.read window pushed = ⟨reader.seen ++ (reader.newer ++ pushed).take (cut + 1),
      (reader.newer ++ pushed).drop (cut + 1), reader.reported ++ (reader.newer ++ pushed).drop cut,
      (reader.newer ++ pushed).drop cut⟩ := by
  have hshort : ¬(reader.newer ++ pushed).length < window := by omega
  have hsub : (reader.newer ++ pushed).length - window = cut := by omega
  simp only [Reader.read, if_neg hseen, if_neg hshort, hsub]

theorem reported_read :
    (reader.read window pushed).reported = reader.reported ++ (reader.read window pushed).latest := by
  rw [Reader.read]
  split
  · rfl
  · split <;> rfl

end Read

section Steps

variable {window : Nat} {done : List (List α)} {pushed : List α}

theorem level_nil : Level window ([] : List (List α)) := ⟨rfl, rfl, rfl⟩

theorem Level.first (hlevel : Level window done) (hfirst : done.flatten = [])
    (hpushed : pushed.length ≤ window) : Level window (done ++ [pushed]) := by
  have hcut : pushed.length - window = 0 := by omega
  have hread := @read_first _ window _ pushed (hlevel.seen.trans hfirst) hlevel.newer
  rw [hcut, List.drop_zero, hlevel.reported, hfirst] at hread
  constructor <;> rw [run_concat, hread] <;> simp [hfirst]

theorem Level.near (hlevel : Level window done) (hlater : done.flatten ≠ [])
    (hpushed : pushed.length < window) : Level window (done ++ [pushed]) := by
  have hshort : ((run window done).newer ++ pushed).length < window := by
    rwa [hlevel.newer, List.nil_append]
  have hread := read_near (by rwa [hlevel.seen]) hshort
  rw [hlevel.newer, List.nil_append, hlevel.seen, hlevel.reported] at hread
  constructor <;> rw [run_concat, hread] <;> simp

theorem Level.full (hlevel : Level window done) (hlater : done.flatten ≠ []) (hwindow : 0 < window)
    (hpushed : pushed.length = window) : Behind window (done ++ [pushed]) := by
  have hcut : ((run window done).newer ++ pushed).length = 0 + window := by
    rw [hlevel.newer, List.nil_append, hpushed, Nat.zero_add]
  have hread := read_far (by rwa [hlevel.seen]) hcut
  rw [hlevel.newer, List.nil_append, hlevel.seen, hlevel.reported, List.drop_zero] at hread
  constructor <;> rw [run_concat, hread]
  · exact List.append_ne_nil_of_left_ne_nil hlater _
  · rw [List.length_drop]
    omega
  · rw [List.append_assoc, List.take_append_drop, flatten_concat]
  · rw [flatten_concat]

theorem Behind.full (hbehind : Behind window done) (hpushed : pushed.length = window) :
    Behind window (done ++ [pushed]) := by
  have hnewer := hbehind.newer
  have hcut : ((run window done).newer ++ pushed).length = (run window done).newer.length + window := by
    rw [List.length_append, hpushed]
  have hread := read_far hbehind.seen hcut
  rw [hbehind.reported, List.drop_left] at hread
  constructor <;> rw [run_concat, hread]
  · exact List.append_ne_nil_of_left_ne_nil hbehind.seen _
  · rw [List.length_drop, hcut]
    omega
  · rw [List.append_assoc, List.take_append_drop, ← List.append_assoc, hbehind.whole, flatten_concat]
  · rw [flatten_concat]

end Steps

-- What stands behind the beginning of a list without repetitions does not begin it.
theorem eq_zero_of_drop_prefix {items : List α} (hnodup : items.Nodup) {cut : Nat}
    (hcut : cut < items.length) (hbegins : items.drop cut <+: items) : cut = 0 := by
  have hne : items.drop cut ≠ [] := by
    intro h
    have := congrArg List.length h
    rw [List.length_drop, List.length_nil] at this
    omega
  have hpos : 0 < (items.drop cut).length := List.length_pos_of_ne_nil hne
  have hhead := hbegins.getElem hpos
  rw [List.getElem_drop] at hhead
  have := (hnodup.getElem_inj_iff).mp hhead
  omega

section Exactness

variable {window : Nat} {pushes : List (List α)}

theorem Level.length_le_of_prefix {done : List (List α)} {pushed : List α}
    (hlevel : Level window done) (hwindow : 0 < window) (hnodup : pushed.Nodup)
    (hbegins : (run window (done ++ [pushed])).reported <+: done.flatten ++ pushed) :
    pushed.length ≤ window := by
  by_contra hlong
  have hreported : (run window (done ++ [pushed])).reported =
      done.flatten ++ pushed.drop (pushed.length - window) := by
    rw [run_concat]
    by_cases hseen : (run window done).seen = []
    · rw [read_first hseen hlevel.newer, hlevel.reported]
    · have hcut : ((run window done).newer ++ pushed).length = (pushed.length - window) + window := by
        rw [hlevel.newer, List.nil_append]
        omega
      rw [read_far hseen hcut, hlevel.newer, List.nil_append, hlevel.reported]
  rw [hreported, List.prefix_append_right_inj] at hbegins
  have := eq_zero_of_drop_prefix hnodup (by omega) hbegins
  omega

theorem Behind.length_eq_of_prefix {done : List (List α)} {pushed : List α}
    (hbehind : Behind window done) (hwindow : 2 ≤ window) (hnodup : pushed.Nodup)
    (hbegins : (run window (done ++ [pushed])).reported <+: done.flatten ++ pushed) :
    pushed.length = window := by
  have hnewer := hbehind.newer
  have hlength : ((run window done).newer ++ pushed).length =
      (run window done).newer.length + pushed.length := List.length_append
  rw [run_concat] at hbegins
  by_cases hempty : pushed = []
  · -- What was reported before is reported again.
    subst hempty
    have hshort : ((run window done).newer ++ []).length < window := by
      rw [List.append_nil]
      omega
    rw [read_near hbehind.seen hshort, hbehind.reported, List.append_nil, List.append_nil] at hbegins
    have := hbegins.length_le
    rw [List.length_append] at this
    omega
  · have hpos := List.length_pos_of_ne_nil hempty
    have hcut : ((run window done).newer ++ pushed).length = (pushed.length - 1) + window := by
      omega
    rw [read_far hbehind.seen hcut, hbehind.reported, List.prefix_append_right_inj] at hbegins
    have hle := hbegins.length_le
    rw [List.length_drop] at hle
    have hsub : pushed.length - 1 = (run window done).newer.length + (pushed.length - window) := by
      omega
    rw [hsub, List.drop_length_add_append] at hbegins
    have := eq_zero_of_drop_prefix hnodup (by omega) hbegins
    omega

theorem nodup_pushed {earlier later : List (List α)} {pushed : List α}
    (hnodup : (earlier ++ pushed :: later).flatten.Nodup) : pushed.Nodup :=
  hnodup.sublist (List.sublist_flatten_of_mem (List.mem_append_right _ List.mem_cons_self))

theorem concat_prefix (earlier later : List (List α)) (pushed : List α) :
    earlier ++ [pushed] <+: earlier ++ pushed :: later :=
  ⟨later, by simp⟩

-- As long as the reads stay within the window, everything is reported once.
theorem standing_of_within (hwindow : 0 < window) (hwithin : Within window pushes)
    {done rest : List (List α)} (hsplit : pushes = done ++ rest) :
    Level window done ∨ (Behind window done ∧ ∀ other ∈ rest, other.length = window) := by
  induction done using List.reverseRecOn generalizing rest with
  | nil => exact Or.inl level_nil
  | append_singleton done pushed ih =>
      have hat : pushes = done ++ pushed :: rest := by simp [hsplit]
      obtain ⟨hfirst, hlater⟩ := hwithin done pushed rest hat
      rcases ih hat with hlevel | ⟨hbehind, hrest⟩
      · by_cases hempty : done.flatten = []
        · exact Or.inl (hlevel.first hempty (hfirst hempty))
        · rcases hlater hempty with hshort | hfull
          · exact Or.inl (hlevel.near hempty hshort)
          · exact Or.inr ⟨hlevel.full hempty hwindow (hfull pushed List.mem_cons_self),
              fun other hother => hfull other (List.mem_cons_of_mem _ hother)⟩
      · exact Or.inr ⟨hbehind.full (hrest pushed List.mem_cons_self),
          fun other hother => hrest other (List.mem_cons_of_mem _ hother)⟩

theorem reported_of_within (hwindow : 0 < window) (hwithin : Within window pushes)
    {done : List (List α)} (hdone : done <+: pushes) : (run window done).reported = done.flatten := by
  obtain ⟨rest, hsplit⟩ := hdone
  rcases standing_of_within hwindow hwithin hsplit.symm with hlevel | ⟨hbehind, -⟩
  · exact hlevel.reported
  · exact hbehind.reported

-- As long as everything is reported once, the reads stay within the window.
theorem standing_of_prefix (hwindow : 2 ≤ window) (hnodup : pushes.flatten.Nodup)
    (hexact : ∀ done, done <+: pushes → (run window done).reported <+: done.flatten)
    {done rest : List (List α)} (hsplit : pushes = done ++ rest) :
    Level window done ∨ Behind window done := by
  induction done using List.reverseRecOn generalizing rest with
  | nil => exact Or.inl level_nil
  | append_singleton done pushed ih =>
      have hat : pushes = done ++ pushed :: rest := by simp [hsplit]
      have hpushed : pushed.Nodup := nodup_pushed (hat ▸ hnodup)
      have hbegins := hexact _ (hat ▸ concat_prefix done rest pushed)
      rw [flatten_concat] at hbegins
      rcases ih hat with hlevel | hbehind
      · have hle := hlevel.length_le_of_prefix (by omega) hpushed hbegins
        by_cases hempty : done.flatten = []
        · exact Or.inl (hlevel.first hempty hle)
        · rcases Nat.lt_or_eq_of_le hle with hshort | hfull
          · exact Or.inl (hlevel.near hempty hshort)
          · exact Or.inr (hlevel.full hempty (by omega) hfull)
      · exact Or.inr (hbehind.full (hbehind.length_eq_of_prefix hwindow hpushed hbegins))

theorem full_of_behind (hwindow : 2 ≤ window) (hnodup : pushes.flatten.Nodup)
    (hexact : ∀ done, done <+: pushes → (run window done).reported <+: done.flatten)
    {done rest : List (List α)} (hsplit : pushes = done ++ rest) (hbehind : Behind window done) :
    ∀ other ∈ rest, other.length = window := by
  induction rest generalizing done with
  | nil => exact fun other hother => absurd hother List.not_mem_nil
  | cons pushed rest ih =>
      have hpushed : pushed.Nodup := nodup_pushed (hsplit ▸ hnodup)
      have hbegins := hexact _ (hsplit ▸ concat_prefix done rest pushed)
      rw [flatten_concat] at hbegins
      have hfull := hbehind.length_eq_of_prefix hwindow hpushed hbegins
      have hmore := ih (by simp [hsplit]) (hbehind.full hfull)
      exact List.forall_mem_cons.mpr ⟨hfull, hmore⟩

theorem prefix_iff_within (hwindow : 2 ≤ window) (hnodup : pushes.flatten.Nodup) :
    (∀ done, done <+: pushes → (run window done).reported <+: done.flatten) ↔
      Within window pushes := by
  constructor
  · intro hexact earlier pushed later hsplit
    have hpushed : pushed.Nodup := nodup_pushed (hsplit ▸ hnodup)
    have hbegins := hexact _ (hsplit ▸ concat_prefix earlier later pushed)
    rw [flatten_concat] at hbegins
    rcases standing_of_prefix hwindow hnodup hexact hsplit with hlevel | hbehind
    · have hle := hlevel.length_le_of_prefix (by omega) hpushed hbegins
      refine ⟨fun _ => hle, fun hempty => ?_⟩
      rcases Nat.lt_or_eq_of_le hle with hshort | hfull
      · exact Or.inl hshort
      · have hnext := hlevel.full hempty (by omega) hfull
        have hrest : pushes = (earlier ++ [pushed]) ++ later := by simp [hsplit]
        have hmore := full_of_behind hwindow hnodup hexact hrest hnext
        exact Or.inr (List.forall_mem_cons.mpr ⟨hfull, hmore⟩)
    · have hmore := full_of_behind hwindow hnodup hexact hsplit hbehind
      exact ⟨fun _ => Nat.le_of_eq (hmore pushed List.mem_cons_self), fun _ => Or.inr hmore⟩
  · intro hwithin done hdone
    rw [reported_of_within (by omega) hwithin hdone]

end Exactness

-- Nothing is taken when nothing was added, and then only.
theorem latest_eq_nil_iff {window : Nat} (hwindow : 0 < window) {pushes : List (List α)}
    (hwithin : Within window pushes) {done rest : List (List α)} {pushed : List α}
    (hsplit : pushes = done ++ pushed :: rest) :
    (run window (done ++ [pushed])).latest = [] ↔ pushed = [] := by
  have hbefore := reported_of_within hwindow hwithin ⟨_, hsplit.symm⟩
  have hafter := reported_of_within hwindow hwithin (hsplit ▸ concat_prefix done rest pushed)
  have hreported := @reported_read _ window (run window done) pushed
  rw [← run_concat, hafter, hbefore, flatten_concat, List.append_cancel_left_eq] at hreported
  rw [← hreported]

-- What has been pushed is seen or newer, and none of it is made up.

theorem whole_run (window : Nat) (pushes : List (List α)) :
    (run window pushes).seen ++ (run window pushes).newer = pushes.flatten := by
  induction pushes using List.reverseRecOn with
  | nil => rfl
  | append_singleton pushes pushed ih =>
      rw [run_concat, flatten_concat, ← ih, Reader.read]
      split
      · rename_i hseen
        simp [hseen]
      · split
        · simp
        · simp [List.append_assoc, List.take_append_drop]

theorem newer_of_seen (window : Nat) {pushes : List (List α)} (hseen : (run window pushes).seen = []) :
    (run window pushes).newer = [] := by
  induction pushes using List.reverseRecOn with
  | nil => rfl
  | append_singleton pushes pushed ih =>
      rw [run_concat, Reader.read] at hseen ⊢
      split
      · rfl
      · rename_i hbefore
        rw [if_neg hbefore] at hseen
        split
        · rfl
        · rename_i hshort
          rw [if_neg hshort] at hseen
          exact absurd (List.append_eq_nil_iff.mp hseen).1 hbefore

theorem mem_of_mem_reported {window : Nat} {pushes : List (List α)} {item : α}
    (hitem : item ∈ (run window pushes).reported) : item ∈ pushes.flatten := by
  induction pushes using List.reverseRecOn with
  | nil => exact absurd hitem List.not_mem_nil
  | append_singleton pushes pushed ih =>
      rw [run_concat, reported_read, List.mem_append] at hitem
      rw [flatten_concat]
      rcases hitem with hitem | hitem
      · exact List.mem_append_left _ (ih hitem)
      · have hnewer : item ∈ (run window pushes).newer ++ pushed := by
          rw [Reader.read] at hitem
          split at hitem
          · exact List.mem_of_mem_drop hitem
          · split at hitem
            · exact hitem
            · exact List.mem_of_mem_drop hitem
        rw [← whole_run window pushes, List.append_assoc]
        exact List.mem_append_right _ hnewer

-- A prefix is known by names that tell the items apart.
theorem prefix_of_map_prefix {β : Type*} {name : α → β} {all first second : List α}
    (hnames : (all.map name).Nodup) (hfirst : ∀ item ∈ first, item ∈ all)
    (hsecond : ∀ item ∈ second, item ∈ all) (hbegins : first.map name <+: second.map name) :
    first <+: second := by
  induction first generalizing second with
  | nil => exact List.nil_prefix
  | cons item rest ih =>
      cases second with
      | nil => simp at hbegins
      | cons other more =>
          obtain ⟨hname, hmore⟩ := List.cons_prefix_cons.mp hbegins
          obtain ⟨hitem, hrest⟩ := List.forall_mem_cons.mp hfirst
          obtain ⟨hother, hothers⟩ := List.forall_mem_cons.mp hsecond
          exact List.cons_prefix_cons.mpr
            ⟨List.inj_on_of_nodup_map hnames hitem hother hname, ih hrest hothers hmore⟩

end KnowledgeCompiler.Lib.Window
