import Mathlib.Data.List.Basic
import Mathlib.Data.List.MinMax

namespace KnowledgeCompiler.Lib

variable {α : Type*}

-- `min(items, key=...)`: the first item that no other one is before.
def firstMin (before : α → α → Bool) : List α → Option α
  | [] => none
  | first :: rest =>
      some (rest.foldl (fun best item => if before item best then item else best) first)

section Laws

variable {before : α → α → Bool}

theorem firstMin_eq_none_iff {items : List α} : firstMin before items = none ↔ items = [] := by
  cases items <;> simp [firstMin]

theorem foldl_min_mem (rest : List α) (first : α) :
    rest.foldl (fun best item => if before item best then item else best) first ∈ first :: rest := by
  induction rest generalizing first with
  | nil => exact List.mem_cons_self
  | cons item rest ih =>
      rw [List.foldl_cons]
      split
      · exact List.mem_cons_of_mem _ (ih item)
      · rcases List.mem_cons.mp (ih first) with heq | hmem
        · rw [heq]
          exact List.mem_cons_self
        · exact List.mem_cons_of_mem _ (List.mem_cons_of_mem _ hmem)

theorem firstMin_mem {items : List α} {best : α} (hbest : firstMin before items = some best) :
    best ∈ items := by
  cases items with
  | nil => cases hbest
  | cons first rest =>
      obtain rfl := Option.some.inj hbest
      exact foldl_min_mem rest first

-- Where the order is total on the items, the minimum is before all others.
theorem foldl_min (htrans : ∀ a b c, before a b = true → before b c = true → before a c = true)
    (first : α) (rest : List α)
    (htotal : ∀ a ∈ first :: rest, ∀ b ∈ first :: rest, a ≠ b →
      before a b = true ∨ before b a = true) :
    let best := rest.foldl (fun best item => if before item best then item else best) first
    best ∈ first :: rest ∧ ∀ item ∈ first :: rest, item ≠ best → before best item = true := by
  induction rest generalizing first with
  | nil => simp
  | cons second rest ih =>
    simp only [List.foldl_cons]
    -- the better of the first two stands for both
    obtain ⟨kept, hkept⟩ : ∃ kept, kept = if before second first then second else first := ⟨_, rfl⟩
    have hmem : kept = first ∨ kept = second := by
      rw [hkept]
      split
      · exact .inr rfl
      · exact .inl rfl
    have hboth : ∀ a ∈ kept :: rest, a ∈ first :: second :: rest := by
      intro a ha
      rcases List.mem_cons.mp ha with rfl | ha
      · rcases hmem with h | h <;> simp [h]
      · simp [ha]
    obtain ⟨hbest, hleast⟩ := ih kept fun a ha b hb => htotal a (hboth a ha) b (hboth b hb)
    rw [← hkept]
    refine ⟨hboth _ hbest, ?_⟩
    intro item hitem hne
    by_cases hlater : item ∈ kept :: rest
    · exact hleast item hlater hne
    · -- the one of the first two that was dropped
      have hdropped : item ≠ kept := fun h => hlater (by simp [h])
      have hfirst : before kept item = true := by
        rcases List.mem_cons.mp hitem with rfl | hitem
        · by_cases hsecond : before second item = true
          · rw [hkept, if_pos hsecond]
            exact hsecond
          · exact absurd (by rw [hkept, if_neg hsecond]) hdropped
        rcases List.mem_cons.mp hitem with rfl | hitem
        · have hsecond : before item first = false := by
            by_contra h
            exact hdropped (by rw [hkept, if_pos (by simpa using h)])
          have hkeep : kept = first := by rw [hkept, if_neg (by simp [hsecond])]
          rw [hkeep]
          have hne' : first ≠ item := fun h => hdropped (by rw [hkeep, h])
          exact (htotal first (by simp) item (by simp) hne').resolve_right (by simp [hsecond])
        · exact absurd (List.mem_cons_of_mem _ hitem) hlater
      by_cases hsame : kept = rest.foldl (fun best item => if before item best then item else best) kept
      · rw [← hsame]
        exact hfirst
      · exact htrans _ _ _ (hleast kept List.mem_cons_self hsame) hfirst

theorem firstMin_spec {items : List α} {best : α}
    (htrans : ∀ a b c, before a b = true → before b c = true → before a c = true)
    (htotal : ∀ a ∈ items, ∀ b ∈ items, a ≠ b → before a b = true ∨ before b a = true)
    (hbest : firstMin before items = some best) :
    best ∈ items ∧ ∀ item ∈ items, item ≠ best → before best item = true := by
  cases items with
  | nil => cases hbest
  | cons first rest =>
    cases hbest
    exact foldl_min htrans first rest htotal

end Laws

-- The greatest of the items that are seen, by a key that tells items apart.
section Greatest

variable {κ : Type*} [LinearOrder κ] {key : α → κ} {items : List α} {seen : α → Bool}

theorem argmax_filter_eq_some_iff (hkey : ∀ a ∈ items, ∀ b ∈ items, key a = key b → a = b)
    {best : α} :
    (items.filter seen).argmax key = some best ↔
      best ∈ items ∧ seen best = true ∧ ∀ other ∈ items, seen other = true → key other ≤ key best := by
  constructor
  · intro hbest
    obtain ⟨hmem, hseen⟩ := List.mem_filter.mp (List.argmax_mem hbest)
    exact ⟨hmem, hseen, fun other hother hseen =>
      List.le_of_mem_argmax (List.mem_filter.mpr ⟨hother, hseen⟩) hbest⟩
  · rintro ⟨hmem, hseen, hgreatest⟩
    cases hfound : (items.filter seen).argmax key with
    | none =>
        rw [List.argmax_eq_none] at hfound
        exact absurd (List.mem_filter.mpr ⟨hmem, hseen⟩) (hfound ▸ List.not_mem_nil)
    | some found =>
        obtain ⟨hin, hfits⟩ := List.mem_filter.mp (List.argmax_mem hfound)
        have hle := List.le_of_mem_argmax (List.mem_filter.mpr ⟨hmem, hseen⟩) hfound
        exact congrArg some (hkey found hin best hmem (le_antisymm (hgreatest found hin hfits) hle))

theorem argmax_filter_eq_none_iff :
    (items.filter seen).argmax key = none ↔ ∀ item ∈ items, seen item = false := by
  simp [List.filter_eq_nil_iff]

variable {more : List α} {allowed : α → Bool}

-- `allowed` holds of all items up to some key, and of none that `more` has besides `items`.
-- What else is seen gives the same greatest item as `allowed`, with and without the items of
-- `more`, exactly when only allowed items are seen and the greatest allowed one is.
theorem argmax_agree_iff (hkey : ∀ a ∈ more, ∀ b ∈ more, key a = key b → a = b)
    (hmore : items ⊆ more) (hdown : ∀ a b, key a ≤ key b → allowed b = true → allowed a = true)
    (hnew : ∀ item ∈ more, allowed item = true → item ∈ items) :
    ((items.filter seen).argmax key = (items.filter allowed).argmax key ∧
        (more.filter seen).argmax key = (items.filter seen).argmax key) ↔
      (∀ item ∈ more, seen item = true → allowed item = true) ∧
        ∀ best, (items.filter allowed).argmax key = some best → seen best = true := by
  have hitems : ∀ a ∈ items, ∀ b ∈ items, key a = key b → a = b :=
    fun a ha b hb => hkey a (hmore ha) b (hmore hb)
  constructor
  · rintro ⟨hsame, hstable⟩
    refine ⟨fun item hitem hseen => ?_, fun best hbest => ?_⟩
    · cases hfound : (more.filter seen).argmax key with
      | none =>
          have hnone := argmax_filter_eq_none_iff.mp hfound item hitem
          exact absurd (hseen.symm.trans hnone) (by decide)
      | some found =>
          have hle := ((argmax_filter_eq_some_iff hkey).mp hfound).2.2 item hitem hseen
          rw [← hstable, hfound] at hsame
          exact hdown item found hle ((argmax_filter_eq_some_iff hitems).mp hsame.symm).2.1
    · rw [← hsame] at hbest
      exact ((argmax_filter_eq_some_iff hitems).mp hbest).2.1
  · rintro ⟨honly, hbest⟩
    cases hfound : (items.filter allowed).argmax key with
    | none =>
        have hnone := argmax_filter_eq_none_iff.mp hfound
        have hunseen : ∀ item ∈ more, seen item = false := by
          intro item hitem
          by_contra hseen
          have hallowed := honly item hitem (Bool.not_eq_false _ ▸ hseen)
          exact absurd (hallowed.symm.trans (hnone item (hnew item hitem hallowed))) (by decide)
        rw [argmax_filter_eq_none_iff.mpr hunseen,
          argmax_filter_eq_none_iff.mpr (fun item hitem => hunseen item (hmore hitem))]
        exact ⟨rfl, rfl⟩
    | some best =>
        obtain ⟨hmem, hallowed, hgreatest⟩ := (argmax_filter_eq_some_iff hitems).mp hfound
        have hseen := hbest best hfound
        have hinner : (items.filter seen).argmax key = some best :=
          (argmax_filter_eq_some_iff hitems).mpr ⟨hmem, hseen, fun other hother hother_seen =>
            hgreatest other hother (honly other (hmore hother) hother_seen)⟩
        have houter : (more.filter seen).argmax key = some best :=
          (argmax_filter_eq_some_iff hkey).mpr ⟨hmore hmem, hseen, fun other hother hother_seen =>
            have hother_allowed := honly other hother hother_seen
            hgreatest other (hnew other hother hother_allowed) hother_allowed⟩
        rw [hinner, houter]
        exact ⟨rfl, rfl⟩

end Greatest

end KnowledgeCompiler.Lib
