import KnowledgeCompiler.Parallel.Scheduling

namespace KnowledgeCompiler.Parallel

open Lib

section Comparison

-- One place of a tuple, and what follows it.
theorem place_trans {β : Type} [DecidableEq β] {lt : β → β → Bool} (hirrefl : ∀ a, lt a a = false)
    (htrans : ∀ a b c, lt a b = true → lt b c = true → lt a c = true) {first second third : β}
    {rest rest' rest'' : Bool} (hrest : rest = true → rest' = true → rest'' = true)
    (hfirst : (if first ≠ second then lt first second else rest) = true)
    (hsecond : (if second ≠ third then lt second third else rest') = true) :
    (if first ≠ third then lt first third else rest'') = true := by
  by_cases hone : first = second
  · subst hone
    by_cases htwo : first = third
    · subst htwo
      simp only [ne_eq, not_true_eq_false, if_false] at hfirst hsecond ⊢
      exact hrest hfirst hsecond
    · simpa [htwo] using hsecond
  · rw [if_pos hone] at hfirst
    by_cases htwo : second = third
    · subst htwo
      rw [if_pos hone]
      exact hfirst
    · rw [if_pos htwo] at hsecond
      have hlt := htrans _ _ _ hfirst hsecond
      have hne : first ≠ third := by
        rintro rfl
        rw [hirrefl] at hlt
        cases hlt
      rw [if_pos hne]
      exact hlt

theorem SortKey.lt_trans {first second third : SortKey} (hfirst : first.lt second = true)
    (hsecond : second.lt third = true) : first.lt third = true := by
  unfold SortKey.lt at *
  refine place_trans Binary64.lt_irrefl (fun _ _ _ => Binary64.lt_trans) ?_ hfirst hsecond
  refine place_trans Binary64.lt_irrefl (fun _ _ _ => Binary64.lt_trans) ?_
  refine @place_trans ℕ _ (fun first second => first < second) (by simp) ?_ _ _ _ _ _ _ ?_
  · simp only [decide_eq_true_eq]
    omega
  · simp only [decide_eq_true_eq]
    exact fun h h' => h.trans h'

theorem SortKey.lt_irrefl (key : SortKey) : key.lt key = false := by
  simp [SortKey.lt]

theorem SortKey.lt_or_lt {first second : SortKey} (hid : first.work_id ≠ second.work_id)
    (hfirst : first.effective ≠ .nan ∧ first.estimated_seconds ≠ .nan)
    (hsecond : second.effective ≠ .nan ∧ second.estimated_seconds ≠ .nan) :
    first.lt second = true ∨ second.lt first = true := by
  unfold SortKey.lt
  by_cases heffective : first.effective = second.effective
  · by_cases hestimated : first.estimated_seconds = second.estimated_seconds
    · by_cases hsequence : first.sequence = second.sequence
      · simpa [heffective, hestimated, hsequence] using lt_or_gt_of_ne hid
      · simp [heffective, hestimated, hsequence, Ne.symm hsequence, lt_or_gt_of_ne hsequence]
    · simpa [heffective, hestimated, Ne.symm hestimated] using
        Binary64.lt_or_lt hestimated hfirst.2 hsecond.2
  · simpa [heffective, Ne.symm heffective] using Binary64.lt_or_lt heffective hfirst.1 hsecond.1

end Comparison

namespace FairPriorityQueue

section Aging

theorem max_zero_eq_zero_iff (value : Binary64) :
    (Binary64.finite 0).max value = .finite 0 ↔ (Binary64.finite 0).lt value = false := by
  unfold Binary64.max
  split
  · rename_i hlt
    constructor
    · rintro rfl
      rw [Binary64.lt_irrefl] at hlt
      cases hlt
    · intro h
      rw [hlt] at h
      cases h
  · rename_i hlt
    simpa using hlt

theorem max_zero_ne_nan (value : Binary64) : (Binary64.finite 0).max value ≠ .nan := by
  unfold Binary64.max
  split
  · rename_i hlt
    rintro rfl
    cases hlt
  · simp

theorem not_lt_max_zero (value : Binary64) :
    ((Binary64.finite 0).max value).lt (.finite 0) = false := by
  unfold Binary64.max
  split
  · rename_i hlt
    by_contra h
    have htrans := Binary64.lt_trans hlt (by simpa using h)
    rw [Binary64.lt_irrefl] at htrans
    cases htrans
  · exact Binary64.lt_irrefl _

-- The seconds waited, counted from zero.
theorem waited_eq (microseconds : ℤ) :
    (Binary64.finite 0).max (total_seconds microseconds) =
      .of (max (microseconds / 10 ^ 6 : ℚ) 0) := by
  unfold total_seconds
  rcases le_total ((microseconds : ℚ) / 10 ^ 6) 0 with hle | hle
  · rw [max_eq_right hle]
    have hzero : Binary64.of 0 = .finite 0 := by decide +kernel
    rw [hzero, max_zero_eq_zero_iff]
    exact Binary64.not_lt_of_nonpos hle
  · rw [max_eq_left hle]
    have hzero := @Binary64.eq_zero_of_nonneg _ hle
    by_cases hlt : (Binary64.finite 0).lt (.of (microseconds / 10 ^ 6)) = true
    · exact if_pos hlt
    · rw [hzero (by simpa using hlt), max_zero_eq_zero_iff]
      exact Binary64.lt_irrefl _

theorem pos_of_not_le {aging : ℚ} (haging : (Binary64.finite aging).le (.finite 0) = false) :
    0 < aging := by
  by_contra h
  have hcompare : (Binary64.finite aging).le (.finite 0) = true := by
    simpa [Binary64.le, Binary64.lt] using (not_lt.mp h).lt_or_eq
  rw [hcompare] at haging
  cases haging

-- A longer wait has a quotient no smaller, where its own is finite.
theorem div_mono {first second : ℚ} {aging_seconds : Binary64} {found : ℚ} (hfirst : 0 ≤ first)
    (hle : first ≤ second) (haging : aging_seconds.le (.finite 0) = false)
    (hdiv : (Binary64.of second).div aging_seconds = .finite found) :
    ∃ smaller, (Binary64.of first).div aging_seconds = .finite smaller ∧ smaller ≤ found := by
  cases hsecond : Binary64.of second with
  | nan => rw [hsecond] at hdiv; cases aging_seconds <;> cases hdiv
  | infinity negative => rw [hsecond] at hdiv; cases aging_seconds <;> cases hdiv
  | finite waited =>
    obtain ⟨hlow, hmono, hof⟩ := Binary64.of_mono hfirst hle hsecond
    rw [hsecond] at hdiv
    rw [hof]
    cases aging_seconds with
    | nan => cases hdiv
    | infinity negative =>
      cases hdiv
      exact ⟨0, rfl, le_rfl⟩
    | finite aging =>
      have hpositive := pos_of_not_le haging
      have hquotient := div_le_div_of_nonneg_right hmono hpositive.le
      obtain ⟨-, hbound, hof'⟩ := Binary64.of_mono (div_nonneg hlow hpositive.le) hquotient hdiv
      exact ⟨_, hof', hbound⟩

theorem div_infinity {value : ℚ} {aging_seconds : Binary64} {negative : Bool} (hvalue : 0 ≤ value)
    (haging : aging_seconds.le (.finite 0) = false)
    (hdiv : (Binary64.of value).div aging_seconds = .infinity negative) : negative = false := by
  cases hof : Binary64.of value with
  | nan => exact absurd hof (Binary64.of_ne_nan value)
  | infinity sign =>
    have hsign := Binary64.of_eq_infinity hof
    rw [hof] at hdiv
    cases aging_seconds with
    | nan => cases hdiv
    | infinity _ => cases hdiv
    | finite aging =>
      have hpositive := pos_of_not_le haging
      cases hdiv
      simp [hsign, not_lt.mpr hvalue, not_lt.mpr hpositive.le]
  | finite waited =>
    rw [hof] at hdiv
    cases aging_seconds with
    | nan => cases hdiv
    | infinity _ => cases hdiv
    | finite aging =>
      have hpositive := pos_of_not_le haging
      obtain ⟨rfl, -⟩ := Binary64.of_eq_finite hof
      have hquotient := div_nonneg (Binary64.rounded_nonneg hvalue) hpositive.le
      rw [Binary64.of_eq_infinity hdiv]
      simpa using hquotient

-- A priority that has aged to the floor stays there.
theorem floor_stays (queue : FairPriorityQueue) (item : WorkItem) {now later : ℤ}
    (hle : now ≤ later) (hfloor : (queue._sort_key item now).effective = .finite 0) :
    (queue._sort_key item later).effective = .finite 0 := by
  unfold _sort_key at *
  simp only [waited_eq, max_zero_eq_zero_iff] at *
  obtain ⟨first, hfirst⟩ : ∃ first, first = max (((now - item.enqueued_at : ℤ) : ℚ) / 10 ^ 6) 0 :=
    ⟨_, rfl⟩
  obtain ⟨second, hsecond⟩ :
      ∃ second, second = max (((later - item.enqueued_at : ℤ) : ℚ) / 10 ^ 6) 0 := ⟨_, rfl⟩
  have hmono : first ≤ second := by
    have hcast : ((now - item.enqueued_at : ℤ) : ℚ) ≤ (later - item.enqueued_at : ℤ) := by
      exact_mod_cast (by omega : now - item.enqueued_at ≤ later - item.enqueued_at)
    rw [hfirst, hsecond]
    exact max_le_max_right 0 (div_le_div_of_nonneg_right hcast (by norm_num))
  have hnonneg : 0 ≤ first := hfirst ▸ le_max_right _ _
  rw [← hfirst] at hfloor
  rw [← hsecond]
  by_contra hnot
  have hlt : (Binary64.finite 0).lt ((Binary64.finite item.priority.value).sub
      ((Binary64.of second).div queue._aging_seconds)) = true := by simpa using hnot
  cases hdiv : (Binary64.of second).div queue._aging_seconds with
  | nan => rw [hdiv] at hlt; cases hlt
  | infinity negative =>
    rw [div_infinity (hnonneg.trans hmono) queue.positive hdiv] at hdiv
    rw [hdiv] at hlt
    cases hlt
  | finite found =>
    obtain ⟨smaller, hsmaller, hbound⟩ := div_mono hnonneg hmono queue.positive hdiv
    rw [hsmaller] at hfloor
    rw [hdiv] at hlt
    have hleft : (item.priority.value : ℚ) + -found ≤ item.priority.value + -smaller := by linarith
    by_cases hsign : 0 ≤ (item.priority.value : ℚ) + -found
    · have hcontra := Binary64.lt_of_mono hsign hleft hlt
      rw [Binary64.sub, Binary64.neg, Binary64.add] at hfloor
      rw [hfloor] at hcontra
      cases hcontra
    · have hcontra := Binary64.not_lt_of_nonpos (le_of_not_ge hsign)
      rw [Binary64.sub, Binary64.neg, Binary64.add, hcontra] at hlt
      cases hlt

end Aging

end FairPriorityQueue

inductive QueueCall
  | put (item : WorkItem)
  | pop (now : Datetime)

namespace FairPriorityQueue

def popped (queue : FairPriorityQueue) (now : Datetime) : Option WorkItem :=
  (queue.pop now).toOption.map Prod.fst

-- A call that raises has changed nothing.
def after (queue : FairPriorityQueue) : QueueCall → FairPriorityQueue
  | .put item => (queue.put item).toOption.getD queue
  | .pop now => ((queue.pop now).toOption.map Prod.snd).getD queue

def run (queue : FairPriorityQueue) (calls : List QueueCall) : FairPriorityQueue :=
  calls.foldl after queue

-- The instants the queue is told, in their order.
def clock (calls : List QueueCall) : List ℤ :=
  calls.filterMap fun call =>
    match call with
    | .put _ => none
    | .pop now => if now.utcoffset.isSome then some now.instant else none

-- The work has been in the queue from the start of the calls.
def Throughout (queue : FairPriorityQueue) (calls : List QueueCall) (work_id : String) : Prop :=
  ∀ earlier, earlier <+: calls → work_id ∈ (queue.run earlier)._items.keys

instance (queue : FairPriorityQueue) (calls : List QueueCall) (work_id : String) :
    Decidable (queue.Throughout calls work_id) :=
  decidable_of_iff (∀ earlier ∈ calls.inits, work_id ∈ (queue.run earlier)._items.keys)
    (by simp [Throughout, List.mem_inits])

-- While the item still waits, one that was put later is popped.
def Overtaken (queue : FairPriorityQueue) (calls : List QueueCall) (item : WorkItem) : Prop :=
  ∃ earlier now other, earlier ++ [.pop now] <+: calls ∧
    queue.Throughout earlier item.work_id ∧ (queue.run earlier).popped now = some other ∧
    ¬queue.Throughout earlier other.work_id

-- While the item still waits, no pop finds one that was put later before it.
def Unbeaten (queue : FairPriorityQueue) (calls : List QueueCall) (item : WorkItem) : Prop :=
  ∀ earlier now, earlier ++ [.pop now] <+: calls → now.utcoffset.isSome = true →
    queue.Throughout earlier item.work_id → ∀ other ∈ (queue.run earlier)._items.values,
      ¬queue.Throughout earlier other.work_id →
      (queue.run earlier).before now.instant other item = false

def Served (queue : FairPriorityQueue) (calls : List QueueCall) (item : WorkItem) : Prop :=
  ∃ earlier now, earlier ++ [.pop now] <+: calls ∧ queue.Throughout earlier item.work_id ∧
    (queue.run earlier).popped now = some item

variable {queue next : FairPriorityQueue} {item other : WorkItem} {now : Datetime}

-- The items are kept under their own ids and their estimates are numbers.
structure Ordered (queue : FairPriorityQueue) : Prop where
  keyed : ∀ work_id item, queue._items.get? work_id = some item → item.work_id = work_id
  numbers : ∀ work_id item, queue._items.get? work_id = some item → item.estimated_seconds ≠ .nan

theorem put_cases (queue : FairPriorityQueue) (item : WorkItem) :
    queue.after (.put item) = queue ∨
    (∀ existing ∈ queue._items.get? item.work_id, existing = item) ∧
      queue.after (.put item) = { queue with _items := queue._items.set item.work_id item } := by
  by_cases hother : ∃ existing ∈ queue._items.get? item.work_id, existing ≠ item
  · left
    rw [after, put, if_pos hother]
    rfl
  · right
    refine ⟨?_, ?_⟩
    · intro existing hexisting
      by_contra hne
      exact hother ⟨existing, hexisting, hne⟩
    · rw [after, put, if_neg hother]
      rfl

theorem pop_cases (queue : FairPriorityQueue) (now : Datetime) :
    queue.popped now = none ∧ queue.after (.pop now) = queue ∨
    ∃ item, queue.popped now = some item ∧ now.utcoffset.isSome = true ∧
      firstMin (queue.before now.instant) queue._items.values = some item ∧
      queue.after (.pop now) = { queue with _items := queue._items.erase item.work_id } := by
  cases hpop : queue.pop now with
  | error raised =>
    left
    simp [popped, after, hpop, Except.toOption]
  | ok taken =>
    right
    have hparts := hpop
    unfold pop at hparts
    split at hparts
    · cases hparts
    rename_i haware
    split at hparts
    · cases hparts
    rename_i item hmin
    cases hparts
    exact ⟨item, by simp [popped, hpop, Except.toOption],
      by simpa [Option.isSome_iff_ne_none] using haware, hmin,
      by simp [after, hpop, Except.toOption]⟩

theorem aging_run (queue : FairPriorityQueue) (calls : List QueueCall) :
    (queue.run calls)._aging_seconds = queue._aging_seconds := by
  induction calls using List.reverseRecOn with
  | nil => rfl
  | append_singleton calls call ih =>
    rw [run, List.foldl_append, ← ih]
    change ((queue.run calls).after call)._aging_seconds = _
    cases call with
    | put item =>
      rcases put_cases (queue.run calls) item with h | ⟨-, h⟩ <;> rw [h]
    | pop now =>
      rcases pop_cases (queue.run calls) now with ⟨-, h⟩ | ⟨item, -, -, -, h⟩ <;> rw [h]

theorem run_concat (queue : FairPriorityQueue) (calls : List QueueCall) (call : QueueCall) :
    queue.run (calls ++ [call]) = (queue.run calls).after call := by
  rw [run, List.foldl_append]
  rfl

theorem Ordered.after (hordered : queue.Ordered) {call : QueueCall}
    (hnumber : ∀ item, call = .put item → item.estimated_seconds ≠ .nan) :
    (queue.after call).Ordered := by
  cases call with
  | put item =>
    rcases put_cases queue item with h | ⟨-, h⟩
    · rw [h]
      exact hordered
    · rw [h]
      constructor
      · intro work_id found hget
        rw [Dict.get?_set] at hget
        split at hget
        · rename_i hid
          rw [← Option.some.inj hget, hid]
        · exact hordered.keyed work_id found hget
      · intro work_id found hget
        rw [Dict.get?_set] at hget
        split at hget
        · rw [← Option.some.inj hget]
          exact hnumber item rfl
        · exact hordered.numbers work_id found hget
  | pop now =>
    rcases pop_cases queue now with ⟨-, h⟩ | ⟨item, -, -, -, h⟩
    · rw [h]
      exact hordered
    · rw [h]
      constructor
      · intro work_id found hget
        rw [Dict.get?_erase] at hget
        split at hget
        · cases hget
        · exact hordered.keyed work_id found hget
      · intro work_id found hget
        rw [Dict.get?_erase] at hget
        split at hget
        · cases hget
        · exact hordered.numbers work_id found hget

theorem Ordered.run (hordered : queue.Ordered) {calls : List QueueCall}
    (hnumbers : ∀ item, QueueCall.put item ∈ calls → item.estimated_seconds ≠ .nan) :
    (queue.run calls).Ordered := by
  induction calls using List.reverseRecOn with
  | nil => exact hordered
  | append_singleton calls call ih =>
    rw [run_concat]
    have hearlier := ih fun item hitem => hnumbers item (List.mem_append_left _ hitem)
    exact hearlier.after fun item hcall => hnumbers item (by simp [hcall])

theorem get?_of_mem_values (hordered : queue.Ordered) (hitem : item ∈ queue._items.values) :
    queue._items.get? item.work_id = some item := by
  obtain ⟨⟨work_id, found⟩, hentry, rfl⟩ := List.mem_map.mp hitem
  have hget := (Dict.mem_entries_iff _ _ _).mp hentry
  rw [hordered.keyed work_id found hget]
  exact hget

theorem mem_values_of_get? {work_id : String} (hget : queue._items.get? work_id = some item) :
    item ∈ queue._items.values :=
  List.mem_map.mpr ⟨(work_id, item), (Dict.mem_entries_iff _ _ _).mpr hget, rfl⟩

-- What a pop takes comes before all that stays.
theorem before_of_popped (hordered : queue.Ordered) (hpopped : queue.popped now = some item)
    (hother : other ∈ queue._items.values) (hne : other.work_id ≠ item.work_id) :
    item ∈ queue._items.values ∧ now.utcoffset.isSome = true ∧
      queue.before now.instant item other = true := by
  rcases pop_cases queue now with ⟨hnone, -⟩ | ⟨found, hfound, haware, hmin, -⟩
  · rw [hnone] at hpopped
    cases hpopped
  obtain rfl := Option.some.inj (hfound.symm.trans hpopped)
  have htotal : ∀ a ∈ queue._items.values, ∀ b ∈ queue._items.values, a ≠ b →
      queue.before now.instant a b = true ∨ queue.before now.instant b a = true := by
    intro a ha b hb hab
    have hget_a := get?_of_mem_values hordered ha
    have hget_b := get?_of_mem_values hordered hb
    refine SortKey.lt_or_lt ?_ ⟨max_zero_ne_nan _, hordered.numbers _ a hget_a⟩
      ⟨max_zero_ne_nan _, hordered.numbers _ b hget_b⟩
    intro hid
    change a.work_id = b.work_id at hid
    rw [hid] at hget_a
    exact hab (Option.some.inj (hget_a.symm.trans hget_b))
  have htrans : ∀ a b c, queue.before now.instant a b = true →
      queue.before now.instant b c = true → queue.before now.instant a c = true :=
    fun _ _ _ h h' => SortKey.lt_trans h h'
  obtain ⟨hmem, hleast⟩ := firstMin_spec htrans htotal hmin
  exact ⟨hmem, haware, hleast other hother fun h => hne (by rw [h])⟩

theorem before_asymm {instant : ℤ} (hbefore : queue.before instant item other = true) :
    queue.before instant other item = false := by
  by_contra h
  have htrans := SortKey.lt_trans hbefore (by simpa using h : queue.before instant other item = true)
  rw [SortKey.lt_irrefl] at htrans
  cases htrans

-- Before an item on the floor there is only another on the floor, and it stays before it.
theorem before_stays {instant later : ℤ} (hle : instant ≤ later)
    (hfloor : (queue._sort_key item instant).effective = .finite 0)
    (hbefore : queue.before instant other item = true) :
    queue.before later other item = true := by
  have hitem := floor_stays queue item hle hfloor
  have hother : (queue._sort_key other instant).effective = .finite 0 := by
    by_contra hne
    have hlt := hbefore
    rw [before, SortKey.lt, hfloor, if_pos hne] at hlt
    have hnot := not_lt_max_zero ((Binary64.finite other.priority.value).sub
      (((Binary64.finite 0).max (total_seconds (instant - other.enqueued_at))).div
        queue._aging_seconds))
    rw [_sort_key, hnot] at hlt
    cases hlt
  have hother' := floor_stays queue other hle hother
  rw [before, SortKey.lt] at hbefore ⊢
  rw [hother, hfloor] at hbefore
  rw [hother', hitem]
  exact hbefore

theorem Throughout.earlier {calls earlier : List QueueCall} {work_id : String}
    (hthroughout : queue.Throughout calls work_id) (hearlier : earlier <+: calls) :
    queue.Throughout earlier work_id := fun first hfirst => hthroughout first (hfirst.trans hearlier)

-- Until it is popped, an item stays that was in the queue once.
theorem stays_until_popped {calls : List QueueCall} (hitem : queue._items.get? item.work_id = some item)
    (hpops : ∀ earlier now, earlier ++ [.pop now] <+: calls →
      ∀ taken, (queue.run earlier).popped now = some taken → taken.work_id ≠ item.work_id) :
    (queue.run calls)._items.get? item.work_id = some item := by
  induction calls using List.reverseRecOn with
  | nil => exact hitem
  | append_singleton calls call ih =>
    have hearlier := ih fun earlier now h => hpops earlier now (h.trans (List.prefix_append _ _))
    rw [run_concat]
    cases call with
    | put other =>
      rcases put_cases (queue.run calls) other with h | ⟨hsame, h⟩
      · rw [h]
        exact hearlier
      · rw [h, Dict.get?_set]
        split
        · rename_i hid
          rw [hsame item (by rw [← hid]; exact hearlier)]
        · exact hearlier
    | pop now =>
      rcases pop_cases (queue.run calls) now with ⟨-, h⟩ | ⟨taken, htaken, -, -, h⟩
      · rw [h]
        exact hearlier
      · rw [h, Dict.get?_erase]
        split
        · rename_i hid
          exact absurd hid.symm (hpops calls now List.prefix_rfl taken htaken)
        · exact hearlier

-- What waits throughout is the same item throughout.
theorem kept_of_throughout {calls : List QueueCall}
    (hitem : queue._items.get? item.work_id = some item)
    (hthroughout : queue.Throughout calls item.work_id) :
    (queue.run calls)._items.get? item.work_id = some item := by
  refine stays_until_popped hitem ?_
  intro earlier now hearlier taken htaken hid
  have hstill := hthroughout _ hearlier
  rw [run_concat] at hstill
  rcases pop_cases (queue.run earlier) now with ⟨hnone, -⟩ | ⟨found, hfound, -, -, h⟩
  · rw [hnone] at htaken
    cases htaken
  · obtain rfl := Option.some.inj (hfound.symm.trans htaken)
    rw [h, Dict.mem_keys_iff, Dict.get?_erase, if_pos hid.symm] at hstill
    obtain ⟨_, hstill⟩ := hstill
    cases hstill

theorem clock_append (first second : List QueueCall) :
    clock (first ++ second) = clock first ++ clock second := List.filterMap_append

theorem clock_pop (haware : now.utcoffset.isSome = true) : clock [.pop now] = [now.instant] := by
  simp [clock, haware]

-- A pop does not come before the start, nor a later one before an earlier one.
theorem le_of_clock {calls earlier : List QueueCall} {since : ℤ}
    (hclock : (since :: clock calls).Pairwise (· ≤ ·)) (hearlier : earlier ++ [.pop now] <+: calls)
    (haware : now.utcoffset.isSome = true) : since ≤ now.instant := by
  obtain ⟨rest, rfl⟩ := hearlier
  refine (List.pairwise_cons.mp hclock).1 now.instant ?_
  simp only [clock_append, clock_pop haware, List.mem_append, List.mem_singleton, or_true, true_or]

theorem le_of_clock_of_earlier {calls earlier last : List QueueCall} {since : ℤ} {later : Datetime}
    (hclock : (since :: clock calls).Pairwise (· ≤ ·)) (hearlier : earlier ++ [.pop now] <+: last)
    (hlast : last ++ [.pop later] <+: calls) (haware : now.utcoffset.isSome = true)
    (haware' : later.utcoffset.isSome = true) : now.instant ≤ later.instant := by
  obtain ⟨between, rfl⟩ := hearlier
  obtain ⟨rest, rfl⟩ := hlast
  have hsorted := (List.pairwise_cons.mp hclock).2
  simp only [clock_append, clock_pop haware, clock_pop haware', List.append_assoc,
    List.pairwise_append] at hsorted
  exact hsorted.2.1.2.2 now.instant (by simp) later.instant (by simp)

section Waiting

variable {calls : List QueueCall} {since : ℤ}

theorem unbeaten_not_overtaken (hordered : queue.Ordered)
    (hnumbers : ∀ item, QueueCall.put item ∈ calls → item.estimated_seconds ≠ .nan)
    (hitem : queue._items.get? item.work_id = some item)
    (hunbeaten : queue.Unbeaten calls item) : ¬queue.Overtaken calls item := by
  rintro ⟨earlier, now, other, hearlier, hwaits, hpopped, hlate⟩
  have hpart : earlier <+: calls := (List.prefix_append _ _).trans hearlier
  have hnumbers' : ∀ item, QueueCall.put item ∈ earlier → item.estimated_seconds ≠ .nan :=
    fun item hput => hnumbers item (hpart.subset hput)
  have hrun := hordered.run hnumbers'
  have hkept := mem_values_of_get? (kept_of_throughout hitem hwaits)
  have hne : item.work_id ≠ other.work_id := fun h => hlate (h ▸ hwaits)
  obtain ⟨hmem, haware, hbefore⟩ := before_of_popped hrun hpopped hkept hne
  rw [hunbeaten earlier now hearlier haware hwaits other hmem hlate] at hbefore
  cases hbefore

theorem before_run (queue : FairPriorityQueue) (calls : List QueueCall) :
    (queue.run calls).before = queue.before := by
  funext instant first second
  simp only [before, _sort_key, aging_run]

theorem run_append (queue : FairPriorityQueue) (first second : List QueueCall) :
    queue.run (first ++ second) = (queue.run first).run second := List.foldl_append

-- A pop at which the item waits is the one that serves it or an earlier one.
theorem no_later_than_served {earlier last : List QueueCall} {later : Datetime}
    (hearlier : earlier ++ [.pop now] <+: calls) (hlast : last ++ [.pop later] <+: calls)
    (hwaits : queue.Throughout earlier item.work_id)
    (hserved : (queue.run last).popped later = some item) :
    earlier = last ∧ now = later ∨ earlier ++ [.pop now] <+: last := by
  rcases List.prefix_or_prefix_of_prefix hearlier hlast with h | h
  · rcases List.prefix_concat_iff.mp h with heq | hshorter
    · exact .inl (by simpa using heq)
    · exact .inr hshorter
  · rcases List.prefix_concat_iff.mp h with heq | hshorter
    · left
      have hboth : last = earlier ∧ later = now := by simpa using heq
      exact ⟨hboth.1.symm, hboth.2.symm⟩
    · -- it would be gone by then
      exfalso
      have hstill := hwaits _ hshorter
      rw [run_concat] at hstill
      rcases pop_cases (queue.run last) later with ⟨hnone, -⟩ | ⟨found, hfound, -, -, hafter⟩
      · rw [hnone] at hserved
        cases hserved
      · obtain rfl := Option.some.inj (hfound.symm.trans hserved)
        rw [hafter, Dict.mem_keys_iff, Dict.get?_erase, if_pos rfl] at hstill
        obtain ⟨_, hstill⟩ := hstill
        cases hstill

theorem served_unbeaten (hordered : queue.Ordered)
    (hnumbers : ∀ item, QueueCall.put item ∈ calls → item.estimated_seconds ≠ .nan)
    (haged : (queue._sort_key item since).effective = .finite 0)
    (hclock : (since :: clock calls).Pairwise (· ≤ ·)) (hserved : queue.Served calls item)
    (hnot : ¬queue.Overtaken calls item) : queue.Unbeaten calls item := by
  intro earlier now hearlier haware hwaits other hother hlate
  by_contra hbeaten
  have hbefore : queue.before now.instant other item = true := by
    rw [before_run] at hbeaten
    simpa using hbeaten
  obtain ⟨last, later, hlast, hwaits', hpopped⟩ := hserved
  have horder := no_later_than_served hearlier hlast hwaits hpopped
  have hpart : last <+: calls := (List.prefix_append _ _).trans hlast
  have hnumbers' : ∀ item, QueueCall.put item ∈ last → item.estimated_seconds ≠ .nan :=
    fun item hput => hnumbers item (hpart.subset hput)
  obtain ⟨between, rfl⟩ : earlier <+: last := by
    rcases horder with ⟨rfl, -⟩ | h
    · exact List.prefix_rfl
    · exact (List.prefix_append _ _).trans h
  have hrun := hordered.run fun item hput => hnumbers' item (List.mem_append_left between hput)
  have hstays : (queue.run (earlier ++ between))._items.get? other.work_id = some other := by
    rw [run_append]
    refine stays_until_popped (get?_of_mem_values hrun hother) ?_
    rintro middle moment ⟨rest, rfl⟩ taken htaken hid
    rw [← run_append] at htaken
    have hmiddle : earlier ++ middle <+: earlier ++ (middle ++ [.pop moment] ++ rest) := by
      rw [List.append_assoc middle, List.prefix_append_right_inj]
      exact List.prefix_append _ _
    refine hnot ⟨earlier ++ middle, moment, taken, ?_, hwaits'.earlier hmiddle, htaken, ?_⟩
    · refine List.IsPrefix.trans ?_ hpart
      rw [← List.append_assoc, ← List.append_assoc]
      exact List.prefix_append _ _
    · intro hthroughout
      rw [hid] at hthroughout
      exact hlate (hthroughout.earlier (List.prefix_append _ _))
  have hne : other.work_id ≠ item.work_id := fun h => hlate (h ▸ hwaits)
  obtain ⟨-, haware', hfirst⟩ := before_of_popped (hordered.run hnumbers') hpopped
    (mem_values_of_get? hstays) hne
  have hle : now.instant ≤ later.instant := by
    rcases horder with ⟨-, rfl⟩ | h
    · exact le_rfl
    · exact le_of_clock_of_earlier hclock h hlast haware haware'
  have hfloor := floor_stays queue item (le_of_clock hclock hearlier haware) haged
  have hstill := before_stays hle hfloor hbefore
  rw [before_run] at hfirst
  rw [before_asymm hfirst] at hstill
  cases hstill

end Waiting

theorem ordered_opened {aging_seconds : Binary64} (hopened : opened aging_seconds = .ok queue) :
    queue.Ordered := by
  unfold opened at hopened
  split at hopened
  · cases hopened
    exact ⟨fun _ _ hget => (by cases hget), fun _ _ hget => (by cases hget)⟩
  · cases hopened

-- An item whose priority has aged to the floor is overtaken by one put later exactly when, at a pop
-- while it waits, one put later is before it.
theorem aged_overtaken_iff {aging_seconds : Binary64} (hopened : opened aging_seconds = .ok queue)
    (first calls : List QueueCall)
    (hnumbers : ∀ item, QueueCall.put item ∈ first ++ calls → item.estimated_seconds ≠ .nan)
    (item : WorkItem) (hqueued : item ∈ (queue.run first)._items.values) (since : ℤ)
    (haged : ((queue.run first)._sort_key item since).effective = .finite 0)
    (hclock : (since :: clock calls).Pairwise (· ≤ ·)) :
    ((queue.run first).Unbeaten calls item → ¬(queue.run first).Overtaken calls item) ∧
    ((queue.run first).Served calls item →
      (¬(queue.run first).Overtaken calls item ↔ (queue.run first).Unbeaten calls item)) := by
  have hordered := (ordered_opened hopened).run fun item hput =>
    hnumbers item (List.mem_append_left calls hput)
  have hlater : ∀ item, QueueCall.put item ∈ calls → item.estimated_seconds ≠ .nan :=
    fun item hput => hnumbers item (List.mem_append_right first hput)
  have hitem := get?_of_mem_values hordered hqueued
  have hforward := unbeaten_not_overtaken hordered hlater hitem
  exact ⟨hforward, fun hserved =>
    ⟨served_unbeaten hordered hlater haged hclock hserved, hforward⟩⟩

section Export

-- A background job that has waited out its priority, and a quick one that comes then.
def queue_time : Datetime where
  year := 2021
  month := 8
  day := 9
  hour := 10
  minute := 11
  second := 12
  microsecond := 0
  utcoffset := some 14400000000
  year_range := by decide
  month_range := by decide
  day_range := by decide
  time_range := by decide
  offset_range := by decide

def nightly_export : WorkItem where
  work_id := "nightly-export"
  shard_id := "shard-1"
  priority := .BULK_BACKGROUND
  estimated_seconds := .finite 60
  required_capabilities := ∅
  model_cache_key := "model-7"
  enqueued_at := queue_time.instant - 120000000
  sequence := 1
  checked := by decide +kernel

def quick_look : WorkItem where
  work_id := "quick-look"
  shard_id := "shard-2"
  priority := .TINY_QUICK
  estimated_seconds := .finite 1
  required_capabilities := ∅
  model_cache_key := "model-7"
  enqueued_at := queue_time.instant
  sequence := 2
  checked := by decide +kernel

def half_minute_queue : FairPriorityQueue := ⟨.finite 30, .empty, by decide +kernel⟩

theorem aged_export_overtaken :
    let reached := half_minute_queue.run [.put nightly_export]
    (reached._sort_key nightly_export queue_time.instant).effective = .finite 0 ∧
    reached.Overtaken [.put quick_look, .pop queue_time] nightly_export := by
  refine ⟨by decide +kernel, [.put quick_look], queue_time, quick_look, List.prefix_rfl, ?_, ?_, ?_⟩
  · decide
  · decide +kernel
  · decide

theorem export_overtaken_iff :
    let reached := half_minute_queue.run [.put nightly_export]
    reached.Unbeaten [.pop queue_time, .put quick_look] nightly_export →
      ¬reached.Overtaken [.pop queue_time, .put quick_look] nightly_export := by
  refine (aged_overtaken_iff (rfl : opened (.finite 30) = .ok half_minute_queue)
    [.put nightly_export] [.pop queue_time, .put quick_look] ?_ nightly_export ?_
    queue_time.instant ?_ ?_).1
  · intro item hput
    have hitem : item = nightly_export ∨ item = quick_look := by simpa using hput
    rcases hitem with rfl | rfl <;> decide
  · decide
  · decide +kernel
  · decide

end Export

end FairPriorityQueue

end KnowledgeCompiler.Parallel
