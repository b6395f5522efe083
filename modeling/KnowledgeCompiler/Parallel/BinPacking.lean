import KnowledgeCompiler.Lib.Bins
import KnowledgeCompiler.Parallel.Scheduling
import Mathlib.Algebra.Order.Ring.Rat
import Mathlib.Data.List.Sort

namespace KnowledgeCompiler.Parallel

open Lib

-- A work item whose seconds are exact.
structure ExactWorkItem where
  work_id : String
  shard_id : String
  priority : JobPriority
  estimated_seconds : ℚ
  required_capabilities : Finset String
  model_cache_key : String
  enqueued_at : ℤ
  sequence : ℕ
  checked : (work_id ≠ "" ∧ shard_id ≠ "" ∧ model_cache_key ≠ "") ∧ 0 ≤ estimated_seconds
deriving DecidableEq

-- `(-value.estimated_seconds, value.work_id)`
def ExactWorkItem.packed_before (first second : ExactWorkItem) : Bool :=
  if first.estimated_seconds ≠ second.estimated_seconds then
    second.estimated_seconds < first.estimated_seconds
  else first.work_id ≤ second.work_id

structure Packing where
  loads : Dict String ℚ
  assignments : Dict String (List ExactWorkItem)

namespace Packing

def opened (worker_ids : List String) : Packing where
  loads := .ofPairs (worker_ids.map (·, 0))
  assignments := .ofPairs (worker_ids.map (·, []))

def load (packing : Packing) (worker_id : String) : ℚ := (packing.loads.get? worker_id).getD 0

-- `(loads[value], value)`
def lighter (packing : Packing) (first second : String) : Bool :=
  if packing.load first ≠ packing.load second then packing.load first < packing.load second
  else first < second

def place (worker_ids : List String) (packing : Packing) (item : ExactWorkItem) : Packing :=
  match firstMin packing.lighter worker_ids with
  | none => packing
  | some worker_id =>
      { loads := packing.loads.set worker_id (packing.load worker_id + item.estimated_seconds)
        assignments := packing.assignments.appendTo worker_id item }

end Packing

def size_aware_bin_pack (work : List ExactWorkItem) (worker_ids : List String) :
    Except QueueFault (Dict String (List ExactWorkItem)) :=
  if worker_ids = [] ∨ ¬worker_ids.Nodup then
    .error (.value_error "unique worker ids are required")
  else
    let ordered := work.insertionSort (fun first second => first.packed_before second = true)
    .ok (ordered.foldl (Packing.place worker_ids) (.opened worker_ids)).assignments

section Packed

def total_seconds (items : List ExactWorkItem) : ℚ := (items.map ExactWorkItem.estimated_seconds).sum

-- The largest estimate, 0 where there is no item.
def largest_seconds (work : List ExactWorkItem) : ℚ :=
  (work.map ExactWorkItem.estimated_seconds).foldr max 0

theorem le_largest_seconds {work : List ExactWorkItem} {item : ExactWorkItem} (hitem : item ∈ work) :
    item.estimated_seconds ≤ largest_seconds work := by
  induction work with
  | nil => cases hitem
  | cons first rest ih =>
      rcases List.mem_cons.mp hitem with rfl | hrest
      · exact le_max_left _ _
      · exact (ih hrest).trans (le_max_right _ _)

theorem largest_seconds_nonneg (work : List ExactWorkItem) : 0 ≤ largest_seconds work := by
  cases work with
  | nil => exact le_refl 0
  | cons first rest => exact first.checked.2.trans (le_largest_seconds List.mem_cons_self)

-- What holds after every placement.
structure Packing.Packed (packing : Packing) (worker_ids : List String) (placed : List ExactWorkItem)
    (bound : ℚ) : Prop where
  workers : packing.assignments.keys = worker_ids
  loaded : ∀ worker_id items, packing.assignments.get? worker_id = some items →
    packing.load worker_id = total_seconds items
  partition : packing.assignments.values.flatten.Perm placed
  balanced : Balanced worker_ids bound packing.load

namespace Packing.Packed

variable {packing : Packing} {worker_ids : List String} {placed : List ExactWorkItem} {bound : ℚ}

theorem exists_least (hne : worker_ids ≠ []) :
    ∃ worker_id, firstMin packing.lighter worker_ids = some worker_id ∧ worker_id ∈ worker_ids ∧
      ∀ other ∈ worker_ids, packing.load worker_id ≤ packing.load other := by
  obtain ⟨worker_id, hmin⟩ : ∃ worker_id, firstMin packing.lighter worker_ids = some worker_id :=
    Option.ne_none_iff_exists'.mp fun h => hne (firstMin_eq_none_iff.mp h)
  have htrans : ∀ a b c, packing.lighter a b = true → packing.lighter b c = true →
      packing.lighter a c = true := by
    intro a b c hab hbc
    unfold lighter at hab hbc ⊢
    split_ifs at hab hbc ⊢ <;> simp only [decide_eq_true_eq, not_not] at * <;> grind
  have htotal : ∀ a ∈ worker_ids, ∀ b ∈ worker_ids, a ≠ b →
      packing.lighter a b = true ∨ packing.lighter b a = true := by
    intro a _ b _ hab
    unfold lighter
    by_cases hload : packing.load a = packing.load b
    · simpa [hload] using lt_or_gt_of_ne hab
    · simp [hload, Ne.symm hload, lt_or_gt_of_ne hload]
  obtain ⟨hmem, hleast⟩ := firstMin_spec htrans htotal hmin
  refine ⟨worker_id, hmin, hmem, ?_⟩
  intro other hother
  by_cases heq : other = worker_id
  · rw [heq]
  · have hbefore := hleast other hother heq
    unfold lighter at hbefore
    split_ifs at hbefore with hload
    · exact (of_decide_eq_true hbefore).le
    · exact (not_not.mp hload).le

theorem place (hpacked : packing.Packed worker_ids placed bound) (hne : worker_ids ≠ [])
    {item : ExactWorkItem} (hitem : item.estimated_seconds ≤ bound) :
    (packing.place worker_ids item).Packed worker_ids (item :: placed) bound := by
  obtain ⟨worker_id, hmin, hmem, hleast⟩ := exists_least hne
  have hkey : worker_id ∈ packing.assignments.keys := hpacked.workers ▸ hmem
  obtain ⟨filled, hfilled⟩ := (packing.assignments.mem_keys_iff worker_id).mp hkey
  have hload : (packing.place worker_ids item).load =
      Function.update packing.load worker_id (packing.load worker_id + item.estimated_seconds) := by
    funext other
    rw [Function.update_apply, Packing.place, hmin, load, Dict.get?_set]
    split <;> rfl
  have hassigned : (packing.place worker_ids item).assignments =
      packing.assignments.appendTo worker_id item := by
    rw [Packing.place, hmin]
  constructor
  · rw [hassigned, Dict.keys_appendTo _ _ hkey, hpacked.workers]
  · intro other items hitems
    rw [hassigned, Dict.get?_appendTo, hfilled] at hitems
    rw [hload]
    by_cases heq : other = worker_id
    · rw [if_pos heq] at hitems
      obtain rfl := Option.some.inj hitems
      rw [heq, Function.update_self, hpacked.loaded worker_id filled hfilled]
      simp [total_seconds]
    · rw [if_neg heq] at hitems
      rw [Function.update_of_ne heq]
      exact hpacked.loaded other items hitems
  · rw [hassigned]
    exact (Dict.flatten_appendTo _ _ hkey).trans (hpacked.partition.cons item)
  · rw [hload]
    exact hpacked.balanced.add hleast item.checked.2 hitem

theorem run (hpacked : packing.Packed worker_ids placed bound) (hne : worker_ids ≠ [])
    (work : List ExactWorkItem) (hwork : ∀ item ∈ work, item.estimated_seconds ≤ bound) :
    (work.foldl (Packing.place worker_ids) packing).Packed worker_ids (work.reverse ++ placed)
      bound := by
  induction work generalizing packing placed with
  | nil => exact hpacked
  | cons item rest ih =>
      have hfirst := hpacked.place hne (hwork item List.mem_cons_self)
      have hrest := ih hfirst fun other hother => hwork other (List.mem_cons_of_mem item hother)
      rw [List.reverse_cons, List.append_assoc]
      exact hrest

theorem difference_le (hpacked : packing.Packed worker_ids placed bound) :
    ∀ first ∈ packing.assignments.values, ∀ second ∈ packing.assignments.values,
      total_seconds first - total_seconds second ≤ bound := by
  intro first hfirst second hsecond
  obtain ⟨⟨worker, _⟩, hworker, rfl⟩ := List.mem_map.mp hfirst
  obtain ⟨⟨other, _⟩, hother, rfl⟩ := List.mem_map.mp hsecond
  have hmem : ∀ entry ∈ packing.assignments.entries, entry.1 ∈ worker_ids := fun entry hentry =>
    hpacked.workers ▸ List.mem_map.mpr ⟨entry, hentry, rfl⟩
  have hle := hpacked.balanced worker (hmem _ hworker) other (hmem _ hother)
  rw [hpacked.loaded worker _ ((Dict.mem_entries_iff _ _ _).mp hworker),
    hpacked.loaded other _ ((Dict.mem_entries_iff _ _ _).mp hother)] at hle
  exact sub_le_iff_le_add'.mpr hle

end Packing.Packed

theorem opened_packed {worker_ids : List String} (hnodup : worker_ids.Nodup) {bound : ℚ}
    (hbound : 0 ≤ bound) :
    (Packing.opened worker_ids).Packed worker_ids [] bound := by
  have hkeys {β : Type} (value : β) : ((worker_ids.map (·, value)).map Prod.fst) = worker_ids := by
    rw [List.map_map]
    exact List.map_id worker_ids
  have hentries : (Packing.opened worker_ids).assignments.entries = worker_ids.map (·, []) :=
    Dict.entries_ofPairs _ (by rw [hkeys]; exact hnodup)
  have hload : ∀ worker_id,
      ((Dict.ofPairs (worker_ids.map (·, (0 : ℚ)))).get? worker_id).getD 0 = 0 := by
    intro worker_id
    cases hget : (Dict.ofPairs (worker_ids.map (·, (0 : ℚ)))).get? worker_id with
    | none => rfl
    | some value =>
        obtain ⟨_, _, hpair⟩ := List.mem_map.mp (Dict.mem_of_get?_ofPairs hget)
        exact (congrArg Prod.snd hpair).symm
  constructor
  · rw [Dict.keys, hentries, hkeys]
  · intro worker_id items hitems
    obtain ⟨_, _, hpair⟩ := List.mem_map.mp (Dict.mem_of_get?_ofPairs hitems)
    obtain rfl : [] = items := congrArg Prod.snd hpair
    exact hload worker_id
  · rw [Dict.values, hentries, List.map_map]
    have hempty : (worker_ids.map (Prod.snd ∘ (·, ([] : List ExactWorkItem)))).flatten = [] := by
      rw [List.flatten_eq_nil_iff]
      intro bin hbin
      obtain ⟨_, _, rfl⟩ := List.mem_map.mp hbin
      rfl
    rw [hempty]
  · exact (Balanced.const hbound 0).congr fun worker_id _ => hload worker_id

theorem bin_pack_balanced (work : List ExactWorkItem) (worker_ids : List String)
    (hne : worker_ids ≠ []) (hnodup : worker_ids.Nodup) :
    ∃ bins, size_aware_bin_pack work worker_ids = .ok bins ∧ bins.keys = worker_ids ∧
      bins.values.flatten.Perm work ∧
      ∀ first ∈ bins.values, ∀ second ∈ bins.values,
        total_seconds first - total_seconds second ≤ largest_seconds work := by
  have hopened := opened_packed hnodup (largest_seconds_nonneg work)
  have hpacked := hopened.run hne
    (work.insertionSort fun first second => first.packed_before second = true)
    fun item hitem => le_largest_seconds ((List.perm_insertionSort _ work).mem_iff.mp hitem)
  refine ⟨_, if_neg (not_or.mpr ⟨hne, not_not.mpr hnodup⟩), hpacked.workers, ?_, ?_⟩
  · have hpartition := hpacked.partition
    rw [List.append_nil] at hpartition
    exact hpartition.trans ((List.reverse_perm _).trans (List.perm_insertionSort _ work))
  · exact hpacked.difference_le

def page_work (work_id : String) (estimated_seconds : ℚ) (h : work_id ≠ "" ∧ 0 ≤ estimated_seconds) :
    ExactWorkItem where
  work_id := work_id
  shard_id := "shard"
  priority := .INTERACTIVE
  estimated_seconds := estimated_seconds
  required_capabilities := ∅
  model_cache_key := "model"
  enqueued_at := 0
  sequence := 0
  checked := ⟨⟨h.1, by decide, by decide⟩, h.2⟩

def three_pages : List ExactWorkItem :=
  [page_work "a" 5 (by decide), page_work "b" 4 (by decide), page_work "c" 2 (by decide)]

theorem three_pages_balanced :
    ∃ bins, size_aware_bin_pack three_pages ["gpu-1", "gpu-2"] = .ok bins ∧
      bins.values.flatten.Perm three_pages ∧
      ∀ first ∈ bins.values, ∀ second ∈ bins.values,
        total_seconds first - total_seconds second ≤ 5 := by
  obtain ⟨bins, hbins, -, hperm, hbalanced⟩ := bin_pack_balanced three_pages ["gpu-1", "gpu-2"]
    (by decide) (by decide)
  have hlargest : largest_seconds three_pages = 5 := by decide
  rw [hlargest] at hbalanced
  exact ⟨bins, hbins, hperm, hbalanced⟩

end Packed

end KnowledgeCompiler.Parallel
