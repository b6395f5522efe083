import Mathlib.Data.List.Dedup
import Mathlib.Data.List.Induction
import Mathlib.Data.List.Perm.Subperm

namespace KnowledgeCompiler.Lib

-- An insertion-ordered dictionary: assigning to a key that is there keeps its place.
structure Dict (α β : Type*) where
  entries : List (α × β)
  nodup : (entries.map Prod.fst).Nodup

namespace Dict

variable {α β γ : Type*} [DecidableEq α]

instance [DecidableEq β] : DecidableEq (Dict α β) := fun first second =>
  decidable_of_iff (first.entries = second.entries) (by cases first; cases second; simp)

def empty : Dict α β where
  entries := []
  nodup := List.nodup_nil

def keys (dict : Dict α β) : List α := dict.entries.map Prod.fst

def values (dict : Dict α β) : List β := dict.entries.map Prod.snd

def get? (dict : Dict α β) (key : α) : Option β :=
  (dict.entries.find? (fun entry => entry.1 = key)).map Prod.snd

def setEntries (key : α) (value : β) : List (α × β) → List (α × β)
  | [] => [(key, value)]
  | entry :: rest =>
      if entry.1 = key then (key, value) :: rest else entry :: setEntries key value rest

theorem mem_keys_setEntries (key : α) (value : β) (entries : List (α × β)) (other : α) :
    other ∈ (setEntries key value entries).map Prod.fst ↔
      other = key ∨ other ∈ entries.map Prod.fst := by
  induction entries with
  | nil => simp [setEntries]
  | cons entry rest ih =>
      simp only [setEntries]
      split
      · rename_i he
        simp [he]
      · simp only [List.map_cons, List.mem_cons, ih]
        tauto

theorem nodup_setEntries (key : α) (value : β) (entries : List (α × β))
    (hn : (entries.map Prod.fst).Nodup) :
    ((setEntries key value entries).map Prod.fst).Nodup := by
  induction entries with
  | nil => simp [setEntries]
  | cons entry rest ih =>
      simp only [List.map_cons, List.nodup_cons] at hn
      simp only [setEntries]
      split
      · rename_i he
        simpa [he] using hn
      · rename_i he
        simp only [List.map_cons, List.nodup_cons, mem_keys_setEntries, not_or]
        exact ⟨⟨he, hn.1⟩, ih hn.2⟩

def set (dict : Dict α β) (key : α) (value : β) : Dict α β where
  entries := setEntries key value dict.entries
  nodup := nodup_setEntries key value dict.entries dict.nodup

-- `dict[key] = change(dict.get(key))`
def update (dict : Dict α β) (key : α) (change : Option β → β) : Dict α β :=
  dict.set key (change (dict.get? key))

-- `{key: value for ...}`: the last pair of a key wins.
def ofPairs (pairs : List (α × β)) : Dict α β :=
  pairs.foldl (fun dict pair => dict.set pair.1 pair.2) empty

@[simp] theorem get?_empty (key : α) : (empty : Dict α β).get? key = none := rfl

theorem get?_set (dict : Dict α β) (key other : α) (value : β) :
    (dict.set key value).get? other = if other = key then some value else dict.get? other := by
  have h (entries : List (α × β)) :
      ((setEntries key value entries).find? (fun entry => entry.1 = other)).map Prod.snd =
        if other = key then some value
        else (entries.find? (fun entry => entry.1 = other)).map Prod.snd := by
    induction entries with
    | nil =>
        by_cases he : key = other
        · simp [setEntries, he]
        · simp [setEntries, he, Ne.symm he]
    | cons entry rest ih =>
        simp only [setEntries]
        by_cases hk : entry.1 = key
        · by_cases he : key = other
          · simp [hk, he]
          · simp [hk, he, Ne.symm he]
        · simp only [hk, ite_false, List.find?_cons]
          by_cases ho : entry.1 = other
          · have hne : other ≠ key := ho ▸ hk
            simp [ho, hne]
          · simpa [ho] using ih
  exact h dict.entries

@[simp] theorem get?_set_self (dict : Dict α β) (key : α) (value : β) :
    (dict.set key value).get? key = some value := by
  simp [get?_set]

theorem get?_set_of_ne (dict : Dict α β) {key other : α} (value : β) (hne : other ≠ key) :
    (dict.set key value).get? other = dict.get? other := by
  simp [get?_set, hne]

theorem mem_entries_iff (dict : Dict α β) (key : α) (value : β) :
    (key, value) ∈ dict.entries ↔ dict.get? key = some value := by
  obtain ⟨entries, hn⟩ := dict
  change _ ↔ (entries.find? (fun entry => entry.1 = key)).map Prod.snd = some value
  induction entries with
  | nil => simp
  | cons entry rest ih =>
      simp only [List.map_cons, List.nodup_cons] at hn
      rw [List.mem_cons, ih hn.2, List.find?_cons]
      by_cases he : entry.1 = key
      · have hnone : (key, value) ∉ rest := fun hm =>
          hn.1 (he ▸ List.mem_map.mpr ⟨_, hm, rfl⟩)
        rw [← ih hn.2]
        simp only [hnone, or_false, he, decide_true, Option.map_some, Option.some.injEq]
        constructor
        · rintro rfl; rfl
        · rintro rfl; exact Prod.ext he.symm rfl
      · have hne : (key, value) ≠ entry := fun h => he (h ▸ rfl)
        simp [he, hne]

theorem mem_keys_iff (dict : Dict α β) (key : α) :
    key ∈ dict.keys ↔ ∃ value, dict.get? key = some value := by
  simp only [← mem_entries_iff, keys, List.mem_map]
  constructor
  · rintro ⟨⟨k, v⟩, hm, rfl⟩; exact ⟨v, hm⟩
  · rintro ⟨value, hm⟩; exact ⟨(key, value), hm, rfl⟩

theorem countP_values_le_one (dict : Dict α β) {key : α} {holds : β → Bool}
    (honly : ∀ other value, dict.get? other = some value → holds value = true → other = key) :
    dict.values.countP holds ≤ 1 := by
  let found := dict.entries.filter (fun entry => holds entry.2)
  have hsub : found.map Prod.fst ⊆ [key] := by
    intro other ho
    obtain ⟨⟨_, value⟩, hm, rfl⟩ := List.mem_map.mp ho
    obtain ⟨hentry, hholds⟩ := List.mem_filter.mp hm
    exact List.mem_singleton.mpr
      (honly _ value ((dict.mem_entries_iff _ value).mp hentry) hholds)
  have hnodup : (found.map Prod.fst).Nodup := (List.filter_sublist.map Prod.fst).nodup dict.nodup
  have hlength := (List.subperm_of_subset hnodup hsub).length_le
  rw [List.length_map, List.length_singleton] at hlength
  rw [values, List.countP_map, List.countP_eq_length_filter]
  exact hlength

theorem get?_ofPairs_append (pairs : List (α × β)) (pair : α × β) (key : α) :
    (ofPairs (pairs ++ [pair])).get? key =
      if key = pair.1 then some pair.2 else (ofPairs pairs).get? key := by
  simp [ofPairs, List.foldl_append, get?_set]

theorem exists_get?_ofPairs (pairs : List (α × β)) (key : α) :
    (∃ value, (ofPairs pairs).get? key = some value) ↔ key ∈ pairs.map Prod.fst := by
  induction pairs using List.reverseRecOn with
  | nil => simp [ofPairs]
  | append_singleton pairs pair ih =>
      simp only [get?_ofPairs_append, List.map_append, List.mem_append, ← ih]
      by_cases hk : key = pair.1
      · simp [hk]
      · simp [hk]

theorem mem_of_get?_ofPairs {pairs : List (α × β)} {key : α} {value : β}
    (hvalue : (ofPairs pairs).get? key = some value) : (key, value) ∈ pairs := by
  induction pairs using List.reverseRecOn with
  | nil => cases hvalue
  | append_singleton pairs pair ih =>
      rw [get?_ofPairs_append] at hvalue
      split at hvalue
      · rename_i hkey
        cases hvalue
        exact List.mem_append_right _ (List.mem_singleton.mpr (Prod.ext hkey rfl))
      · exact List.mem_append_left _ (ih hvalue)

theorem setEntries_of_not_mem (key : α) (value : β) (entries : List (α × β))
    (hkey : key ∉ entries.map Prod.fst) :
    setEntries key value entries = entries ++ [(key, value)] := by
  induction entries with
  | nil => rfl
  | cons entry rest ih =>
      simp only [List.map_cons, List.mem_cons, not_or] at hkey
      simp [setEntries, Ne.symm hkey.1, ih hkey.2]

theorem entries_ofPairs (pairs : List (α × β)) (hn : (pairs.map Prod.fst).Nodup) :
    (ofPairs pairs).entries = pairs := by
  induction pairs using List.reverseRecOn with
  | nil => rfl
  | append_singleton pairs pair ih =>
      simp only [List.map_append, List.nodup_append, List.map_cons, List.map_nil] at hn
      have hkey : pair.1 ∉ pairs.map Prod.fst := fun hm => hn.2.2 _ hm _ (List.mem_singleton_self _) rfl
      have hset : (ofPairs (pairs ++ [pair])).entries =
          setEntries pair.1 pair.2 (ofPairs pairs).entries := by
        simp [ofPairs, List.foldl_append, set]
      rw [hset, ih hn.1, setEntries_of_not_mem pair.1 pair.2 pairs hkey]

theorem ofPairs_entries (dict : Dict α β) : ofPairs dict.entries = dict := by
  obtain ⟨entries, hn⟩ := dict
  have hentries := entries_ofPairs entries hn
  change ofPairs entries = _
  revert hentries
  generalize ofPairs entries = read
  rintro rfl
  rfl

theorem get?_ofPairs_of_perm {dict : Dict α β} {pairs : List (α × β)}
    (hperm : pairs.Perm dict.entries) (key : α) : (ofPairs pairs).get? key = dict.get? key := by
  have hnodup : (pairs.map Prod.fst).Nodup := (hperm.map Prod.fst).nodup_iff.mpr dict.nodup
  refine Option.ext fun value => ?_
  rw [← mem_entries_iff, ← mem_entries_iff, entries_ofPairs pairs hnodup, hperm.mem_iff]

theorem keys_set_of_not_mem (dict : Dict α β) {key : α} (value : β) (hkey : key ∉ dict.keys) :
    (dict.set key value).keys = dict.keys ++ [key] := by
  simp [keys, set, setEntries_of_not_mem key value dict.entries hkey]

theorem mem_keys_set (dict : Dict α β) (key other : α) (value : β) :
    other ∈ (dict.set key value).keys ↔ other = key ∨ other ∈ dict.keys := by
  rw [mem_keys_iff, mem_keys_iff, get?_set]
  by_cases he : other = key
  · simp [he]
  · simp [he]

theorem get?_eq_none_iff (dict : Dict α β) (key : α) : dict.get? key = none ↔ key ∉ dict.keys := by
  rw [mem_keys_iff, Option.eq_none_iff_forall_ne_some]
  exact ⟨fun h ⟨value, hv⟩ => h value hv, fun h value hv => h ⟨value, hv⟩⟩

-- `del dict[key]`
def erase (dict : Dict α β) (key : α) : Dict α β where
  entries := dict.entries.filter (fun entry => entry.1 ≠ key)
  nodup := (List.filter_sublist.map Prod.fst).nodup dict.nodup

theorem get?_erase (dict : Dict α β) (key other : α) :
    (dict.erase key).get? other = if other = key then none else dict.get? other := by
  ext value
  rw [← mem_entries_iff, erase, List.mem_filter, mem_entries_iff]
  by_cases he : other = key
  · simp [he]
  · simp [he]

theorem ofPairs_append_singleton (pairs : List (α × β)) (pair : α × β) :
    ofPairs (pairs ++ [pair]) = (ofPairs pairs).set pair.1 pair.2 := by
  rw [ofPairs, List.foldl_append]
  rfl

theorem setEntries_filter_self (key : α) (value : β) (entries : List (α × β)) :
    (setEntries key value entries).filter (fun entry => entry.1 ≠ key) =
      entries.filter fun entry => entry.1 ≠ key := by
  induction entries with
  | nil => simp [setEntries]
  | cons entry rest ih =>
      rw [setEntries]
      split
      · rename_i heq
        simp [heq]
      · rw [List.filter_cons, List.filter_cons, ih]

theorem setEntries_filter_of_ne {key other : α} (hne : other ≠ key) (value : β)
    (entries : List (α × β)) :
    (setEntries other value entries).filter (fun entry => entry.1 ≠ key) =
      setEntries other value (entries.filter fun entry => entry.1 ≠ key) := by
  induction entries with
  | nil => simp [setEntries, hne]
  | cons entry rest ih =>
      rw [setEntries]
      by_cases heq : entry.1 = other
      · simp [heq, hne, setEntries]
      · by_cases hkey : entry.1 = key
        · rw [if_neg heq, List.filter_cons, ih]
          simp [hkey]
        · rw [if_neg heq, List.filter_cons, ih]
          simp [hkey, setEntries, heq]

omit [DecidableEq α] in
theorem eq_of_entries {first second : Dict α β} (hentries : first.entries = second.entries) :
    first = second := by
  cases first
  cases second
  cases hentries
  rfl

-- `{key: change(value) for key, value in dict.items()}`
def mapValues (change : β → γ) (dict : Dict α β) : Dict α γ where
  entries := dict.entries.map (Prod.map id change)
  nodup := by
    rw [List.map_map]
    exact dict.nodup

theorem mapValues_set (change : β → γ) (dict : Dict α β) (key : α) (value : β) :
    (dict.set key value).mapValues change = (dict.mapValues change).set key (change value) := by
  have hentries (entries : List (α × β)) : (setEntries key value entries).map (Prod.map id change) =
      setEntries key (change value) (entries.map (Prod.map id change)) := by
    induction entries with
    | nil => rfl
    | cons entry rest ih =>
      rw [List.map_cons, setEntries, setEntries]
      by_cases hkey : entry.1 = key
      · rw [if_pos hkey, if_pos (show (Prod.map id change entry).1 = key from hkey)]
        rfl
      · rw [if_neg hkey, if_neg (show ¬(Prod.map id change entry).1 = key from hkey), List.map_cons, ih]
  exact eq_of_entries (hentries dict.entries)

theorem mapValues_erase (change : β → γ) (dict : Dict α β) (key : α) :
    (dict.erase key).mapValues change = (dict.mapValues change).erase key := by
  refine eq_of_entries ?_
  change (dict.entries.filter _).map _ = (dict.entries.map _).filter _
  rw [List.filter_map]
  rfl

-- Leaving out the pairs of a key leaves out the key.
theorem ofPairs_filter_ne (pairs : List (α × β)) (key : α) :
    ofPairs (pairs.filter fun pair => pair.1 ≠ key) = (ofPairs pairs).erase key := by
  induction pairs using List.reverseRecOn with
  | nil => rfl
  | append_singleton pairs pair ih =>
      rw [ofPairs_append_singleton, List.filter_append]
      by_cases heq : pair.1 = key
      · have hdrop : ([pair].filter fun pair => pair.1 ≠ key) = [] := by simp [heq]
        rw [hdrop, List.append_nil, ih, heq]
        exact eq_of_entries (setEntries_filter_self key pair.2 _).symm
      · have hkeep : ([pair].filter fun pair => pair.1 ≠ key) = [pair] := by simp [heq]
        rw [hkeep, ofPairs_append_singleton, ih]
        exact eq_of_entries (setEntries_filter_of_ne heq pair.2 _).symm

-- `dict.setdefault(key, value)`
def setdefault (dict : Dict α β) (key : α) (value : β) : Dict α β :=
  if (dict.get? key).isSome then dict else dict.set key value

theorem exists_get?_setdefault (dict : Dict α β) (key other : α) (value : β) :
    (∃ found, (dict.setdefault key value).get? other = some found) ↔
      other = key ∨ ∃ found, dict.get? other = some found := by
  unfold setdefault
  split
  · rename_i hsome
    obtain ⟨found, hf⟩ := Option.isSome_iff_exists.mp hsome
    exact ⟨Or.inr, fun h => h.elim (fun he => ⟨found, he ▸ hf⟩) id⟩
  · by_cases he : other = key
    · simp [he]
    · simp [get?_set_of_ne _ _ he, he]

end Dict

-- `list(dict.fromkeys(items))`: each item where it first occurs.
def fromkeys {α : Type*} [DecidableEq α] (items : List α) : List α := items.reverse.dedup.reverse

@[simp] theorem mem_fromkeys {α : Type*} [DecidableEq α] {items : List α} {item : α} :
    item ∈ fromkeys items ↔ item ∈ items := by
  simp [fromkeys]

theorem nodup_fromkeys {α : Type*} [DecidableEq α] (items : List α) : (fromkeys items).Nodup :=
  List.nodup_reverse.mpr (List.nodup_dedup _)

end KnowledgeCompiler.Lib

namespace KnowledgeCompiler.Lib.Dict

variable {ι α β : Type*} [DecidableEq α]

-- One turn of a loop that writes at most one entry.
def collect (pick : ι → Option (α × β)) (dict : Dict α β) (item : ι) : Dict α β :=
  (pick item).elim dict (fun entry => dict.set entry.1 entry.2)

-- Where no two items write one key, the loop leaves what was there and what each item writes.
theorem get?_foldl_collect (pick : ι → Option (α × β)) (items : List ι) (before : Dict α β)
    (hapart : items.Pairwise fun first second =>
      ∀ p ∈ pick first, ∀ q ∈ pick second, p.1 ≠ q.1)
    (hfresh : ∀ item ∈ items, ∀ p ∈ pick item, before.get? p.1 = none) (key : α) (value : β) :
    (items.foldl (collect pick) before).get? key = some value ↔
      before.get? key = some value ∨ ∃ item ∈ items, pick item = some (key, value) := by
  induction items generalizing before with
  | nil => simp
  | cons item rest ih =>
      obtain ⟨hfirst, hrest⟩ := List.pairwise_cons.mp hapart
      rw [List.foldl_cons]
      cases hpick : pick item with
      | none =>
          have hsame : collect pick before item = before := by rw [collect, hpick]; rfl
          rw [hsame, ih before hrest fun other hother => hfresh other (List.mem_cons_of_mem _ hother)]
          simp [hpick]
      | some entry =>
          have hset : collect pick before item = before.set entry.1 entry.2 := by
            rw [collect, hpick]
            rfl
          have hnone := hfresh item List.mem_cons_self entry hpick
          have hlater : ∀ other ∈ rest, ∀ p ∈ pick other,
              (before.set entry.1 entry.2).get? p.1 = none := by
            intro other hother p hp
            rw [get?_set_of_ne _ _ (hfirst other hother entry hpick p hp).symm]
            exact hfresh other (List.mem_cons_of_mem _ hother) p hp
          rw [hset, ih _ hrest hlater, get?_set]
          by_cases hkey : key = entry.1
          · subst hkey
            have hnone' : ¬before.get? entry.1 = some value := by
              rw [hnone]
              exact (Option.some_ne_none value).symm
            simp [hnone', hpick, Prod.ext_iff]
          · have hother : ¬(entry : α × β) = (key, value) := fun h => hkey (congrArg Prod.fst h).symm
            simp [hkey, hpick, hother]

end KnowledgeCompiler.Lib.Dict
