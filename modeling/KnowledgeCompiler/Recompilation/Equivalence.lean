import KnowledgeCompiler.Recompilation.Plan

namespace KnowledgeCompiler.Recompilation

open Lib

structure EquivalenceReport where
  equivalent : Bool
  compared : Nat
  diverged : List String := []
  missing_from_selective : List String := []
  unexpectedly_rebuilt : List String := []
  stale_left_behind : List String := []
deriving DecidableEq, Repr

def RecompilationPlan.stale (plan : RecompilationPlan) : List String :=
  (plan.targets.filter (fun target => target.state = .STALE)).map RecompilationTarget.artifact_id

def RecompilationPlan.unresolved (plan : RecompilationPlan) : List String :=
  (plan.targets.filter (fun target => target.state = .UNRESOLVED)).map
    RecompilationTarget.artifact_id

def RecompilationPlan.to_rebuild (plan : RecompilationPlan) : List String :=
  fromkeys (plan.stale ++ plan.unresolved)

def sorted_names (names : List String) : List String :=
  names.insertionSort (fun first second => first ≤ second)

def verify_equivalence (full_rebuild selective_rebuild carried_over : Dict String String)
    (plan : Option RecompilationPlan) : EquivalenceReport :=
  let combined := selective_rebuild.entries.foldl
    (fun dict entry => dict.set entry.1 entry.2) carried_over
  let diverged := (sorted_names full_rebuild.keys).filter (fun artifact =>
    (combined.get? artifact).any (fun actual => full_rebuild.get? artifact ≠ some actual))
  let missing := (sorted_names full_rebuild.keys).filter (· ∉ combined.keys)
  { equivalent := diverged.isEmpty && missing.isEmpty
    compared := full_rebuild.keys.length
    diverged := diverged
    missing_from_selective := missing
    unexpectedly_rebuilt :=
      match plan with
      | none => []
      | some plan => (sorted_names selective_rebuild.keys).filter (· ∉ plan.to_rebuild)
    stale_left_behind := diverged.filter (fun artifact =>
      artifact ∈ carried_over.keys ∧ artifact ∉ selective_rebuild.keys) }

section Union

variable {full_rebuild selective_rebuild carried_over : Dict String String}

-- What a selective run leaves: what it rebuilt, and what it reused where it rebuilt nothing.
def union_get? (selective_rebuild carried_over : Dict String String) (artifact : String) :
    Option String :=
  (selective_rebuild.get? artifact).or (carried_over.get? artifact)

-- Each artifact of the full rebuild is left with the hash that it has there.
def Covers (full_rebuild selective_rebuild carried_over : Dict String String) : Prop :=
  ∀ artifact hash, full_rebuild.get? artifact = some hash →
    union_get? selective_rebuild carried_over artifact = some hash

theorem get?_combined (artifact : String) :
    (selective_rebuild.entries.foldl (fun dict entry => dict.set entry.1 entry.2)
      carried_over).get? artifact = union_get? selective_rebuild carried_over artifact := by
  have hfold (entries : List (String × String)) (hnodup : (entries.map Prod.fst).Nodup)
      (dict : Dict String String) :
      (entries.foldl (fun dict entry => dict.set entry.1 entry.2) dict).get? artifact =
        ((entries.find? (fun entry => entry.1 = artifact)).map Prod.snd).or (dict.get? artifact) := by
    induction entries generalizing dict with
    | nil => rfl
    | cons entry rest ih =>
        obtain ⟨hnew, hrest⟩ := List.nodup_cons.mp hnodup
        rw [List.foldl_cons, ih hrest, Dict.get?_set, List.find?_cons]
        by_cases hartifact : artifact = entry.1
        · have hnone : rest.find? (fun other => other.1 = artifact) = none := by
            rw [List.find?_eq_none]
            intro other hother hsame
            rw [decide_eq_true_eq] at hsame
            exact hnew (hartifact ▸ hsame ▸ List.mem_map_of_mem hother)
          simp [hartifact.symm, hnone]
        · simp [hartifact, Ne.symm hartifact]
  exact hfold selective_rebuild.entries selective_rebuild.nodup carried_over

theorem mem_sorted_names {names : List String} {name : String} :
    name ∈ sorted_names names ↔ name ∈ names :=
  (List.perm_insertionSort _ names).mem_iff

-- The report looks at the artifacts of the full rebuild alone.
theorem equivalent_iff_covers (plan : Option RecompilationPlan) :
    (verify_equivalence full_rebuild selective_rebuild carried_over plan).equivalent = true ↔
      Covers full_rebuild selective_rebuild carried_over := by
  unfold verify_equivalence
  dsimp only
  rw [Bool.and_eq_true, List.isEmpty_iff, List.isEmpty_iff, List.filter_eq_nil_iff,
    List.filter_eq_nil_iff]
  constructor
  · rintro ⟨hsame, hthere⟩ artifact hash hfull
    have hkey : artifact ∈ sorted_names full_rebuild.keys :=
      mem_sorted_names.mpr ((full_rebuild.mem_keys_iff artifact).mpr ⟨hash, hfull⟩)
    have hcombined := hthere artifact hkey
    rw [decide_eq_true_eq, not_not, Dict.mem_keys_iff] at hcombined
    obtain ⟨actual, hactual⟩ := hcombined
    have hagrees := hsame artifact hkey
    rw [hactual, hfull] at hagrees
    rw [Option.any_some, decide_eq_true_eq, not_not] at hagrees
    rw [← get?_combined, hactual, hagrees]
  · intro hcovers
    constructor <;> intro artifact hkey
    · obtain ⟨hash, hfull⟩ := (full_rebuild.mem_keys_iff artifact).mp (mem_sorted_names.mp hkey)
      rw [get?_combined, hcovers artifact hash hfull, hfull]
      simp
    · obtain ⟨hash, hfull⟩ := (full_rebuild.mem_keys_iff artifact).mp (mem_sorted_names.mp hkey)
      rw [decide_eq_true_eq, not_not, Dict.mem_keys_iff]
      exact ⟨hash, (get?_combined artifact).trans (hcovers artifact hash hfull)⟩

theorem mem_union_iff {artifact : String} :
    artifact ∈ selective_rebuild.keys ∨ artifact ∈ carried_over.keys ↔
      ∃ hash, union_get? selective_rebuild carried_over artifact = some hash := by
  rw [← Option.isSome_iff_exists, union_get?, Option.isSome_or, Bool.or_eq_true,
    Option.isSome_iff_exists, Option.isSome_iff_exists, ← Dict.mem_keys_iff, ← Dict.mem_keys_iff]

-- The report says that the maps are equal exactly when they are, unless the full rebuild is
-- covered and something is left that it does not have.
theorem verify_equivalence_exact_iff (full_rebuild selective_rebuild carried_over : Dict String String)
    (plan : Option RecompilationPlan) :
    ((verify_equivalence full_rebuild selective_rebuild carried_over plan).equivalent = true ↔
        ∀ artifact, union_get? selective_rebuild carried_over artifact =
          full_rebuild.get? artifact) ↔
      (∀ artifact, artifact ∈ selective_rebuild.keys ∨ artifact ∈ carried_over.keys →
          artifact ∈ full_rebuild.keys) ∨
        ∃ artifact hash, full_rebuild.get? artifact = some hash ∧
          union_get? selective_rebuild carried_over artifact ≠ some hash := by
  rw [equivalent_iff_covers]
  constructor
  · intro hexact
    by_cases hcovers : Covers full_rebuild selective_rebuild carried_over
    · left
      intro artifact hleft
      obtain ⟨hash, hhash⟩ := mem_union_iff.mp hleft
      rw [hexact.mp hcovers artifact] at hhash
      exact (full_rebuild.mem_keys_iff artifact).mpr ⟨hash, hhash⟩
    · right
      simp only [Covers, not_forall] at hcovers
      obtain ⟨artifact, hash, hfull, hother⟩ := hcovers
      exact ⟨artifact, hash, hfull, hother⟩
  · intro hcondition
    constructor
    · intro hcovers artifact
      rcases hcondition with hkeys | ⟨other, hash, hfull, hdiffers⟩
      · cases hfull : full_rebuild.get? artifact with
        | some hash => exact hcovers artifact hash hfull
        | none =>
            have hnone := (full_rebuild.get?_eq_none_iff artifact).mp hfull
            cases hleft : union_get? selective_rebuild carried_over artifact with
            | none => rfl
            | some hash => exact absurd (hkeys artifact (mem_union_iff.mpr ⟨hash, hleft⟩)) hnone
      · exact absurd (hcovers other hash hfull) hdiffers
    · exact fun hsame artifact hash hfull => (hsame artifact).trans hfull

-- An artifact is reused that the full rebuild no longer has.
theorem orphan_left_behind :
    ¬∀ full_rebuild selective_rebuild carried_over : Dict String String, ∀ plan,
      (verify_equivalence full_rebuild selective_rebuild carried_over plan).equivalent = true ↔
        ∀ artifact, union_get? selective_rebuild carried_over artifact =
          full_rebuild.get? artifact := by
  intro hexact
  have hsame := (hexact .empty .empty (Dict.ofPairs [("old", "sha256:0")]) none).mp (by decide)
    "old"
  exact absurd hsame (by decide)

end Union

end KnowledgeCompiler.Recompilation
