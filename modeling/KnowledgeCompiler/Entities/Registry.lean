import KnowledgeCompiler.Lib.Binary64
import KnowledgeCompiler.Lib.Tally
import Mathlib.Algebra.Order.Group.Multiset

namespace KnowledgeCompiler.Entities

open Lib

inductive RegistryFault
  | value_error (message : String)
  | key_error (message : String)
deriving DecidableEq

-- Lower is stronger evidence.
inductive ResolutionTier
  | SYSTEM_OF_RECORD
  | APPROVED_ALIAS
  | COMPOSITE_KEY
  | CONTEXT_OVERLAP
  | NAME_SIMILARITY
  | MODEL_PROPOSAL
deriving DecidableEq

inductive MergeVerdict
  | AUTO_MERGE
  | REVIEW
  | NEW_ENTITY
deriving DecidableEq

def MergeVerdict.value : MergeVerdict → String
  | AUTO_MERGE => "AUTO_MERGE"
  | REVIEW => "REVIEW"
  | NEW_ENTITY => "NEW_ENTITY"

structure MergeDecision where
  verdict : MergeVerdict
  entity_id : Option String
  tier : Option ResolutionTier
  score : Binary64
  reason : String
  candidates : List String := []
deriving DecidableEq

-- The state of both entities before the merge, kept to undo it.
structure MergeRecord where
  merge_id : String
  entity_id : String
  absorbed_entity_id : String
  tier : ResolutionTier
  score : Binary64
  previous_members : List String
  absorbed_members : List String
  decided_by : String := "system"
deriving DecidableEq

structure EntityRegistry where
  _members : Dict String (List String) := .empty
  _merges : List MergeRecord := []
deriving DecidableEq

namespace EntityRegistry

def add (registry : EntityRegistry) (entity_id mention_id : String) : EntityRegistry :=
  { registry with
    _members := registry._members.update entity_id (fun held => held.getD [] ++ [mention_id]) }

def members (registry : EntityRegistry) (entity_id : String) : List String :=
  (registry._members.get? entity_id).getD []

def merge (registry : EntityRegistry) (merge_id into absorbed : String) (decision : MergeDecision)
    (decided_by : String := "system") : Except RegistryFault (EntityRegistry × MergeRecord) :=
  if decision.verdict ≠ .AUTO_MERGE ∧ decided_by = "system" then
    .error (.value_error
      (s!"the decision was {decision.verdict.value}; a merge the resolver " ++
        "declined needs a named human reviewer, not the system"))
  else
    match decision.tier with
    | none => .error (.value_error "a merge must record which tier produced it")
    | some tier =>
      if into = absorbed then
        .error (.value_error "an entity cannot absorb itself")
      else
        match registry._members.get? into, registry._members.get? absorbed with
        | some previous_members, some absorbed_members =>
            let record : MergeRecord := {
              merge_id, entity_id := into, absorbed_entity_id := absorbed, tier
              score := decision.score, previous_members, absorbed_members, decided_by }
            .ok ({
              _members :=
                (registry._members.set into (previous_members ++ absorbed_members)).erase absorbed
              _merges := registry._merges ++ [record] }, record)
        | _, _ => .error (.key_error "both entities must exist before they can be merged")

-- The newest merge under this id.
def recorded (registry : EntityRegistry) (merge_id : String) : Option MergeRecord :=
  registry._merges.reverse.find? (fun record => record.merge_id = merge_id)

def unmerge (registry : EntityRegistry) (merge_id : String) :
    Except RegistryFault EntityRegistry :=
  match registry.recorded merge_id with
  | none => .error (.key_error s!"no merge {merge_id} to undo")
  | some record => .ok {
      _members :=
        (registry._members.set record.entity_id record.previous_members).set
          record.absorbed_entity_id record.absorbed_members
      _merges :=
        (registry._merges.reverse.eraseP (fun record => record.merge_id = merge_id)).reverse }

end EntityRegistry

inductive RegistryCall
  | add (entity_id mention_id : String)
  | merge (merge_id into absorbed : String) (decision : MergeDecision) (decided_by : String)
  | unmerge (merge_id : String)
deriving DecidableEq

namespace EntityRegistry

-- A call that raises has written nothing.
def after (registry : EntityRegistry) : RegistryCall → EntityRegistry
  | .add entity_id mention_id => registry.add entity_id mention_id
  | .merge merge_id into absorbed decision decided_by =>
      match registry.merge merge_id into absorbed decision decided_by with
      | .ok (next, _) => next
      | .error _ => registry
  | .unmerge merge_id =>
      match registry.unmerge merge_id with
      | .ok next => next
      | .error _ => registry

def run (calls : List RegistryCall) : EntityRegistry := calls.foldl after {}

-- The mentions of all live entities, counted with repetition.
def held (registry : EntityRegistry) : Multiset String :=
  registry._members.tally Multiset.ofList

def added (calls : List RegistryCall) : Multiset String :=
  (calls.filterMap fun call =>
    match call with
    | .add _ mention_id => some mention_id
    | _ => none : List String)

-- What an undo takes from its two entities is what it puts back.
def Intact (registry : EntityRegistry) (merge_id : String) : Prop :=
  ∀ record ∈ registry.recorded merge_id,
    (registry.members record.entity_id ++ registry.members record.absorbed_entity_id).Perm
      (record.previous_members ++ record.absorbed_members)

variable {registry next : EntityRegistry} {merge_id into absorbed decided_by : String}
  {decision : MergeDecision} {record : MergeRecord}

theorem merge_eq_ok
    (hmerge : registry.merge merge_id into absorbed decision decided_by = .ok (next, record)) :
    into ≠ absorbed ∧ record.merge_id = merge_id ∧ record.entity_id = into ∧
    record.absorbed_entity_id = absorbed ∧
    registry._members.get? into = some record.previous_members ∧
    registry._members.get? absorbed = some record.absorbed_members ∧
    next._members = (registry._members.set into
      (record.previous_members ++ record.absorbed_members)).erase absorbed ∧
    next._merges = registry._merges ++ [record] := by
  unfold merge at hmerge
  split at hmerge
  · cases hmerge
  split at hmerge
  · cases hmerge
  split at hmerge
  · cases hmerge
  rename_i hne
  split at hmerge
  · rename_i hinto habsorbed
    cases hmerge
    exact ⟨hne, rfl, rfl, rfl, hinto, habsorbed, rfl, rfl⟩
  · cases hmerge

theorem unmerge_eq_ok (hunmerge : registry.unmerge merge_id = .ok next) :
    ∃ record, registry.recorded merge_id = some record ∧
      next._members = (registry._members.set record.entity_id record.previous_members).set
        record.absorbed_entity_id record.absorbed_members ∧
      ∀ other ∈ next._merges, other ∈ registry._merges := by
  unfold unmerge at hunmerge
  split at hunmerge
  · cases hunmerge
  · rename_i record hrecorded
    cases hunmerge
    refine ⟨record, hrecorded, rfl, ?_⟩
    intro other hother
    have h := List.mem_of_mem_eraseP (List.mem_reverse.mp hother)
    exact List.mem_reverse.mp h

theorem mem_merges_of_recorded (hrecorded : registry.recorded merge_id = some record) :
    record ∈ registry._merges ∧ record.merge_id = merge_id :=
  ⟨List.mem_reverse.mp (List.mem_of_find?_eq_some hrecorded),
    by simpa using List.find?_some hrecorded⟩

theorem weight_at_members (registry : EntityRegistry) (entity_id : String) :
    registry._members.weight_at Multiset.ofList entity_id = (registry.members entity_id : Multiset String) := by
  unfold Dict.weight_at members
  cases registry._members.get? entity_id with
  | none => rfl
  | some mentions => rfl

theorem held_add (registry : EntityRegistry) (entity_id mention_id : String) :
    (registry.add entity_id mention_id).held = registry.held + {mention_id} := by
  have h := Dict.tally_set Multiset.ofList registry._members entity_id
    (registry.members entity_id ++ [mention_id])
  rw [weight_at_members, ← Multiset.coe_add, add_comm (registry.members entity_id : Multiset String),
    ← add_assoc] at h
  exact add_right_cancel h

-- What one entity gains in a merge, the other loses.
theorem held_merge
    (hmerge : registry.merge merge_id into absorbed decision decided_by = .ok (next, record)) :
    next.held = registry.held := by
  obtain ⟨hne, -, -, -, hinto, habsorbed, hmembers, -⟩ := merge_eq_ok hmerge
  have hset := Dict.tally_set Multiset.ofList registry._members into
    (record.previous_members ++ record.absorbed_members)
  have herase := Dict.tally_erase Multiset.ofList
    (registry._members.set into (record.previous_members ++ record.absorbed_members)) absorbed
  rw [← hmembers, Dict.weight_at_set_of_ne _ _ _ hne.symm, Dict.weight_at_of_get? habsorbed] at herase
  rw [← herase, Dict.weight_at_of_get? hinto, ← Multiset.coe_add] at hset
  apply add_right_cancel (b := (record.absorbed_members : Multiset String))
  apply add_right_cancel (b := (record.previous_members : Multiset String))
  rw [held, hset, held, add_right_comm, add_assoc]

-- An undo replaces what its two entities hold by what the merge saved.
theorem held_unmerge (hunmerge : registry.unmerge merge_id = .ok next)
    (hrecorded : registry.recorded merge_id = some record)
    (hne : record.entity_id ≠ record.absorbed_entity_id) :
    next.held + (registry.members record.entity_id ++ registry.members record.absorbed_entity_id :
        List String) =
      registry.held + (record.previous_members ++ record.absorbed_members : List String) := by
  obtain ⟨found, hfound, hmembers, -⟩ := unmerge_eq_ok hunmerge
  obtain rfl : found = record := Option.some.inj (hfound.symm.trans hrecorded)
  have hinto := Dict.tally_set Multiset.ofList registry._members found.entity_id
    found.previous_members
  have habsorbed := Dict.tally_set Multiset.ofList
    (registry._members.set found.entity_id found.previous_members) found.absorbed_entity_id
    found.absorbed_members
  rw [← hmembers, Dict.weight_at_set_of_ne _ _ _ hne.symm, weight_at_members] at habsorbed
  rw [weight_at_members] at hinto
  calc next.held + (registry.members found.entity_id ++
        registry.members found.absorbed_entity_id : List String)
      = next._members.tally Multiset.ofList + registry.members found.absorbed_entity_id +
          registry.members found.entity_id := by
        rw [held, ← Multiset.coe_add]
        abel
    _ = registry.held + (found.previous_members ++ found.absorbed_members : List String) := by
        rw [habsorbed, add_right_comm, hinto, held, ← Multiset.coe_add, add_assoc]

theorem held_unmerge_iff (hunmerge : registry.unmerge merge_id = .ok next)
    (hrecorded : registry.recorded merge_id = some record)
    (hne : record.entity_id ≠ record.absorbed_entity_id) :
    next.held = registry.held ↔ registry.Intact merge_id := by
  have heq := held_unmerge hunmerge hrecorded hne
  have hintact : registry.Intact merge_id ↔
      ((registry.members record.entity_id ++ registry.members record.absorbed_entity_id :
        List String) : Multiset String) =
      (record.previous_members ++ record.absorbed_members : List String) := by
    simp [Intact, hrecorded]
  rw [hintact]
  constructor
  · intro hheld
    rw [hheld] at heq
    exact add_left_cancel heq
  · intro hsame
    rw [hsame] at heq
    exact add_right_cancel heq

theorem run_concat (calls : List RegistryCall) (call : RegistryCall) :
    run (calls ++ [call]) = (run calls).after call := by
  rw [run, List.foldl_append]
  rfl

-- Every kept record comes from a merge of the run, with what both entities held then.
theorem merged_of_mem (calls : List RegistryCall) :
    ∀ record ∈ (run calls)._merges, ∃ earlier decision decided_by,
      earlier ++ [.merge record.merge_id record.entity_id record.absorbed_entity_id decision
        decided_by] <+: calls ∧
      ∃ next, (run earlier).merge record.merge_id record.entity_id record.absorbed_entity_id
        decision decided_by = .ok (next, record) := by
  induction calls using List.reverseRecOn with
  | nil => simp [run]
  | append_singleton calls call ih =>
    intro record hrecord
    rw [run_concat] at hrecord
    by_cases hold : record ∈ (run calls)._merges
    · obtain ⟨earlier, decision, decided_by, hearlier, hmerge⟩ := ih record hold
      exact ⟨earlier, decision, decided_by, hearlier.trans (List.prefix_append _ _), hmerge⟩
    cases call with
    | add entity_id mention_id => exact absurd hrecord hold
    | unmerge merge_id =>
      simp only [after] at hrecord
      split at hrecord
      · rename_i next hunmerge
        obtain ⟨-, -, -, hkept⟩ := unmerge_eq_ok hunmerge
        exact absurd (hkept record hrecord) hold
      · exact absurd hrecord hold
    | merge merge_id into absorbed decision decided_by =>
      simp only [after] at hrecord
      split at hrecord
      · rename_i next made hmerge
        obtain ⟨-, hid, hinto, habsorbed, -, -, -, hmerges⟩ := merge_eq_ok hmerge
        rw [hmerges, List.mem_append, List.mem_singleton] at hrecord
        obtain rfl := hrecord.resolve_left hold
        rw [hid, hinto, habsorbed]
        exact ⟨calls, decision, decided_by, List.prefix_rfl, next, hmerge⟩
      · exact absurd hrecord hold

theorem entities_differ (calls : List RegistryCall) (hrecord : record ∈ (run calls)._merges) :
    record.entity_id ≠ record.absorbed_entity_id := by
  obtain ⟨_, _, _, -, _, hmerge⟩ := merged_of_mem calls record hrecord
  exact (merge_eq_ok hmerge).1

theorem held_add_run (calls : List RegistryCall) (entity_id mention_id : String) :
    (run (calls ++ [.add entity_id mention_id])).held = added (calls ++ [.add entity_id mention_id]) ↔
      (run calls).held = added calls := by
  have hadded : added (calls ++ [.add entity_id mention_id]) = added calls + {mention_id} := by
    simp [added, ← Multiset.coe_add]
  rw [run_concat, hadded, after, held_add, add_left_inj]

-- What a call does to a conserving registry.
theorem conserved_concat (calls : List RegistryCall) (call : RegistryCall)
    (hconserved : (run calls).held = added calls) :
    (run (calls ++ [call])).held = added (calls ++ [call]) ↔
      ∀ merge_id, call = .unmerge merge_id → (run calls).Intact merge_id := by
  cases call with
  | add entity_id mention_id => simpa using (held_add_run calls entity_id mention_id).mpr hconserved
  | merge merge_id into absorbed decision decided_by =>
    have hadded : added (calls ++ [.merge merge_id into absorbed decision decided_by]) =
        added calls := by
      simp [added]
    rw [run_concat, hadded, ← hconserved]
    simp only [after, reduceCtorEq, false_implies, implies_true, iff_true]
    split
    · rename_i hmerge
      exact held_merge hmerge
    · rfl
  | unmerge merge_id =>
    have hadded : added (calls ++ [.unmerge merge_id]) = added calls := by
      simp [added]
    rw [run_concat, hadded, ← hconserved]
    simp only [after, RegistryCall.unmerge.injEq, forall_eq']
    split
    · rename_i next hunmerge
      obtain ⟨record, hrecorded, -, -⟩ := unmerge_eq_ok hunmerge
      exact held_unmerge_iff hunmerge hrecorded
        (entities_differ calls (mem_merges_of_recorded hrecorded).1)
    · rename_i hunmerge
      refine iff_of_true rfl ?_
      intro record hrecorded
      simp [unmerge, Option.mem_def.mp hrecorded] at hunmerge

theorem restored_of_unmerge (calls : List RegistryCall)
    (hunmerge : (run calls).unmerge merge_id = .ok next) :
    ∃ earlier into absorbed decision decided_by merged record,
      earlier ++ [.merge merge_id into absorbed decision decided_by] <+: calls ∧
      (run earlier).merge merge_id into absorbed decision decided_by = .ok (merged, record) ∧
      (run calls).recorded merge_id = some record ∧
      next.members into = (run earlier).members into ∧
      next.members absorbed = (run earlier).members absorbed := by
  obtain ⟨record, hrecorded, hmembers, -⟩ := unmerge_eq_ok hunmerge
  obtain ⟨hmem, rfl⟩ := mem_merges_of_recorded hrecorded
  obtain ⟨earlier, decision, decided_by, hearlier, merged, hmerge⟩ :=
    merged_of_mem calls record hmem
  obtain ⟨hne, -, -, -, hinto, habsorbed, -, -⟩ := merge_eq_ok hmerge
  refine ⟨earlier, _, _, decision, decided_by, merged, record, hearlier, hmerge, hrecorded, ?_, ?_⟩
  · simp [members, hmembers, Dict.get?_set_of_ne _ _ hne, hinto]
  · simp [members, hmembers, habsorbed]

-- Mentions are conserved throughout a run exactly when each undo finds its two entities holding
-- together what the merge saved; what it gives them back is always what they held at the merge.
theorem mentions_conserved_iff (calls : List RegistryCall) :
    ((∀ earlier, earlier <+: calls → (run earlier).held = added earlier) ↔
      ∀ earlier merge_id, earlier ++ [.unmerge merge_id] <+: calls →
        (run earlier).Intact merge_id) ∧
    ∀ merge_id restored, (run calls).unmerge merge_id = .ok restored →
      ∃ earlier into absorbed decision decided_by merged record,
        earlier ++ [.merge merge_id into absorbed decision decided_by] <+: calls ∧
        (run earlier).merge merge_id into absorbed decision decided_by = .ok (merged, record) ∧
        (run calls).recorded merge_id = some record ∧
        restored.members into = (run earlier).members into ∧
        restored.members absorbed = (run earlier).members absorbed := by
  refine ⟨?_, fun merge_id restored => restored_of_unmerge calls⟩
  induction calls using List.reverseRecOn with
  | nil => simp [run, added, held]
  | append_singleton calls call ih =>
    simp only [List.prefix_concat_iff, forall_eq_or_imp, List.append_singleton_inj]
    constructor
    · rintro ⟨hlast, hearlier⟩ earlier merge_id (⟨rfl, hcall⟩ | hprefix)
      · exact (conserved_concat earlier call (hearlier earlier List.prefix_rfl)).mp hlast merge_id
          hcall.symm
      · exact ih.mp hearlier earlier merge_id hprefix
    · intro hintact
      have hearlier := ih.mpr fun earlier merge_id h => hintact earlier merge_id (.inr h)
      refine ⟨(conserved_concat calls call (hearlier calls List.prefix_rfl)).mpr ?_, hearlier⟩
      intro merge_id hcall
      exact hintact calls merge_id (.inl ⟨rfl, hcall.symm⟩)

def resolver_decision : MergeDecision where
  verdict := .AUTO_MERGE
  entity_id := some "acme"
  tier := some .SYSTEM_OF_RECORD
  score := .finite 1
  reason := "an external system identifier matched exactly"

-- Undone oldest first, the second undo brings back a mention the first has already returned.
example :
    let calls : List RegistryCall := [.add "a" "m1", .add "b" "m2", .add "c" "m3",
      .merge "merge-1" "a" "b" resolver_decision "system",
      .merge "merge-2" "a" "c" resolver_decision "system", .unmerge "merge-1", .unmerge "merge-2"]
    (run calls).held = {"m1", "m2", "m2", "m3"} := by
  decide

-- The mention that arrives between a merge and its undo is lost.
theorem mention_lost :
    let calls : List RegistryCall := [.add "acme" "m1", .add "acme-corp" "m2",
      .merge "merge-1" "acme" "acme-corp" resolver_decision "system", .add "acme" "m3",
      .unmerge "merge-1"]
    added calls = {"m1", "m2", "m3"} ∧ (run calls).held = {"m1", "m2"} ∧
    ¬ (run calls).held = added calls := by
  decide

end EntityRegistry

end KnowledgeCompiler.Entities
