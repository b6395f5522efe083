import KnowledgeCompiler.Ledger.Identity
import KnowledgeCompiler.Lib.Forest

namespace KnowledgeCompiler.Ledger

open Lib Forest

inductive IdentityStatus
  | ACTIVE
  | ABSORBED
  | RETIRED
deriving DecidableEq

-- The state is mutable during the fold and frozen after it; the fields are the same.
structure IdentityState where
  logical_id : StrippedText
  status : IdentityStatus := .ACTIVE
  first_seq : Int := 0
  last_seq : Int := 0
  transitions : Nat := 0
  lineage : List StrippedText := []
  absorbed_into : Option StrippedText := none
deriving DecidableEq

abbrev IdentityMap := Dict StrippedText IdentityState

namespace IdentityMap

def state_for (states : IdentityMap) (logical_id : StrippedText) (seq : Int) : IdentityState :=
  (states.get? logical_id).getD { logical_id := logical_id, first_seq := seq }

def add_lineage (lineage priors : List StrippedText) : List StrippedText :=
  priors.foldl (fun lineage pid => if pid ∈ lineage then lineage else lineage ++ [pid]) lineage

def absorb (entry : LedgerEntry) (states : IdentityMap) (pid : StrippedText) : IdentityMap :=
  let absorbed := states.state_for pid entry.seq
  states.set pid { absorbed with status := .ABSORBED, absorbed_into := some entry.logical_id }

-- The loop's body.
def fold_entry (states : IdentityMap) (entry : LedgerEntry) : IdentityMap :=
  let found := states.state_for entry.logical_id entry.seq
  let subject := { found with last_seq := entry.seq, transitions := found.transitions + 1 }
  let priors := entry.prior_ids.filter (· ≠ entry.logical_id)
  if entry.kind = .RETIRE then
    states.set entry.logical_id { subject with status := .RETIRED, absorbed_into := none }
  else
    let active := states.set entry.logical_id
      { subject with
        status := .ACTIVE
        absorbed_into := none
        lineage := add_lineage subject.lineage priors }
    if entry.kind = .MERGE ∨ entry.kind = .SPLIT then priors.foldl (absorb entry) active else active

end IdentityMap

def replay (entries : List LedgerEntry) : IdentityMap :=
  entries.foldl IdentityMap.fold_entry .empty

namespace IdentityMap

-- Where an id was absorbed into, if it was.
def redirect (states : IdentityMap) (id : StrippedText) : Option StrippedText :=
  (states.get? id).bind IdentityState.absorbed_into

structure AbsorptionSound (states : IdentityMap) : Prop where
  marked : ∀ id state, states.get? id = some state →
    (state.absorbed_into.isSome = true ↔ state.status = .ABSORBED)
  target : ∀ id target, states.redirect id = some target → target ∈ states.keys ∧ target ≠ id
  resolves : ∀ id ∈ states.keys, ∃ root state, Leads states.redirect id root ∧
    states.get? root = some state ∧ (state.status = .ACTIVE ∨ state.status = .RETIRED)
  acyclic : ∀ id, ¬Relation.TransGen (fun first second => states.redirect first = some second) id id

-- What one entry leaves for the next one.
structure Redirects (states : IdentityMap) : Prop where
  marked : ∀ id state, states.get? id = some state →
    (state.absorbed_into.isSome = true ↔ state.status = .ABSORBED)
  target : ∀ id target, states.redirect id = some target → target ∈ states.keys ∧ target ≠ id
  rooted : Rooted states.redirect

theorem redirect_set (states : IdentityMap) (id : StrippedText) (state : IdentityState) :
    redirect (states.set id state) = Function.update states.redirect id state.absorbed_into := by
  funext other
  simp only [redirect, Dict.get?_set, Function.update_apply]
  split <;> rfl

theorem Redirects.empty : Redirects .empty := by
  refine ⟨by simp, by simp [redirect], fun node => ⟨node, .stop ?_⟩⟩
  simp [redirect]

-- A state is written that is a root, or that points at one.
theorem Redirects.set {states : IdentityMap} (hinv : Redirects states) (id : StrippedText)
    (state : IdentityState)
    (hmarked : state.absorbed_into.isSome = true ↔ state.status = .ABSORBED)
    (hroot : ∀ target, state.absorbed_into = some target →
      target ∈ states.keys ∧ target ≠ id ∧ states.redirect target = none) :
    Redirects (states.set id state) := by
  refine ⟨?_, ?_, ?_⟩
  · intro other found hget
    rw [Dict.get?_set] at hget
    split at hget
    · obtain rfl := Option.some.inj hget
      exact hmarked
    · exact hinv.marked other found hget
  · intro other target htarget
    rw [redirect_set, Function.update_apply] at htarget
    rw [Dict.mem_keys_set]
    split at htarget
    · rename_i he
      obtain ⟨hkey, hne, _⟩ := hroot target htarget
      exact ⟨Or.inr hkey, he ▸ hne⟩
    · obtain ⟨hkey, hne⟩ := hinv.target other target htarget
      exact ⟨Or.inr hkey, hne⟩
  · rw [redirect_set]
    cases habsorbed : state.absorbed_into with
    | none => exact hinv.rooted.release id
    | some target =>
        obtain ⟨_, hne, hnone⟩ := hroot target habsorbed
        exact hinv.rooted.point hnone hne

-- The subject stays a root while its priors are absorbed into it.
theorem Redirects.absorb_all (entry : LedgerEntry) (priors : List StrippedText)
    {states : IdentityMap} (hinv : Redirects states)
    (hpriors : ∀ pid ∈ priors, pid ≠ entry.logical_id) (hkey : entry.logical_id ∈ states.keys)
    (hnone : states.redirect entry.logical_id = none) :
    Redirects (priors.foldl (absorb entry) states) := by
  induction priors generalizing states with
  | nil => exact hinv
  | cons pid rest ih =>
      have hne : entry.logical_id ≠ pid := Ne.symm (hpriors pid List.mem_cons_self)
      rw [List.foldl_cons]
      apply ih
      · apply hinv.set pid
        · simp
        · intro target htarget
          obtain rfl := Option.some.inj htarget
          exact ⟨hkey, hne, hnone⟩
      · exact fun other ho => hpriors other (List.mem_cons_of_mem _ ho)
      · exact (Dict.mem_keys_set _ _ _ _).mpr (Or.inr hkey)
      · rw [absorb, redirect_set, Function.update_of_ne hne, hnone]

theorem Redirects.fold_entry {states : IdentityMap} (hinv : Redirects states)
    (entry : LedgerEntry) : Redirects (states.fold_entry entry) := by
  have hset (state : IdentityState) (hstatus : state.status ≠ .ABSORBED)
      (hnone : state.absorbed_into = none) : Redirects (states.set entry.logical_id state) := by
    apply hinv.set
    · simp [hnone, hstatus]
    · simp [hnone]
  unfold IdentityMap.fold_entry
  by_cases hretire : entry.kind = .RETIRE
  · rw [if_pos hretire]
    apply hset <;> simp
  · rw [if_neg hretire]
    by_cases habsorbs : entry.kind = .MERGE ∨ entry.kind = .SPLIT
    · rw [if_pos habsorbs]
      apply Redirects.absorb_all
      · apply hset <;> simp
      · exact fun pid hpid => by simpa using (List.mem_filter.mp hpid).2
      · exact (Dict.mem_keys_set _ _ _ _).mpr (Or.inl rfl)
      · rw [redirect_set, Function.update_self]
    · rw [if_neg habsorbs]
      apply hset <;> simp

theorem redirects_foldl (entries : List LedgerEntry) {states : IdentityMap}
    (hinv : Redirects states) : Redirects (entries.foldl IdentityMap.fold_entry states) := by
  induction entries generalizing states with
  | nil => exact hinv
  | cons entry rest ih => exact ih (hinv.fold_entry entry)

theorem Redirects.sound {states : IdentityMap} (hinv : Redirects states) :
    AbsorptionSound states := by
  refine ⟨hinv.marked, hinv.target, fun id hid => ?_, hinv.rooted.acyclic⟩
  obtain ⟨root, hleads⟩ := hinv.rooted id
  have hkey : root ∈ states.keys :=
    hleads.keeps (fun node target _ hn => (hinv.target node target hn).1) hid
  obtain ⟨state, hget⟩ := (states.mem_keys_iff root).mp hkey
  have hnone := hleads.root
  simp only [redirect, hget, Option.bind_some] at hnone
  have hmarked := hinv.marked root state hget
  refine ⟨root, state, hleads, hget, ?_⟩
  cases hstatus : state.status with
  | ACTIVE => exact Or.inl rfl
  | ABSORBED => simp [hnone, hstatus] at hmarked
  | RETIRED => exact Or.inr rfl

theorem replay_absorption_sound (entries : List LedgerEntry) : AbsorptionSound (replay entries) :=
  (redirects_foldl entries Redirects.empty).sound

end IdentityMap

end KnowledgeCompiler.Ledger
