import Mathlib.Data.List.Forall2
import Mathlib.Logic.Basic

namespace KnowledgeCompiler.Lib

-- A method of a mutable object: it returns or raises, and what it has changed
-- by then stays changed.
def Method (σ ε α : Type) : Type := σ → Except ε α × σ

namespace Method

variable {σ ε α β : Type}

def returns (value : α) : Method σ ε α := fun state => (.ok value, state)

def raises (error : ε) : Method σ ε α := fun state => (.error error, state)

def andThen (method : Method σ ε α) (next : α → Method σ ε β) : Method σ ε β := fun state =>
  match method state with
  | (.ok value, left) => next value left
  | (.error error, left) => (.error error, left)

instance : Monad (Method σ ε) where
  pure := returns
  bind := andThen

def self : Method σ ε σ := fun state => (.ok state, state)

def assign (change : σ → σ) : Method σ ε Unit := fun state => (.ok (), change state)

def require (holds : Prop) [Decidable holds] (error : ε) : Method σ ε Unit :=
  if holds then returns () else raises error

-- A computation that only looks, and may raise.
def check (result : Except ε α) : Method σ ε α := fun state => (result, state)

section Laws

variable {γ : Type}

theorem returns_bind (value : α) (next : α → Method σ ε β) :
    (returns value >>= next) = next value := rfl

theorem bind_assoc (method : Method σ ε α) (next : α → Method σ ε β) (last : β → Method σ ε γ) :
    (method >>= next >>= last) = (method >>= fun value => next value >>= last) := by
  funext state
  change andThen (andThen method next) last state = andThen method _ state
  unfold andThen
  cases method state with
  | mk result left => cases result <;> rfl

theorem bind_of_ok {method : Method σ ε α} {state left : σ} {value : α}
    (hrun : method state = (.ok value, left)) (next : α → Method σ ε β) :
    (method >>= next) state = next value left := by
  change andThen method next state = next value left
  rw [andThen, hrun]

theorem bind_of_error {method : Method σ ε α} {state left : σ} {error : ε}
    (hrun : method state = (.error error, left)) (next : α → Method σ ε β) :
    (method >>= next) state = (.error error, left) := by
  change andThen method next state = (.error error, left)
  rw [andThen, hrun]

theorem check_ok (value : α) : (check (.ok value) : Method σ ε α) = returns value := rfl

theorem check_bind (result : Except ε α) (next : α → Except ε β) :
    (check (result >>= next) : Method σ ε β) = (check result >>= fun value => check (next value)) := by
  cases result <;> rfl

theorem of_bind_eq_ok {result : Except ε α} {next : α → Except ε β} {value : β}
    (hbind : (result >>= next) = .ok value) :
    ∃ middle, result = .ok middle ∧ next middle = .ok value := by
  cases result with
  | error error => cases hbind
  | ok middle => exact ⟨middle, rfl, hbind⟩

theorem except_bind_eq_ok_iff {result : Except ε α} {next : α → Except ε β} {value : β} :
    (result >>= next) = .ok value ↔ ∃ middle, result = .ok middle ∧ next middle = .ok value := by
  refine ⟨of_bind_eq_ok, ?_⟩
  rintro ⟨middle, rfl, hnext⟩
  exact hnext

theorem foldlM_keeps {step : β → α → Except ε β} (holds : β → Prop)
    (hstep : ∀ state item next, holds state → step state item = .ok next → holds next)
    (items : List α) {state final : β} (hstate : holds state)
    (hfold : items.foldlM step state = .ok final) : holds final := by
  induction items generalizing state with
  | nil =>
    cases hfold
    exact hstate
  | cons item rest ih =>
    rw [List.foldlM_cons] at hfold
    obtain ⟨next, hnext, hrest⟩ := of_bind_eq_ok hfold
    exact ih (hstep state item next hstate hnext) hrest

theorem isOk_bind_congr {result : Except ε α} {next : α → Except ε β} {other : α → Except ε γ}
    (hnext : ∀ value, (next value).isOk = (other value).isOk) :
    (result >>= next).isOk = (result >>= other).isOk := by
  cases result with
  | error error => rfl
  | ok value => exact hnext value

theorem isOk_map (result : Except ε α) (change : α → β) :
    (result.map change).isOk = result.isOk := by
  cases result <;> rfl

theorem isOk_mapError (result : Except ε α) (change : ε → γ) :
    (result.mapError change).isOk = result.isOk := by
  cases result <;> rfl

theorem mapError_eq_ok_iff {result : Except ε α} {change : ε → γ} {value : α} :
    result.mapError change = .ok value ↔ result = .ok value := by
  cases result <;> simp [Except.mapError]

theorem exists_of_mapError_eq_error {result : Except ε α} {change : ε → γ} {raised : γ}
    (hraised : result.mapError change = .error raised) : ∃ error, result = .error error := by
  cases result with
  | error error => exact ⟨error, rfl⟩
  | ok found => cases hraised

theorem eq_ok_of_toOption {result : Except ε α} {value : α} (hvalue : result.toOption = some value) :
    result = .ok value := by
  cases result with
  | error error => cases hvalue
  | ok found => exact congrArg Except.ok (Option.some.inj hvalue)

-- A list is gone through when each of its items is.
theorem mapM_eq_ok_iff {step : α → Except ε β} {items : List α} {values : List β} :
    items.mapM step = .ok values ↔
      List.Forall₂ (fun item value => step item = .ok value) items values := by
  induction items generalizing values with
  | nil =>
    rw [List.mapM_nil, List.forall₂_nil_left_iff]
    exact ⟨fun h => (Except.ok.inj h).symm, fun h => congrArg Except.ok h.symm⟩
  | cons item items ih =>
    rw [List.mapM_cons, List.forall₂_cons_left_iff]
    constructor
    · intro hall
      obtain ⟨value, hvalue, hrest⟩ := of_bind_eq_ok hall
      obtain ⟨others, hothers, hmade⟩ := of_bind_eq_ok hrest
      exact ⟨value, others, hvalue, ih.mp hothers, (Except.ok.inj hmade).symm⟩
    · rintro ⟨value, others, hvalue, hothers, rfl⟩
      rw [hvalue, ih.mpr hothers]
      rfl

theorem exists_mapM_eq_ok {step : α → Except ε β} {holds : α → β → Prop} {items : List α}
    (hitems : ∀ item ∈ items, ∃ value, step item = .ok value ∧ holds item value) :
    ∃ values, items.mapM step = .ok values ∧ List.Forall₂ holds items values := by
  induction items with
  | nil => exact ⟨[], rfl, List.Forall₂.nil⟩
  | cons item items ih =>
    obtain ⟨⟨value, hvalue, hholds⟩, hrest⟩ := List.forall_mem_cons.mp hitems
    obtain ⟨values, hvalues, hall⟩ := ih hrest
    exact ⟨value :: values, by rw [List.mapM_cons, hvalue, hvalues]; rfl, List.Forall₂.cons hholds hall⟩

-- Every value comes from an item.
theorem exists_item_of_mapM {step : α → Except ε β} {items : List α} {values : List β}
    (hvalues : items.mapM step = .ok values) {value : β} (hvalue : value ∈ values) :
    ∃ item ∈ items, step item = .ok value := by
  obtain ⟨hlength, hall⟩ := List.forall₂_iff_get.mp (mapM_eq_ok_iff.mp hvalues)
  obtain ⟨i, rfl⟩ := List.mem_iff_get.mp hvalue
  have hi : i < items.length := hlength.symm ▸ i.isLt
  exact ⟨_, List.get_mem items ⟨i, hi⟩, hall i hi i.isLt⟩

-- Every item has a value.
theorem exists_value_of_mapM {step : α → Except ε β} {items : List α} {values : List β}
    (hvalues : items.mapM step = .ok values) {item : α} (hitem : item ∈ items) :
    ∃ value ∈ values, step item = .ok value := by
  obtain ⟨hlength, hall⟩ := List.forall₂_iff_get.mp (mapM_eq_ok_iff.mp hvalues)
  obtain ⟨i, rfl⟩ := List.mem_iff_get.mp hitem
  exact ⟨_, List.get_mem values ⟨i, hlength ▸ i.2⟩, hall i i.2 (hlength ▸ i.2)⟩

-- How a method that returned has run.

theorem bind_eq_ok_iff {method : Method σ ε α} {next : α → Method σ ε β} {state left : σ} {value : β} :
    (method >>= next) state = (.ok value, left) ↔
      ∃ middle between, method state = (.ok middle, between) ∧
        next middle between = (.ok value, left) := by
  have hbind : (method >>= next) state = andThen method next state := rfl
  rw [hbind, andThen]
  cases hrun : method state with
  | mk result between => cases result <;> simp

theorem returns_eq_ok_iff {value found : α} {state left : σ} :
    (returns value : Method σ ε α) state = (.ok found, left) ↔ found = value ∧ left = state := by
  simp only [returns, Prod.mk.injEq, Except.ok.injEq, eq_comm]

theorem raises_ne_ok {error : ε} {found : α} {state left : σ} :
    (raises error : Method σ ε α) state ≠ (.ok found, left) := fun hrun => by cases hrun

theorem check_eq_ok_iff {result : Except ε α} {value : α} {state left : σ} :
    (check result : Method σ ε α) state = (.ok value, left) ↔ result = .ok value ∧ left = state := by
  simp only [check, Prod.mk.injEq, eq_comm]

theorem assign_eq_ok_iff {change : σ → σ} {value : Unit} {state left : σ} :
    (assign change : Method σ ε Unit) state = (.ok value, left) ↔ left = change state := by
  simp only [assign, Prod.mk.injEq, true_and, eq_comm]

theorem require_eq_ok_iff {holds : Prop} [Decidable holds] {error : ε} {value : Unit} {state left : σ} :
    (require holds error : Method σ ε Unit) state = (.ok value, left) ↔ holds ∧ left = state := by
  by_cases hholds : holds
  · simp [require, hholds, returns, eq_comm]
  · simp [require, hholds, raises]

end Laws

-- The weakest condition on the state under which the method ends as asked.
def Ends (returned : α → σ → Prop) (raised : ε → σ → Prop) (method : Method σ ε α) (state : σ) :
    Prop :=
  match method state with
  | (.ok value, left) => returned value left
  | (.error error, left) => raised error left

section Rules

variable {returned : α → σ → Prop} {raised : ε → σ → Prop}

@[simp] theorem ends_pure (value : α) (state : σ) :
    Ends returned raised (pure value) state ↔ returned value state := Iff.rfl

@[simp] theorem ends_returns (value : α) (state : σ) :
    Ends returned raised (returns value) state ↔ returned value state := Iff.rfl

@[simp] theorem ends_raises (error : ε) (state : σ) :
    Ends returned raised (raises error) state ↔ raised error state := Iff.rfl

@[simp] theorem ends_bind {returned : β → σ → Prop} (method : Method σ ε α)
    (next : α → Method σ ε β) (state : σ) :
    Ends returned raised (method >>= next) state ↔
      Ends (fun value => Ends returned raised (next value)) raised method state := by
  have hbind : (method >>= next) state = andThen method next state := rfl
  unfold Ends
  rw [hbind, andThen]
  cases method state with
  | mk result left => cases result <;> rfl

@[simp] theorem ends_self {returned : σ → σ → Prop} (state : σ) :
    Ends returned raised self state ↔ returned state state := Iff.rfl

@[simp] theorem ends_assign {returned : Unit → σ → Prop} (change : σ → σ) (state : σ) :
    Ends returned raised (assign change) state ↔ returned () (change state) := Iff.rfl

@[simp] theorem ends_require {returned : Unit → σ → Prop} (holds : Prop) [Decidable holds]
    (error : ε) (state : σ) :
    Ends returned raised (require holds error) state ↔
      (holds → returned () state) ∧ (¬holds → raised error state) := by
  unfold require
  split
  · rename_i hholds
    simp [hholds]
  · rename_i hholds
    simp [hholds]

@[simp] theorem ends_check (result : Except ε α) (state : σ) :
    Ends returned raised (check result) state ↔
      (∀ value, result = .ok value → returned value state) ∧
        (∀ error, result = .error error → raised error state) := by
  cases result with
  | ok value => simp [check, Ends]
  | error error => simp [check, Ends]

@[simp] theorem ends_ite (holds : Prop) [Decidable holds] (first second : Method σ ε α)
    (state : σ) :
    Ends returned raised (if holds then first else second) state ↔
      (holds → Ends returned raised first state) ∧
        (¬holds → Ends returned raised second state) := by
  split
  · rename_i hholds
    simp [hholds]
  · rename_i hholds
    simp [hholds]

theorem Ends.imp {wider : α → σ → Prop} {widerRaised : ε → σ → Prop} {method : Method σ ε α}
    {state : σ} (hends : Ends returned raised method state)
    (hreturned : ∀ value left, returned value left → wider value left)
    (hraised : ∀ error left, raised error left → widerRaised error left) :
    Ends wider widerRaised method state := by
  unfold Ends at *
  cases hrun : method state with
  | mk result left =>
    rw [hrun] at hends
    cases result with
    | ok value => exact hreturned value left hends
    | error error => exact hraised error left hends

theorem Ends.then {wider : α → σ → Prop} {method : Method σ ε α} {state : σ}
    (hends : Ends returned raised method state)
    (hreturned : ∀ value left, returned value left → wider value left) :
    Ends wider raised method state :=
  hends.imp hreturned (fun _ _ hraised => hraised)

-- One method after another: the second starts in what the first leaves.
theorem Ends.bind {middle : β → σ → Prop} {method : Method σ ε β} {next : β → Method σ ε α}
    {state : σ} (hends : Ends middle raised method state)
    (hnext : ∀ value left, middle value left → Ends returned raised (next value) left) :
    Ends returned raised (method >>= next) state :=
  (ends_bind method next state).mpr (hends.then hnext)

-- However the method ends, the state it leaves is as asked.
theorem Ends.state {holds : σ → Prop} {method : Method σ ε α} {state : σ}
    (hends : Ends (fun _ => holds) (fun _ => holds) method state) : holds (method state).2 := by
  unfold Ends at hends
  cases hrun : method state with
  | mk result left =>
    rw [hrun] at hends
    cases result <;> exact hends

-- A method ends as it does.
theorem Ends.run {holds : Except ε α → σ → Prop} {method : Method σ ε α} {state : σ}
    (hends : Ends (fun value => holds (.ok value)) (fun error => holds (.error error)) method state) :
    holds (method state).1 (method state).2 := by
  unfold Ends at hends
  cases hrun : method state with
  | mk result left =>
    rw [hrun] at hends
    cases result <;> exact hends

theorem eq_outcome_of_ends {method : Method σ ε α} {state : σ} {outcome : Except ε α × σ}
    (hends : Ends (fun value left => (.ok value, left) = outcome)
      (fun error left => (.error error, left) = outcome) method state) : method state = outcome := by
  unfold Ends at hends
  cases hrun : method state with
  | mk result left =>
    rw [hrun] at hends
    cases result <;> exact hends

theorem eq_of_ends {method : Method σ ε α} {state left : σ} {value : α}
    (hends : Ends (fun found next => found = value ∧ next = left) (fun _ _ => False) method state) :
    method state = (.ok value, left) := by
  unfold Ends at hends
  cases hrun : method state with
  | mk result next =>
    rw [hrun] at hends
    cases result with
    | ok found => rw [hends.1, hends.2]
    | error error => exact hends.elim

end Rules

end Method

end KnowledgeCompiler.Lib
