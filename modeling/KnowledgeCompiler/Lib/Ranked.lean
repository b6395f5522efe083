import Mathlib.Data.List.Sort
import Mathlib.Data.List.Induction

namespace KnowledgeCompiler.Lib.Ranked

variable {α β κ : Type*} [LinearOrder κ]

def rank (key : β → κ) (entries : List β) : List β :=
  entries.insertionSort (fun a b => key a ≤ key b)

-- The first `count` entries of the ranking.
def leading (key : β → κ) (count : Nat) (entries : List β) : List β :=
  (rank key entries).take count

def absorb (key : β → κ) (count : Nat) (top : List β) (entry : β) : List β :=
  leading key count (top ++ [entry])

-- All `count` places are taken by entries that rank before `limit`.
def Settled (key : β → κ) (count : Nat) (top : List β) (limit : κ) : Prop :=
  match top.getLast? with
  | none => False
  | some last => top.length = count ∧ key last < limit

instance (key : β → κ) (count : Nat) (top : List β) (limit : κ) :
    Decidable (Settled key count top limit) := by
  unfold Settled
  cases top.getLast? <;> infer_instance

-- Examine candidates in the given order and stop at the first one whose
-- bound is past the places already taken.
def walk (examine : α → β) (key : β → κ) (bound : α → κ) (count : Nat) :
    List β → List α → List β
  | top, [] => top
  | top, next :: rest =>
      if Settled key count top (bound next) then top
      else walk examine key bound count (absorb key count top (examine next)) rest

section Rank

variable (key : β → κ)

theorem rank_perm (entries : List β) : (rank key entries).Perm entries :=
  List.perm_insertionSort _ entries

theorem rank_pairwise (entries : List β) :
    (rank key entries).Pairwise (fun a b => key a ≤ key b) :=
  have : Std.Total (fun a b : β => key a ≤ key b) := ⟨fun a b => le_total (key a) (key b)⟩
  have : IsTrans β (fun a b => key a ≤ key b) := ⟨fun _ _ _ h h' => le_trans h h'⟩
  List.pairwise_insertionSort _ entries

theorem rank_of_pairwise (entries : List β)
    (hs : entries.Pairwise (fun a b => key a ≤ key b)) : rank key entries = entries :=
  List.Pairwise.insertionSort_eq hs

-- Distinct keys leave one ranking only, whatever order the entries came in.
theorem rank_eq_of_perm {first second : List β} (hp : first.Perm second)
    (hd : (first.map key).Nodup) : rank key first = rank key second := by
  have hf := rank_perm key first
  have hs := rank_perm key second
  have hinj := List.inj_on_of_nodup_map hd
  refine (@List.Perm.eq_of_pairwise _ (fun a b => key a ≤ key b)) ?_
    (rank_pairwise key first) (rank_pairwise key second) (hf.trans (hp.trans hs.symm))
  intro a b ha hb hab hba
  exact hinj (hf.mem_iff.mp ha) (hp.mem_iff.mpr (hs.mem_iff.mp hb)) (le_antisymm hab hba)

theorem rank_append_singleton (entries : List β) (entry : β)
    (hd : ((entries ++ [entry]).map key).Nodup) :
    rank key (entries ++ [entry]) =
      (rank key entries).orderedInsert (fun a b => key a ≤ key b) entry := by
  rw [rank_eq_of_perm key (List.perm_append_singleton entry entries) hd]
  rfl

theorem leading_subset (count : Nat) (entries : List β) {entry : β}
    (he : entry ∈ leading key count entries) : entry ∈ entries :=
  (rank_perm key entries).mem_iff.mp (List.mem_of_mem_take he)

theorem leading_pairwise (count : Nat) (entries : List β) :
    (leading key count entries).Pairwise (fun a b => key a ≤ key b) :=
  (rank_pairwise key entries).sublist (List.take_sublist _ _)

theorem leading_eq_of_perm {first second : List β} (hp : first.Perm second)
    (hd : (first.map key).Nodup) (count : Nat) :
    leading key count first = leading key count second := by
  rw [leading, rank_eq_of_perm key hp hd, leading]

@[simp] theorem leading_nil (count : Nat) : leading key count [] = [] := by
  simp [leading, rank]

theorem leading_length (count : Nat) (entries : List β) :
    (leading key count entries).length = min count entries.length := by
  simp [leading, rank]

end Rank

section Admit

variable (key : β → κ) (count : Nat)

private theorem take_orderedInsert_take (r : β → β → Prop) [DecidableRel r] (entry : β)
    (entries : List β) (count : Nat) :
    ((entries.take count).orderedInsert r entry).take count =
      (entries.orderedInsert r entry).take count := by
  induction entries generalizing count with
  | nil => simp
  | cons head tail ih =>
      cases count with
      | zero => simp
      | succ count =>
          simp only [List.take_succ_cons, List.orderedInsert]
          by_cases hr : r entry head
          · simp only [hr, ite_true, List.take_succ_cons]
            cases count with
            | zero => simp
            | succ count => simp [List.take_take]
          · simp only [hr, ite_false, List.take_succ_cons, ih]

private theorem take_orderedInsert_of_lt (entry : β) (entries : List β) (count : Nat)
    (hlt : ∀ other ∈ (entries.orderedInsert (fun a b => key a ≤ key b) entry).take count,
      key other < key entry) :
    (entries.orderedInsert (fun a b => key a ≤ key b) entry).take count =
      entries.take count := by
  induction entries generalizing count with
  | nil =>
      cases count with
      | zero => rfl
      | succ count => exact absurd (hlt entry (by simp)) (lt_irrefl _)
  | cons head tail ih =>
      cases count with
      | zero => rfl
      | succ count =>
          simp only [List.orderedInsert] at hlt ⊢
          by_cases hr : key entry ≤ key head
          · simp only [hr, ite_true] at hlt
            exact absurd (hlt entry (by simp)) (lt_irrefl _)
          · simp only [hr, ite_false, List.take_succ_cons] at hlt ⊢
            rw [ih count (fun other ho => hlt other (List.mem_cons_of_mem _ ho))]

-- Forgetting all but the leading entries loses nothing for later ones.
theorem absorb_leading (entries : List β) (entry : β)
    (hd : ((entries ++ [entry]).map key).Nodup) :
    absorb key count (leading key count entries) entry =
      leading key count (entries ++ [entry]) := by
  have hsub : ((leading key count entries ++ [entry]).map key).Nodup := by
    have hp : ((rank key entries ++ [entry]).map key).Nodup :=
      (((rank_perm key entries).append_right [entry]).map key).nodup_iff.mpr hd
    exact hp.sublist (((List.take_sublist count _).append_right [entry]).map key)
  unfold absorb
  rw [leading, rank_append_singleton key _ entry hsub,
    rank_of_pairwise key _ (leading_pairwise key count entries), leading, take_orderedInsert_take,
    ← rank_append_singleton key entries entry hd, leading]

theorem Settled.forall_lt {top : List β} {limit : κ} (hs : Settled key count top limit)
    (hp : top.Pairwise (fun a b => key a ≤ key b)) :
    top.length = count ∧ ∀ entry ∈ top, key entry < limit := by
  unfold Settled at hs
  cases hl : top.getLast? with
  | none => simp [hl] at hs
  | some last =>
      simp only [hl] at hs
      obtain ⟨init, rfl⟩ := List.getLast?_eq_some_iff.mp hl
      refine ⟨hs.1, fun entry he => ?_⟩
      rcases List.mem_append.mp he with hi | hi
      · exact ((List.pairwise_append.mp hp).2.2 entry hi last (by simp)).trans_lt hs.2
      · exact (List.mem_singleton.mp hi) ▸ hs.2

theorem absorb_of_settled {top : List β} {limit : κ} (hs : Settled key count top limit)
    (hp : top.Pairwise (fun a b => key a ≤ key b)) (entry : β) (hle : limit ≤ key entry) :
    absorb key count top entry = top := by
  obtain ⟨hlen, hlt⟩ := hs.forall_lt key count hp
  have hsorted : (top ++ [entry]).Pairwise (fun a b => key a ≤ key b) := by
    refine List.pairwise_append.mpr ⟨hp, by simp, fun a ha b hb => ?_⟩
    exact (List.mem_singleton.mp hb) ▸ ((hlt a ha).trans_le hle).le
  rw [absorb, leading, rank_of_pairwise key _ hsorted, ← hlen, List.take_left]

theorem leading_append_of_settled (entries later : List β) {limit : κ}
    (hd : ((entries ++ later).map key).Nodup)
    (hs : Settled key count (leading key count entries) limit)
    (hle : ∀ entry ∈ later, limit ≤ key entry) :
    leading key count (entries ++ later) = leading key count entries := by
  induction later generalizing entries with
  | nil => simp
  | cons entry later ih =>
      have hsplit : entries ++ entry :: later = (entries ++ [entry]) ++ later := by simp
      rw [hsplit] at hd ⊢
      have hone : leading key count (entries ++ [entry]) = leading key count entries := by
        rw [← absorb_leading key count entries entry
          (hd.sublist ((List.sublist_append_left _ _).map key))]
        exact absorb_of_settled key count hs (leading_pairwise key count entries) entry
          (hle entry (by simp))
      rw [ih (entries ++ [entry]) hd (hone ▸ hs) (fun e he => hle e (by simp [he])), hone]

-- The converse: places settled at the end were settled before the late entries came.
theorem leading_of_settled_append (entries later : List β) {limit : κ}
    (hd : ((entries ++ later).map key).Nodup)
    (hs : Settled key count (leading key count (entries ++ later)) limit)
    (hle : ∀ entry ∈ later, limit ≤ key entry) :
    leading key count (entries ++ later) = leading key count entries := by
  induction later using List.reverseRecOn with
  | nil => simp
  | append_singleton later entry ih =>
      rw [← List.append_assoc] at hd hs ⊢
      obtain ⟨_, hlt⟩ := hs.forall_lt key count (leading_pairwise key count _)
      have hone : leading key count (entries ++ later ++ [entry]) =
          leading key count (entries ++ later) := by
        have hstep := rank_append_singleton key (entries ++ later) entry hd
        rw [leading, hstep] at hlt ⊢
        exact take_orderedInsert_of_lt key entry _ count
          (fun other ho => (hlt other ho).trans_le (hle entry (by simp)))
      rw [hone] at hs ⊢
      exact ih (hd.sublist ((List.sublist_append_left _ _).map key)) hs
        (fun e he => hle e (by simp [he]))

end Admit

section Walk

variable (examine : α → β) (key : β → κ) (bound : α → κ) (count : Nat)

-- Bounds are admissible when they never rank a candidate after its true place.
def Admissible (candidates : List α) : Prop :=
  ∀ candidate ∈ candidates, bound candidate ≤ key (examine candidate)

def BoundSorted (candidates : List α) : Prop :=
  candidates.Pairwise (fun a b => bound a ≤ bound b)

private theorem bound_le_key {next : α} {rest : List α} (hs : BoundSorted bound (next :: rest))
    (ha : Admissible examine key bound (next :: rest)) :
    ∀ entry ∈ (next :: rest).map examine, bound next ≤ key entry := by
  intro entry he
  obtain ⟨candidate, hc, rfl⟩ := List.mem_map.mp he
  refine le_trans ?_ (ha candidate hc)
  rcases List.mem_cons.mp hc with rfl | hc
  · exact le_rfl
  · exact (List.pairwise_cons.mp hs).1 candidate hc

-- The walk through a sorted group either meets a settled bound and ends with
-- the group's leading entries, or hands exactly these on to what follows.
theorem walk_append (seen hot cold : List α) (hs : BoundSorted bound hot)
    (ha : Admissible examine key bound hot)
    (hd : (((seen ++ hot).map examine).map key).Nodup) :
    walk examine key bound count (leading key count (seen.map examine)) (hot ++ cold) =
      if ∃ next ∈ hot, Settled key count (leading key count ((seen ++ hot).map examine)) (bound next)
      then leading key count ((seen ++ hot).map examine)
      else walk examine key bound count (leading key count ((seen ++ hot).map examine)) cold := by
  induction hot generalizing seen with
  | nil => simp
  | cons next hot ih =>
      have hle := bound_le_key examine key bound hs ha
      have hsplit : seen ++ next :: hot = (seen ++ [next]) ++ hot := by simp
      rw [List.cons_append, walk]
      by_cases hstop : Settled key count (leading key count (seen.map examine)) (bound next)
      · have heq : leading key count ((seen ++ next :: hot).map examine) =
            leading key count (seen.map examine) := by
          rw [List.map_append] at hd ⊢
          exact leading_append_of_settled key count _ _ hd hstop hle
        rw [if_pos hstop, heq, if_pos ⟨next, by simp, hstop⟩]
      · rw [if_neg hstop]
        have habsorb : absorb key count (leading key count (seen.map examine)) (examine next) =
            leading key count ((seen ++ [next]).map examine) := by
          rw [List.map_append, List.map_singleton]
          apply absorb_leading
          rw [hsplit] at hd
          simpa using hd.sublist
            (((List.sublist_append_left (seen ++ [next]) hot).map examine).map key)
        -- the entry just passed cannot be the one that settles the final places
        have hnot : ¬Settled key count (leading key count ((seen ++ next :: hot).map examine))
            (bound next) := by
          intro hset
          rw [List.map_append] at hd hset
          have heq := leading_of_settled_append key count _ _ hd hset hle
          exact hstop (heq ▸ hset)
        rw [habsorb, ih (seen ++ [next]) (List.pairwise_cons.mp hs).2
          (fun c hc => ha c (List.mem_cons_of_mem _ hc)) (hsplit ▸ hd), ← hsplit]
        simp only [List.mem_cons, exists_eq_or_imp, hnot, false_or]

theorem walk_sorted (seen candidates : List α) (hs : BoundSorted bound candidates)
    (ha : Admissible examine key bound candidates)
    (hd : (((seen ++ candidates).map examine).map key).Nodup) :
    walk examine key bound count (leading key count (seen.map examine)) candidates =
      leading key count ((seen ++ candidates).map examine) := by
  have h := walk_append examine key bound count seen candidates [] hs ha hd
  simpa [walk] using h

end Walk

section Pick

variable (clash : α → α → Prop) [DecidableRel clash]

-- The items in order, each unless it clashes with one that is taken, up to a limit.
def pick (limit : Nat) : List α → List α → List α
  | taken, [] => taken
  | taken, item :: rest =>
      if taken.any (fun other => clash item other) then pick limit taken rest
      else if limit ≤ (taken ++ [item]).length then taken ++ [item]
      else pick limit (taken ++ [item]) rest

variable {clash}

theorem prefix_pick (limit : Nat) (taken items : List α) : taken <+: pick clash limit taken items := by
  induction items generalizing taken with
  | nil => exact List.prefix_refl taken
  | cons item rest ih =>
      unfold pick
      split
      · exact ih taken
      split
      · exact List.prefix_append taken [item]
      · exact (List.prefix_append taken [item]).trans (ih _)

theorem sublist_pick (limit : Nat) (taken items : List α) :
    (pick clash limit taken items).Sublist (taken ++ items) := by
  induction items generalizing taken with
  | nil => exact List.sublist_append_left taken []
  | cons item rest ih =>
      have hmoved : taken ++ item :: rest = taken ++ [item] ++ rest := List.append_cons taken item rest
      unfold pick
      split
      · exact (ih taken).trans ((List.sublist_cons_self item rest).append_left taken)
      split
      · exact hmoved ▸ List.sublist_append_left _ rest
      · exact hmoved ▸ ih _

theorem pick_pairwise (hsymm : ∀ first second, clash first second → clash second first) (limit : Nat)
    {taken : List α} (htaken : taken.Pairwise (fun first second => ¬clash first second))
    (items : List α) :
    (pick clash limit taken items).Pairwise (fun first second => ¬clash first second) := by
  induction items generalizing taken with
  | nil => exact htaken
  | cons item rest ih =>
      unfold pick
      split
      · exact ih htaken
      · rename_i hfree
        have hmore : (taken ++ [item]).Pairwise (fun first second => ¬clash first second) := by
          refine List.pairwise_append.mpr ⟨htaken, List.pairwise_singleton _ item, ?_⟩
          intro other hother last hlast hclash
          rw [List.mem_singleton.mp hlast] at hclash
          exact hfree (List.any_eq_true.mpr ⟨other, hother, decide_eq_true (hsymm _ _ hclash)⟩)
        split
        · exact hmore
        · exact ih hmore

-- Items that do not clash are all taken while there is room for them.
theorem pick_of_apart (hsymm : ∀ first second, clash first second → clash second first) {limit : Nat}
    {taken items : List α}
    (hapart : (taken ++ items).Pairwise (fun first second => ¬clash first second))
    (hroom : (taken ++ items).length ≤ limit) : pick clash limit taken items = taken ++ items := by
  induction items generalizing taken with
  | nil => exact (List.append_nil taken).symm
  | cons item rest ih =>
      rw [List.append_cons] at hapart hroom ⊢
      have hfree : ¬taken.any (fun other => clash item other) := by
        rw [List.any_eq_true]
        rintro ⟨other, hother, hclash⟩
        have htaken := (List.pairwise_append.mp (List.pairwise_append.mp hapart).1).2.2
        exact htaken other hother item List.mem_cons_self (hsymm _ _ (of_decide_eq_true hclash))
      rw [pick, if_neg hfree]
      split
      · rename_i hfull
        have hrest : rest = [] := List.length_eq_zero_iff.mp (by
          rw [List.length_append] at hroom
          omega)
        rw [hrest, List.append_nil]
      · exact ih hapart hroom

-- An item that is not taken clashes with one before it that is, or comes after the whole of a limit.
theorem mem_pick {before : α → α → Prop} {limit : Nat} {taken items : List α}
    (hlimit : taken.length < limit) (hordered : (taken ++ items).Pairwise before) {item : α}
    (hitem : item ∈ items) :
    item ∈ pick clash limit taken items ∨
      (∃ other ∈ pick clash limit taken items, before other item ∧ clash item other) ∨
      ((pick clash limit taken items).length = limit ∧
        ∀ other ∈ pick clash limit taken items, before other item) := by
  induction items generalizing taken with
  | nil => cases hitem
  | cons first rest ih =>
      have hmoved : (taken ++ [first] ++ rest).Pairwise before := by rwa [← List.append_cons]
      unfold pick
      split
      · rename_i hclash
        have hrest : (taken ++ rest).Pairwise before :=
          hordered.sublist ((List.sublist_cons_self first rest).append_left taken)
        rcases List.mem_cons.mp hitem with rfl | hlater
        · obtain ⟨other, hother, hmark⟩ := List.any_eq_true.mp hclash
          refine .inr (.inl ⟨other, (prefix_pick limit taken rest).subset hother, ?_,
            of_decide_eq_true hmark⟩)
          exact (List.pairwise_append.mp hordered).2.2 other hother item List.mem_cons_self
        · exact ih hlimit hrest hlater
      split
      · rename_i hfull
        rw [List.length_append, List.length_singleton] at hfull
        rcases List.mem_cons.mp hitem with rfl | hlater
        · exact .inl (List.mem_append_right _ List.mem_cons_self)
        · refine .inr (.inr ⟨?_, fun other hother => ?_⟩)
          · rw [List.length_append, List.length_singleton]
            omega
          · exact (List.pairwise_append.mp hmoved).2.2 other hother item hlater
      · rename_i hroom
        rcases List.mem_cons.mp hitem with rfl | hlater
        · exact .inl ((prefix_pick limit _ rest).subset (List.mem_append_right _ List.mem_cons_self))
        · exact ih (not_le.mp hroom) hmoved hlater

end Pick

end KnowledgeCompiler.Lib.Ranked
