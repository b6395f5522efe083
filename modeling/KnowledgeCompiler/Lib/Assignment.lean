import Mathlib.Algebra.Order.BigOperators.Group.Finset
import Mathlib.Logic.Equiv.Fintype

namespace KnowledgeCompiler.Lib.Assignment

open Finset

variable {ν R : Type*} [Fintype ν]

-- No column is the partner of two rows.
def Injective {ι κ : Type*} (partner : ι → Option κ) : Prop :=
  ∀ first second column, partner first = some column → partner second = some column →
    first = second

-- Every partial matching of a square is part of a full one.
theorem exists_perm_extending [DecidableEq ν] (partner : ν → Option ν)
    (hinj : Injective partner) :
    ∃ full : Equiv.Perm ν, ∀ row column, partner row = some column → full row = column := by
  let matched (row : ν) : Prop := ∃ column, partner row = some column
  let taken (column : ν) : Prop := ∃ row, partner row = some column
  have : DecidablePred matched := fun _ => Classical.propDecidable _
  have : DecidablePred taken := fun _ => Classical.propDecidable _
  let toTaken (row : {row // matched row}) : {column // taken column} :=
    ⟨row.2.choose, row.1, row.2.choose_spec⟩
  have hbij : Function.Bijective toTaken := by
    constructor
    · intro first second he
      have hc : first.2.choose = second.2.choose := congrArg Subtype.val he
      exact Subtype.ext (hinj _ _ _ (hc ▸ first.2.choose_spec) second.2.choose_spec)
    · rintro ⟨column, row, hr⟩
      refine ⟨⟨row, column, hr⟩, Subtype.ext ?_⟩
      have hs := (⟨column, hr⟩ : matched row).choose_spec
      exact Option.some.inj (hs.symm.trans hr)
  let pairing := Equiv.ofBijective toTaken hbij
  refine ⟨pairing.extendSubtype, fun row column hr => ?_⟩
  have hm : matched row := ⟨column, hr⟩
  rw [Equiv.extendSubtype_apply_of_mem pairing row hm]
  exact Option.some.inj (hm.choose_spec.symm.trans hr)

variable [AddCommGroup R] [LinearOrder R] [IsOrderedAddMonoid R]

def total {ι κ : Type*} (rows : Finset ι) (weight : ι → κ → R) (partner : ι → Option κ) : R :=
  ∑ row ∈ rows, (partner row).elim 0 (weight row)

-- Weak duality: prices that cover every weight and are tight along a full
-- matching leave no heavier partial matching.
theorem total_le_of_prices (weight : ν → ν → R) (rowPrice columnPrice : ν → R)
    (hw : ∀ row column, 0 ≤ weight row column)
    (hcover : ∀ row column, weight row column ≤ rowPrice row + columnPrice column)
    (best : Equiv.Perm ν)
    (htight : ∀ row, weight row (best row) = rowPrice row + columnPrice (best row))
    (partner : ν → Option ν) (hinj : Injective partner) :
    total univ weight partner ≤ ∑ row, weight row (best row) := by
  classical
  obtain ⟨full, hfull⟩ := exists_perm_extending partner hinj
  calc
    total univ weight partner ≤ ∑ row, weight row (full row) := by
      apply sum_le_sum
      intro row _
      cases hp : partner row with
      | none => exact hw row _
      | some column => exact (hfull row column hp ▸ le_rfl)
    _ ≤ ∑ row, (rowPrice row + columnPrice (full row)) := sum_le_sum fun row _ => hcover row _
    _ = ∑ row, rowPrice row + ∑ row, columnPrice row := by
      rw [sum_add_distrib, Equiv.sum_comp full columnPrice]
    _ = ∑ row, (rowPrice row + columnPrice (best row)) := by
      rw [sum_add_distrib, Equiv.sum_comp best columnPrice]
    _ = ∑ row, weight row (best row) := sum_congr rfl fun row _ => (htight row).symm

end KnowledgeCompiler.Lib.Assignment
