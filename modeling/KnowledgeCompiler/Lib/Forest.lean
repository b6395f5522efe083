import Mathlib.Logic.Function.Basic
import Mathlib.Logic.Relation

namespace KnowledgeCompiler.Lib.Forest

variable {α : Type*} (next : α → Option α)

-- Following `next` from a node ends at a root.
inductive Leads : α → α → Prop
  | stop {node : α} (hn : next node = none) : Leads node node
  | follow {node target root : α} (hn : next node = some target) (hrest : Leads target root) :
      Leads node root

def Rooted : Prop := ∀ node, ∃ root, Leads next node root

variable {next}

theorem Leads.root {node root : α} (h : Leads next node root) : next root = none := by
  induction h with
  | stop hn => exact hn
  | follow _ _ ih => exact ih

theorem Leads.keeps {holds : α → Prop} {node root : α} (h : Leads next node root)
    (hstep : ∀ node target, holds node → next node = some target → holds target)
    (hnode : holds node) : holds root := by
  induction h with
  | stop _ => exact hnode
  | follow hn _ ih => exact ih (hstep _ _ hnode hn)

theorem Rooted.acyclic (hrooted : Rooted next) (node : α) :
    ¬Relation.TransGen (fun first second => next first = some second) node node := by
  obtain ⟨root, hleads⟩ := hrooted node
  induction hleads with
  | stop hn =>
      intro hcycle
      obtain ⟨target, hstep, _⟩ := Relation.TransGen.head'_iff.mp hcycle
      exact absurd (hn.symm.trans hstep) (by simp)
  | follow hn _ ih =>
      intro hcycle
      obtain ⟨target, hstep, hback⟩ := Relation.TransGen.head'_iff.mp hcycle
      obtain rfl := Option.some.inj (hn.symm.trans hstep)
      exact ih (Relation.TransGen.tail' hback hn)

variable [DecidableEq α]

-- A node made a root takes the nodes behind it along.
theorem Rooted.release (hrooted : Rooted next) (node : α) :
    Rooted (Function.update next node none) := by
  intro start
  obtain ⟨root, hleads⟩ := hrooted start
  induction hleads with
  | @stop other hn =>
      refine ⟨other, .stop ?_⟩
      by_cases he : other = node
      · rw [he, Function.update_self]
      · rw [Function.update_of_ne he, hn]
  | @follow other target root hn _ ih =>
      by_cases he : other = node
      · exact ⟨other, .stop (by rw [he, Function.update_self])⟩
      · obtain ⟨found, hfound⟩ := ih
        exact ⟨found, .follow (by rw [Function.update_of_ne he, hn]) hfound⟩

theorem Rooted.point (hrooted : Rooted next) {node subject : α} (hsubject : next subject = none)
    (hne : subject ≠ node) : Rooted (Function.update next node (some subject)) := by
  have hstop : Leads (Function.update next node (some subject)) subject subject :=
    .stop (by rw [Function.update_of_ne hne, hsubject])
  have hnode : Leads (Function.update next node (some subject)) node subject :=
    .follow (Function.update_self ..) hstop
  intro start
  obtain ⟨root, hleads⟩ := hrooted start
  induction hleads with
  | @stop other hn =>
      by_cases he : other = node
      · exact ⟨subject, he ▸ hnode⟩
      · exact ⟨other, .stop (by rw [Function.update_of_ne he, hn])⟩
  | @follow other target root hn _ ih =>
      by_cases he : other = node
      · exact ⟨subject, he ▸ hnode⟩
      · obtain ⟨found, hfound⟩ := ih
        exact ⟨found, .follow (by rw [Function.update_of_ne he, hn]) hfound⟩

end KnowledgeCompiler.Lib.Forest
