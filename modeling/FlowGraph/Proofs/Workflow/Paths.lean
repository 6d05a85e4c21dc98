import FlowGraph.Workflow.Basic
import Mathlib.Data.Finset.Card
import Mathlib.Data.Finset.Filter
import Mathlib.Data.Finset.Dedup
import Mathlib.Logic.Relation

namespace FlowGraph

namespace Workflow

def Joins (w : Workflow) (a b : String) : Prop := ∃ e ∈ w.edges, e.source = a ∧ e.target = b

/-- No path of edges leads back to where it starts. -/
def Acyclic (w : Workflow) : Prop := ∀ id, ¬ Relation.TransGen w.Joins id id

theorem acyclic_of_rank {w : Workflow} (rank : String → Nat)
    (h : ∀ e ∈ w.edges, rank e.target < rank e.source) : w.Acyclic := by
  have hlt : ∀ a b, Relation.TransGen w.Joins a b → rank b < rank a := by
    intro a b hab
    induction hab with
    | single hj =>
      obtain ⟨e, he, rfl, rfl⟩ := hj
      exact h e he
    | tail _ hj ih =>
      obtain ⟨e, he, rfl, rfl⟩ := hj
      have := h e he
      omega
  intro id hid
  exact Nat.lt_irrefl _ (hlt id id hid)

open Classical in
noncomputable def ahead (w : Workflow) (id : String) : Nat :=
  ((w.edges.map Edge.target).toFinset.filter fun t => Relation.TransGen w.Joins id t).card

theorem Acyclic.ahead_lt {w : Workflow} (h : w.Acyclic) {a b : String} (hab : w.Joins a b) :
    w.ahead b < w.ahead a := by
  apply Finset.card_lt_card
  rw [Finset.ssubset_iff_of_subset]
  · refine ⟨b, ?_, ?_⟩
    · obtain ⟨e, he, hsource, rfl⟩ := hab
      simp only [Finset.mem_filter, List.mem_toFinset]
      exact ⟨List.mem_map_of_mem he, .single ⟨e, he, hsource, rfl⟩⟩
    · simp only [Finset.mem_filter, not_and]
      exact fun _ => h b
  · intro t ht
    simp only [Finset.mem_filter] at ht ⊢
    exact ⟨ht.1, .head hab ht.2⟩

theorem Acyclic.wellFounded {w : Workflow} (h : w.Acyclic) : WellFounded fun a b => w.Joins b a :=
  Subrelation.wf (fun hab => h.ahead_lt hab) (measure w.ahead).wf

end Workflow

end FlowGraph
