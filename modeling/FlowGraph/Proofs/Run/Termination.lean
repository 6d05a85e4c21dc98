import FlowGraph.Proofs.Run.Congruence
import FlowGraph.Proofs.Run.Course
import FlowGraph.Proofs.Workflow.Routes
import Mathlib.Order.Filter.AtTopBot.Basic
import Mathlib.Order.Filter.Finite
/-!
Runs of workflows without cycles of edges come to an end. A visit leads to visits further down the
graph, until a call starts again at the top of a graph; that happens one level deeper, and there is
a last level. So some fuel is enough for all visits.
-/

namespace FlowGraph.Run

open Filter

variable {ε δ α β : Type} {d : Nat} {E : Engine} {visit : Visit} {g : Graph} {n : Node}

def Finishes (d : Nat) (w : Walk ε α) : Prop :=
  ∀ c : Context, c.depth = d → ∃ r c', w c = some (r, c') ∧ c'.depth = d

namespace Finishes

protected theorem pure (a : α) : Finishes d (pure a : Walk ε α) := fun c hc => ⟨.ok a, c, rfl, hc⟩

protected theorem throw (e : ε) : Finishes d (throw e : Walk ε α) := fun c hc => ⟨.error e, c, rfl, hc⟩

protected theorem bind {w : Walk ε α} {f : α → Walk ε β} (hw : Finishes d w) (hf : ∀ a, Finishes d (f a)) :
    Finishes d (w >>= f) := by
  intro c hc
  obtain ⟨r, c₁, hr, hc₁⟩ := hw c hc
  cases r with
  | ok a =>
    obtain ⟨s, c₂, hs, hc₂⟩ := hf a c₁ hc₁
    exact ⟨s, c₂, Walk.bind_eq_some.2 (.inl ⟨a, c₁, hr, hs⟩), hc₂⟩
  | error e => exact ⟨.error e, c₁, Walk.bind_eq_some.2 (.inr ⟨e, hr, rfl⟩), hc₁⟩

protected theorem failing {f : ε → δ} {w : Walk ε α} (hw : Finishes d w) : Finishes d (w.failing f) := by
  intro c hc
  obtain ⟨r, c', hr, hc'⟩ := hw c hc
  exact ⟨r.mapError f, c', Walk.failing_eq_some.2 ⟨r, hr, rfl⟩, hc'⟩

theorem attempt {w : Walk ε α} (hw : Finishes d w) : Finishes d (w.attempt : Walk δ _) := by
  intro c hc
  obtain ⟨r, c', hr, hc'⟩ := hw c hc
  exact ⟨.ok r, c', Walk.attempt_eq_some.2 ⟨r, hr, rfl⟩, hc'⟩

theorem inCall {w : Walk ε α} (hw : Finishes (d + 1) w) : Finishes d w.inCall := by
  intro c hc
  obtain ⟨r, c', hr, hc'⟩ := hw { c with depth := c.depth + 1 } (by simp [hc])
  exact ⟨r, { c' with depth := c'.depth - 1 }, Walk.inCall_eq_some.2 ⟨c', hr, rfl⟩, by simp [hc']⟩

end Finishes

def finishing (E : Engine) (d : Nat) : Congruence E E where
  rel w _ := Finishes d w
  pure := .pure
  throw := .throw
  bind := .bind
  failing _ h := h.failing
  recover _ h hf := h.attempt.bind hf
  scope c hc := ⟨.ok c.scope, c, rfl, hc⟩
  mapScope f c hc := ⟨.ok (), { c with scope := f c.scope }, rfl, hc⟩
  leaf a c hc :=
    ⟨(a c.toSurroundings).1, { c with toSurroundings := (a c.toSurroundings).2 }, rfl, hc⟩
  emit {_ _ g _ n _} _ status message data c hc :=
    ⟨.ok (), E.noted g n status message data c, rfl, hc⟩

theorem Finishes.call {id : String}
    (h : ∀ callee, E.library id = some callee → d < maxDepth →
      Finishes (d + 1) (visit callee entryId)) : Finishes d (E.call visit g n id) := by
  -- the last level of calls makes none, so nothing is asked of the visits below it
  intro c hc
  rw [Engine.call, Walk.depth_bind, hc]
  by_cases hd : maxDepth ≤ d
  · rw [if_pos hd]
    exact ⟨.error (.own .tooDeep), c, rfl, hc⟩
  · rw [if_neg hd]
    cases hl : E.library id with
    | none => exact ⟨.error (.own (.workflowNotFound id)), c, rfl, hc⟩
    | some callee =>
      have hcall := (h callee hl (Nat.lt_of_not_le hd)).inCall
      exact (finishing E d).callee (.refl g n) visit visit callee hcall c hc

def Engine.Acyclic (E : Engine) : Prop := ∀ id g, E.library id = some g → g.workflow.Acyclic

theorem eventually_visit (hg : g.Compiled) {id : String}
    (hnext : ∀ m, g.workflow.Joins id m → ∀ᶠ fuel in atTop, Finishes d (E.visit fuel g m))
    (hcall : ∀ id callee, E.library id = some callee → d < maxDepth →
      ∀ᶠ fuel in atTop, Finishes (d + 1) (E.visit fuel callee entryId)) :
    ∀ᶠ fuel in atTop, Finishes d (E.visit fuel g id) := by
  rw [← map_add_atTop_eq_nat 1, eventually_map]
  cases hn : g.node? id with
  | none =>
    refine .of_forall fun fuel => ?_
    simp only [Engine.visit, hn]
    exact Finishes.pure ()
  | some n =>
    obtain rfl := hg.id_of_node? hn
    have hnodes : ∀ᶠ fuel in atTop, ∀ m ∈ g.workflow.nodes, g.workflow.Joins n.id m.id →
        Finishes d (E.visit fuel g m.id) := by
      refine (eventually_all_finite (List.finite_toSet g.workflow.nodes)).2 fun m _ => ?_
      exact eventually_imp_distrib_left.2 (hnext m.id)
    have hcallee : ∀ᶠ fuel in atTop, ∀ id callee, n.kind = .subprocess id →
        E.library id = some callee → d < maxDepth →
        Finishes (d + 1) (E.visit fuel callee entryId) := by
      by_cases h : ∃ id callee, n.kind = .subprocess id ∧ E.library id = some callee ∧ d < maxDepth
      · obtain ⟨id, callee, hkind, hl, hd⟩ := h
        filter_upwards [hcall id callee hl hd] with fuel hf
        intro id' callee' hkind' hl' _
        obtain rfl : id = id' := by simpa [hkind] using hkind'
        cases hl.symm.trans hl'
        exact hf
      · exact .of_forall fun fuel id callee hkind hl hd => absurd ⟨id, callee, hkind, hl, hd⟩ h
    filter_upwards [hnodes, hcallee] with fuel hvisit hcalled
    simp only [Engine.visit, hn]
    refine (finishing E d).visitSame (E.visit fuel) (E.visit fuel) (fun b m hm => ?_) fun id hk =>
      .call (hcalled id · hk)
    exact hvisit m (Graph.mem_nodes_of_mem_next hm) (hg.joins_of_mem_next hm)

theorem eventually_finishes (hE : E.Compiled) (hlibrary : E.Acyclic) (hg : g.Compiled)
    (hacyclic : g.workflow.Acyclic) (id : String) :
    ∀ᶠ fuel in atTop, Finishes d (E.visit fuel g id) := by
  -- the induction is on the number of levels left; within one level it follows the edges
  induction hk : maxDepth - d using Nat.strong_induction_on generalizing d g id with
  | _ k ihk =>
    induction id using hacyclic.wellFounded.induction with
    | _ id ih =>
      refine eventually_visit hg ih fun name callee hl hd => ?_
      exact ihk (maxDepth - (d + 1)) (by omega) (hE name callee hl) (hlibrary name callee hl)
        entryId rfl

/-- Some fuel is enough whatever the run is given and whatever it meets. -/
theorem run_returns (hE : E.Compiled) (hlibrary : E.Acyclic) (hg : g.Compiled)
    (hacyclic : g.workflow.Acyclic) :
    ∃ least, ∀ fuel ≥ least, ∀ (processId workflowId : String) (trigger : Trigger) (scope : Scope)
      (outside : Outside) (moment : Instant), ∃ r c,
      E.run fuel g (.start processId workflowId trigger scope outside moment) = some (r, c) := by
  obtain ⟨least, h⟩ := eventually_atTop.1 (eventually_finishes hE hlibrary hg hacyclic entryId)
  refine ⟨least, fun fuel hfuel processId workflowId trigger scope outside moment => ?_⟩
  obtain ⟨r, c, hvisit, -⟩ := h fuel hfuel
    (.start processId workflowId trigger scope outside moment) rfl
  simp only [Engine.run, hvisit]
  exact ⟨_, _, rfl⟩

theorem run_returns_nested : ∃ least, ∀ fuel ≥ least, ∀ (processId workflowId : String)
      (trigger : Trigger) (scope : Scope) (outside : Outside) (moment : Instant), ∃ r c,
      (Sample.engine Sample.nested).run fuel Sample.graph
        (.start processId workflowId trigger scope outside moment) = some (r, c) := by
  refine run_returns (Sample.engine_compiled (Graph.ofWorkflow_compiled _ _)) ?_
    Sample.graph_compiled ?_
  · intro id callee hl
    simp only [Sample.engine] at hl
    split at hl
    · cases hl
      rw [Sample.nested, Graph.ofWorkflow_workflow]
      exact Workflow.acyclic_of_rank (fun id => if id = "0" then 1 else 0) (by decide)
    · cases hl
  · rw [Sample.graph, Graph.ofWorkflow_workflow]
    exact Workflow.acyclic_of_rank
      (fun id => if id = "0" then 2 else if id = "2" then 1 else 0) (by decide)

end FlowGraph.Run
