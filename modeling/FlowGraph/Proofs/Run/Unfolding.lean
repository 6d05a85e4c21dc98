import Mathlib
import FlowGraph.Proofs.Run.Bracketing
import FlowGraph.Proofs.Run.Selection
import FlowGraph.Proofs.Workflow.Routes
import FlowGraph.Proofs.Workflow.Unfolding

namespace FlowGraph

def NodeKind.goesOn : NodeKind → Bool
  | .plain | .interval _ | .webhook | .events | .setVariable .. | .text .. | .list .. | .api _
  | .log _ | .getGuid _ | .math .. | .count .. | .map .. | .replace _ | .findAll .. => true
  | .condition _ | .loop _ | .forEach _ | .whileHolds .. | .subprocess _ | .unknown .. => false

theorem NodeKind.nests_of_goesOn {k : NodeKind} (h : k.goesOn = true) : k.nests = false := by
  cases k <;> first | rfl | cases h

theorem NodeKind.branch_of_goesOn {k : NodeKind} (h : k.goesOn = true) (s : Scope) :
    k.branch s = .all := by
  cases k <;> first | rfl | cases h

theorem Graph.Compiled.next_all {g : Graph} (hg : g.Compiled) (id : String) :
    (g.next id .all).map (·.id) = g.workflow.targets id := by
  rw [hg.next_ids, Workflow.targets]
  simp [Branch.accepts]

namespace Run

open Unfolding

variable {E : Engine} {g : Graph} {w : Workflow}

def runningIds (rs : List Record) : List String :=
  (rs.filter (·.status = .running)).map (·.nodeId)

theorem runningIds_append (rs rs' : List Record) :
    runningIds (rs ++ rs') = runningIds rs ++ runningIds rs' := by
  rw [runningIds, List.filter_append, List.map_append]
  rfl

theorem exists_unfoldings {us : List Tour} (h : ∀ u ∈ us, ∃ tree : Unfolding,
      tree.root = u.node.id ∧ tree.Full w ∧ runningIds (u.records E) = tree.preorder) :
    ∃ trees : List Unfolding, trees.map root = us.map (·.node.id) ∧
      (∀ tree ∈ trees, tree.Full w) ∧ runningIds (tourRecords E us) = preorders trees := by
  induction us with
  | nil => exact ⟨[], rfl, by simp, rfl⟩
  | cons u us ih =>
    obtain ⟨⟨tree, hroot, hfull, hids⟩, hrest⟩ := List.forall_mem_cons.1 h
    obtain ⟨trees, hroots, hfulls, hrests⟩ := ih hrest
    refine ⟨tree :: trees, ?_, List.forall_mem_cons.2 ⟨hfull, hfulls⟩, ?_⟩
    · rw [List.map_cons, List.map_cons, hroot, hroots]
    · rw [tourRecords, runningIds_append, hids, hrests, preorders]

theorem Tour.Lawful.runningIds_leaf {t : Tour} (h : t.Lawful E) (hk : t.node.kind.nests = false) :
    runningIds (t.records E) = t.node.id :: runningIds (tourRecords E t.onward) := by
  have hclosing : (t.closing E).status ≠ .running := closing_ne_running t
  rw [Tour.records_eq, h.selects.leaf hk, roundRecords, List.nil_append, runningIds,
    List.filter_cons_of_pos (by rfl), List.filter_cons_of_neg (by simpa using hclosing)]
  rfl

theorem Tour.Lawful.unfolds (hg : g.Compiled)
    (hkinds : ∀ n ∈ g.workflow.nodes, n.kind.goesOn = true) {t : Tour} (h : t.Lawful E)
    (hgraph : t.graph = g) (hnode : t.node ∈ g.workflow.nodes) (hok : t.result = .ok ()) :
    ∃ tree : Unfolding, tree.root = t.node.id ∧ tree.Full g.workflow ∧
      runningIds (t.records E) = tree.preorder := by
  -- the visits that come after one are those of all its targets
  induction h with
  | @intro t hworks hcont hrounds honward _ ih =>
    have hlaw : t.Lawful E := .intro hworks hcont hrounds honward
    have hkind := hkinds t.node hnode
    cases hlaw.stops with
    | own cause _ _ _ hresult | below a _ _ _ hresult => cases hok.symm.trans hresult
    | onward o hending _ hhalts =>
      have hselected := hlaw.selects.onward o hending
      rw [NodeKind.branch_of_goesOn hkind, hgraph] at hselected
      have hnodes := hselected.all hok
      rw [hok] at hhalts
      have htrees : ∀ u ∈ t.onward, ∃ tree : Unfolding, tree.root = u.node.id ∧
          tree.Full g.workflow ∧ runningIds (u.records E) = tree.preorder := by
        intro u hu
        apply ih u hu (hselected.graph u hu)
        · exact Graph.mem_nodes_of_mem_next (hnodes ▸ List.mem_map_of_mem hu)
        · exact hhalts u hu
      obtain ⟨trees, hroots, hfulls, hids⟩ := exists_unfoldings htrees
      refine ⟨.node t.node.id trees, rfl, .intro ?_ hfulls, ?_⟩
      · rw [hroots, ← hg.next_all, ← hnodes, List.map_map]
        rfl
      · rw [hlaw.runningIds_leaf (NodeKind.nests_of_goesOn hkind), hids, preorder]

/-- No cycle leads back to the entry or to what follows it, or the run would not have ended. -/
theorem run_unfolds (hE : E.Compiled) (hg : g.Compiled)
    (hkinds : ∀ n ∈ g.workflow.nodes, n.kind.goesOn = true) {processId workflowId : String}
    {trigger : Trigger} {scope : Scope} {outside : Outside} {moment : Instant} {fuel : Nat}
    {r : Result} {c : Context}
    (h : E.run fuel g (.start processId workflowId trigger scope outside moment) = some (r, c))
    (hok : r.succeeded = true) :
    ∃ tree : Unfolding, (∀ t : Unfolding, t.root = entryId ∧ t.Full g.workflow ↔ t = tree) ∧
      runningIds c.trace.toList = tree.preorder ∧
      ∀ id, {is | g.workflow.Path entryId is id}.encard = (runningIds c.trace.toList).count id := by
  obtain ⟨t, entry, hentry, hid, ht, hlaw, -, hfailure⟩ := exists_tour hE hg h
  have hresult : t.result = .ok () := by
    cases hr : t.result with
    | ok u => rfl
    | error a =>
      rw [hr] at hfailure
      simp [Result.succeeded, hfailure] at hok
  have hnode : t.node ∈ g.workflow.nodes := ht.node ▸ (hg.node?_eq_some_iff.1 hentry).1
  obtain ⟨tree, hroot, hfull, hids⟩ := hlaw.unfolds hg hkinds ht.graph hnode hresult
  rw [ht.node, hid] at hroot
  rw [hlaw.trace_of_goes ht, hids]
  refine ⟨tree, fun t' => ⟨?_, ?_⟩, rfl, fun id => hroot ▸ hfull.encard_paths id⟩
  · rintro ⟨hroot', hfull'⟩
    exact hfull.unique hfull' (hroot'.trans hroot.symm)
  · rintro rfl
    exact ⟨hroot, hfull⟩

namespace Sample

def joining : Workflow where
  id := "joining"
  name := "Joining"
  description := ""
  nodes := [⟨"0", "", .plain⟩, ⟨"1", "", .events⟩, ⟨"2", "", .log "two"⟩]
  edges := [⟨"a", "0", "", "1"⟩, ⟨"a", "0", "True", "1"⟩, ⟨"c", "1", "", "2"⟩,
    ⟨"d", "0", "output", "2"⟩]

def joined : Graph := .ofWorkflow joining (by decide)

end Sample

theorem run_unfolds_joined : ∃ r c,
    (Sample.engine Sample.sound).run 10 Sample.joined Sample.start = some (r, c) ∧
    runningIds c.trace.toList = ["0", "1", "2", "1", "2", "2"] ∧
    {is | Sample.joining.Path entryId is "2"}.encard = 3 ∧
    ∃ tree : Unfolding,
      (∀ t : Unfolding, t.root = entryId ∧ t.Full Sample.joined.workflow ↔ t = tree) ∧
      tree.preorder = ["0", "1", "2", "1", "2", "2"] := by
  have hrun : ((Sample.engine Sample.sound).run 10 Sample.joined Sample.start).map (fun p =>
      (runningIds p.2.trace.toList, p.1.succeeded)) =
        some (["0", "1", "2", "1", "2", "2"], true) := by
    cbv
  obtain ⟨⟨r, c⟩, h, htold⟩ := Option.map_eq_some_iff.1 hrun
  obtain ⟨hids, hok⟩ := Prod.mk.inj htold
  have hE := Sample.engine_compiled (Graph.ofWorkflow_compiled (Sample.child (.log "done"))
    (by decide))
  have hkinds : ∀ n ∈ Sample.joined.workflow.nodes, n.kind.goesOn = true := by decide +kernel
  have hg : Sample.joined.Compiled := Graph.ofWorkflow_compiled _ _
  obtain ⟨tree, hunique, htree, hpaths⟩ := run_unfolds hE hg hkinds h hok
  refine ⟨r, c, h, hids, ?_, tree, hunique, htree.symm.trans hids⟩
  have hworkflow : Sample.joined.workflow = Sample.joining := Graph.ofWorkflow_workflow _ _
  have hcount : (runningIds c.trace.toList).count "2" = 3 := by
    rw [show runningIds c.trace.toList = _ from hids]
    decide
  rw [← hworkflow, hpaths "2", hcount]
  rfl

end Run

end FlowGraph
