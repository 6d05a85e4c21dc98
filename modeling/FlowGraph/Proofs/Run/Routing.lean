import FlowGraph.Proofs.Run.Congruence
import FlowGraph.Proofs.Run.Course
import FlowGraph.Proofs.Workflow.Routes

namespace FlowGraph.Run

variable {E : Engine} {g : Graph} {n : Node}

/-- Visits as the engine makes them, but for ids that no node has. -/
def Engine.visitOr (E : Engine) (other : Visit) : (fuel : Nat) → Visit
  | 0, _, _ => Walk.outOfFuel
  | fuel + 1, g, id =>
    match g.node? id with
    | some n => E.visitNode (visitOr E other fuel) g n
    | none => other g id

def identical (E : Engine) : Congruence E E where
  rel w w' := w = w'
  pure _ := rfl
  throw _ := rfl
  bind hw hf := by rw [hw, funext hf]
  failing _ hw := by rw [hw]
  recover _ hw hf := by rw [hw, funext hf]
  scope := rfl
  mapScope _ := rfl
  leaf _ := rfl
  emit h status message data := by
    funext c
    simp only [Engine.emit, Engine.record, h.graph, h.id, h.kind]

theorem call_congr {visit visit' : Visit} {id : String}
    (h : ∀ callee, E.library id = some callee →
      visit callee entryId = visit' callee entryId) :
    E.call visit g n id = E.call visit' g n id := by
  funext c
  rw [Engine.call, Engine.call, Walk.depth_bind, Walk.depth_bind]
  by_cases hd : maxDepth ≤ c.depth
  · rw [if_pos hd, if_pos hd]
    rfl
  · rw [if_neg hd, if_neg hd]
    cases hl : E.library id with
    | none => rfl
    | some callee =>
      have hcall : Walk.inCall (visit callee entryId) = Walk.inCall (visit' callee entryId) := by
        rw [h callee hl]
      exact congrFun ((identical E).callee (.refl g n) visit visit' callee hcall) c

theorem visitOr_eq (hE : E.Compiled) (other : Visit) (fuel : Nat) (hg : g.Compiled) {id : String}
    (hn : g.node? id = some n) : E.visitOr other fuel g id = E.visit fuel g id := by
  -- the nodes on a branch are known, and so is every entry
  induction fuel generalizing g id n with
  | zero => rfl
  | succ fuel ih =>
    simp only [Engine.visitOr, Engine.visit, hn]
    apply (identical E).visitSame
    · intro b m hm
      exact ih hg (hg.node?_of_mem_next hm)
    · intro callee _
      apply call_congr
      intro h hl
      obtain ⟨entry, hentry⟩ := (hE callee h hl).exists_entry
      exact ih (hE callee h hl) hentry

theorem routes_agree {w : Workflow} (h : Graph.compile w = .ok g) :
    g.Agrees w ∧ ∀ (E : Engine) (other : Visit) (fuel : Nat), E.Compiled →
      E.visitOr other fuel g entryId = E.visit fuel g entryId := by
  have hg : g.Compiled := ⟨w, h⟩
  obtain ⟨entry, hentry⟩ := hg.exists_entry
  exact ⟨Graph.agrees_of_compile h, fun E other fuel hE => visitOr_eq hE other fuel hg hentry⟩

namespace Sample

def crossing : Workflow where
  id := "crossing"
  name := "Crossing"
  description := ""
  nodes := [⟨"1", "", .log "one"⟩, ⟨"0", "", .condition "1 < 2"⟩]
  edges := [⟨"a", "0", "True", "1"⟩, ⟨"b", "1", "", "0"⟩, ⟨"c", "0", "", "0"⟩,
    ⟨"a", "0", "True", "1"⟩]

def crossed : Graph := .ofWorkflow crossing (by decide)

end Sample

theorem routes_agree_crossing : Graph.compile Sample.crossing = .ok Sample.crossed ∧
    (Sample.crossed.exits "0" .all).1.map (·.id) = ["1", "0", "1"] ∧
    Sample.crossed.exits "0" .onFalse = ([], false) ∧
    Sample.crossed.Agrees Sample.crossing ∧
    (Sample.engine Sample.sound).Compiled ∧
    ∀ (other : Visit) (fuel : Nat),
      (Sample.engine Sample.sound).visitOr other fuel Sample.crossed entryId =
        (Sample.engine Sample.sound).visit fuel Sample.crossed entryId := by
  have h : Graph.compile Sample.crossing = .ok Sample.crossed := Graph.compile_ofWorkflow _ _
  have hE : (Sample.engine Sample.sound).Compiled :=
    Sample.engine_compiled (Graph.ofWorkflow_compiled (Sample.child (.log "done")) (by decide))
  obtain ⟨hagrees, hvisits⟩ := routes_agree h
  refine ⟨h, ?_, by decide +kernel, hagrees, hE, fun other fuel => hvisits _ other fuel hE⟩
  rw [Graph.exits_fst, Graph.Compiled.next_ids ⟨_, h⟩]
  decide

end FlowGraph.Run
