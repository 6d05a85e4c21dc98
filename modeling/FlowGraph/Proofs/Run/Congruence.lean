import FlowGraph.Proofs.Run.Walk
import Mathlib.Data.List.Forall2
/-!
Relations between walks that everything an engine is built from respects. Two engines then visit
nodes of one identity in related ways, given that the visits which they make are related, and the
calls.
-/

namespace FlowGraph.Run

class Caused (ε : Type) where
  cause : ε → NodeError

def Failure.cause : Failure → NodeError
  | .own cause => cause
  | .below a => a.cause

instance : Caused NodeError := ⟨id⟩

instance : Caused Failure := ⟨Failure.cause⟩

instance : Caused Abort := ⟨Abort.cause⟩

open Caused

structure Twins (g g' : Graph) (n n' : Node) : Prop where
  graph : g.id = g'.id
  id : n.id = n'.id
  kind : n.kind = n'.kind

theorem Twins.refl (g : Graph) (n : Node) : Twins g g n n := ⟨rfl, rfl, rfl⟩

theorem Twins.data {g g' : Graph} {n n' : Node} (h : Twins g g' n n') : n.data = n'.data :=
  congrArg NodeKind.data h.kind

def Engine.visitApart (E : Engine) (within onward : Visit) (g : Graph) (n : Node) :
    Walk Abort Unit := do
  Walk.mapScope Scope.promote
  E.emit g n .running s!"Running {n.kind.type} node" n.data
  match ← (E.dispatch within g n).attempt with
  | .ok o => do
    E.complete g n o
    Engine.follow onward g n.id o.branch
  | .error e => E.fail g n e

theorem Engine.visitApart_self (E : Engine) (visit : Visit) (g : Graph) (n : Node) :
    E.visitApart visit visit g n = E.visitNode visit g n := rfl

structure Congruence (E E' : Engine) where
  rel {ε α : Type} [Caused ε] : Walk ε α → Walk ε α → Prop
  pure {ε α : Type} [Caused ε] (a : α) : rel (pure a : Walk ε α) (pure a)
  throw {ε α : Type} [Caused ε] (e : ε) : rel (throw e : Walk ε α) (throw e)
  bind {ε α β : Type} [Caused ε] {w w' : Walk ε α} {f f' : α → Walk ε β} :
    rel w w' → (∀ a, rel (f a) (f' a)) → rel (w >>= f) (w' >>= f')
  failing {ε δ α : Type} [Caused ε] [Caused δ] {w w' : Walk ε α} {f : ε → δ} :
    (∀ e, cause (f e) = cause e) → rel w w' → rel (w.failing f) (w'.failing f)
  recover {ε δ α β : Type} [Caused ε] [Caused δ] {w w' : Walk ε α} {f f' : Except ε α → Walk δ β} :
    (∀ e c, ∃ d c', f (.error e) c = some (.error d, c') ∧ cause d = cause e) →
    rel w w' → (∀ s, rel (f s) (f' s)) → rel (w.attempt >>= f) (w'.attempt >>= f')
  scope {ε : Type} [Caused ε] : rel (Walk.scope : Walk ε Scope) Walk.scope
  mapScope {ε : Type} [Caused ε] (f : Scope → Scope) :
    rel (Walk.mapScope f : Walk ε Unit) (Walk.mapScope f)
  leaf {α : Type} (a : Surroundings → Except NodeError α × Surroundings) :
    rel (Walk.leaf a) (Walk.leaf a)
  emit {ε : Type} [Caused ε] {g g' : Graph} {n n' : Node} (h : Twins g g' n n')
    (status : Status) (message : String) (data : Json) :
    rel (E.emit g n status message data : Walk ε Unit) (E'.emit g' n' status message data)

namespace Congruence

variable {E E' : Engine} {visit visit' : Visit} {g g' : Graph} {n n' : Node} (R : Congruence E E')

theorem visitAll {ns ns' : List Node}
    (h : List.Forall₂ (fun m m' => R.rel (visit g m.id) (visit' g' m'.id)) ns ns') :
    R.rel (Engine.visitAll visit g ns) (Engine.visitAll visit' g' ns') := by
  induction h with
  | nil => exact R.pure ()
  | cons hm _ ih => exact R.bind hm fun _ => ih

section Body

variable (h : Twins g g' n n')
  (hbody : List.Forall₂ (fun m m' => R.rel (visit g m.id) (visit' g' m'.id))
    (g.next n.id .body) (g'.next n'.id .body))

omit h hbody in
theorem condition (expression : String) :
    R.rel (Engine.condition expression) (Engine.condition expression) := by
  refine R.bind R.scope fun s => ?_
  dsimp only
  cases Expression.evaluateBoolean (Template.render expression s []) with
  | ok holds => exact R.pure _
  | error e => exact R.throw _

include h hbody

theorem pass (message : String) (data : Json) :
    R.rel (E.pass visit g n message data) (E'.pass visit' g' n' message data) := by
  refine R.bind (R.emit h .info message data) fun _ => ?_
  exact R.failing (fun _ => rfl) (R.visitAll hbody)

theorem countedPasses (total done left : Nat) :
    R.rel (E.countedPasses visit g n total done left)
      (E'.countedPasses visit' g' n' total done left) := by
  induction left generalizing done with
  | zero => exact R.pure ()
  | succ left ih => exact R.bind (R.pass h hbody _ _) fun _ => ih (done + 1)

theorem itemPasses (itemName : String) (total done : Nat) (items : List Json) :
    R.rel (E.itemPasses visit g n itemName total done items)
      (E'.itemPasses visit' g' n' itemName total done items) := by
  induction items generalizing done with
  | nil => exact R.pure ()
  | cons item items ih =>
    refine R.bind (R.mapScope _) fun _ => ?_
    exact R.bind (R.pass h hbody _ _) fun _ => ih (done + 1)

theorem conditionPasses (expression : String) (limit done left : Nat) :
    R.rel (E.conditionPasses visit g n expression limit done left)
      (E'.conditionPasses visit' g' n' expression limit done left) := by
  induction left generalizing done with
  | zero => exact R.bind (R.condition expression) fun _ => R.pure done
  | succ left ih =>
    refine R.bind (R.condition expression) fun ⟨text, holds⟩ => ?_
    cases holds with
    | true => exact R.bind (R.pass h hbody _ _) fun _ => ih (done + 1)
    | false => exact R.pure done

theorem forEach (listVariable : String) :
    R.rel (E.forEach visit g n listVariable) (E'.forEach visit' g' n' listVariable) := by
  refine R.bind R.scope fun s => ?_
  cases s.list listVariable with
  | error fault => exact R.throw _
  | ok items => exact R.bind (R.itemPasses h hbody _ _ _ _) fun _ => R.pure _

end Body

theorem dispatch (h : Twins g g' n n')
    (hbody : (∀ id, n.kind ≠ .subprocess id) →
      List.Forall₂ (fun m m' => R.rel (visit g m.id) (visit' g' m'.id))
        (g.next n.id .body) (g'.next n'.id .body))
    (hcall : ∀ id, n.kind = .subprocess id →
      R.rel (E.call visit g n id) (E'.call visit' g' n' id)) :
    R.rel (E.dispatch visit g n) (E'.dispatch visit' g' n') := by
  cases hk : n.kind with
  | loop iterations =>
    simp only [Engine.dispatch, ← h.kind, hk]
    exact R.bind (R.countedPasses h (hbody (by simp [hk])) _ _ _) fun _ => R.pure _
  | forEach listVariable =>
    simp only [Engine.dispatch, ← h.kind, hk]
    exact R.forEach h (hbody (by simp [hk])) listVariable
  | whileHolds expression limit =>
    simp only [Engine.dispatch, ← h.kind, hk]
    exact R.bind (R.conditionPasses h (hbody (by simp [hk])) _ _ _ _) fun _ => R.pure _
  | subprocess id =>
    simp only [Engine.dispatch, ← h.kind, hk]
    exact hcall id hk
  | _ =>
    simp only [Engine.dispatch, ← h.kind, hk]
    exact R.failing (fun _ => rfl) (R.leaf _)

theorem callee (hn : Twins g g' n n') (visit visit' : Visit) {id : String} (callee : Graph)
    (h : R.rel (Walk.inCall (visit callee entryId)) (Walk.inCall (visit' callee entryId))) :
    R.rel
      (do
        E.emit g n .info s!"SubProcess {callee.workflow.name} is running"
          (.object [("subProcessId", .str id)])
        (Walk.inCall (visit callee entryId)).failing .below
        return Leaf.passed s!"SubProcess {callee.workflow.name} completed" : Walk Failure Outcome)
      (do
        E'.emit g' n' .info s!"SubProcess {callee.workflow.name} is running"
          (.object [("subProcessId", .str id)])
        (Walk.inCall (visit' callee entryId)).failing .below
        return Leaf.passed s!"SubProcess {callee.workflow.name} completed") :=
  R.bind (R.emit hn _ _ _) fun _ => R.bind (R.failing (fun _ => rfl) h) fun _ => R.pure _

theorem fail (h : Twins g g' n n') (f : Failure) : R.rel (E.fail g n f) (E'.fail g' n' f) := by
  cases f with
  | own cause =>
    simp only [Engine.fail, h.data, h.id, h.graph]
    exact R.bind (R.emit h _ _ _) fun _ => R.throw _
  | below a =>
    simp only [Engine.fail, h.data]
    exact R.bind (R.emit h _ _ _) fun _ => R.throw _

theorem visitApart (h : Twins g g' n n') {within within' onward onward' : Visit}
    (hbody : (∀ id, n.kind ≠ .subprocess id) →
      List.Forall₂ (fun m m' => R.rel (within g m.id) (within' g' m'.id))
        (g.next n.id .body) (g'.next n'.id .body))
    (hnext : ∀ b, List.Forall₂ (fun m m' => R.rel (onward g m.id) (onward' g' m'.id))
      (g.next n.id b) (g'.next n'.id b))
    (hcall : ∀ id, n.kind = .subprocess id →
      R.rel (E.call within g n id) (E'.call within' g' n' id)) :
    R.rel (E.visitApart within onward g n) (E'.visitApart within' onward' g' n') := by
  simp only [Engine.visitApart, h.kind, h.data]
  refine R.bind (R.mapScope _) fun _ => R.bind (R.emit h _ _ _) fun _ => ?_
  refine R.recover ?_ (R.dispatch h hbody hcall) fun s => ?_
  · intro f c
    cases f with
    | own cause => exact ⟨⟨g.id, n.id, cause⟩, _, rfl, rfl⟩
    | below a => exact ⟨a, _, rfl, rfl⟩
  · cases s with
    | ok o =>
      simp only [Engine.complete, h.data]
      refine R.bind (R.bind (R.mapScope _) fun _ => R.emit h _ _ _) fun _ => ?_
      exact R.visitAll (hnext o.branch)
    | error f => exact R.fail h f

theorem visitNode (h : Twins g g' n n') (visit visit' : Visit)
    (hnext : ∀ b, List.Forall₂ (fun m m' => R.rel (visit g m.id) (visit' g' m'.id))
      (g.next n.id b) (g'.next n'.id b))
    (hcall : ∀ id, n.kind = .subprocess id →
      R.rel (E.call visit g n id) (E'.call visit' g' n' id)) :
    R.rel (E.visitNode visit g n) (E'.visitNode visit' g' n') := by
  rw [← Engine.visitApart_self, ← Engine.visitApart_self]
  exact R.visitApart h (fun _ => hnext .body) hnext hcall

theorem visitSame (visit visit' : Visit)
    (hnext : ∀ b, ∀ m ∈ g.next n.id b, R.rel (visit g m.id) (visit' g m.id))
    (hcall : ∀ id, n.kind = .subprocess id → R.rel (E.call visit g n id) (E'.call visit' g n id)) :
    R.rel (E.visitNode visit g n) (E'.visitNode visit' g n) :=
  R.visitNode (.refl g n) visit visit' (fun b => List.forall₂_same.2 (hnext b)) hcall

end Congruence

end FlowGraph.Run
