import FlowGraph.Proofs.Keyed
import FlowGraph.Proofs.Run.Congruence
import FlowGraph.Proofs.Run.Course
import Mathlib.Data.List.Forall2
/-!
A called workflow does what it does when it is run on its own. The two runs differ in the records
before, in how many calls are open and in the names that the records give to the run. None of this
finds its way into variables, branches or errors, except where calls are nested too deep.
-/

namespace FlowGraph

theorem Scope.promote_promote (s : Scope) : s.promote.promote = s.promote := by
  have hout : s.promote.output = s.output := by
    simp [promote, output, inputName, outputName, currentName]
  have hvars : s.promote.promote.vars = s.promote.vars := by
    apply Keyed.ext_get?
    intro k
    change s.promote.promote.get? k = s.promote.get? k
    rw [promote, hout]
    simp only [promote, get?_bind]
    split <;> try rfl
    split <;> rfl
  exact congrArg Scope.mk hvars

namespace Run

open Caused

variable {E E' : Engine} {visit visit' : Visit} {g g' : Graph} {n n' : Node} {c c' : Context}

structure Record.SameStep (shift : Nat) (r r' : Record) : Prop where
  sequence : r.sequence = r'.sequence + shift
  nodeId : r.nodeId = r'.nodeId
  nodeType : r.nodeType = r'.nodeType
  status : r.status = r'.status
  message : r.message = r'.message
  data : r.data = r'.data
  vars : r.vars = r'.vars

structure Alike (before : List Record) (c c' : Context) : Prop where
  surroundings : c.toSurroundings = c'.toSurroundings
  depth : c'.depth ≤ c.depth
  trace : ∃ rs, c.trace.toList = before ++ rs ∧
    List.Forall₂ (Record.SameStep before.length) rs c'.trace.toList

variable {before : List Record}

theorem Alike.sequence (h : Alike before c c') : c.sequence = c'.sequence + before.length := by
  obtain ⟨rs, hrs, hsteps⟩ := h.trace
  have hlength := hsteps.length_eq
  rw [c.numbered, c'.numbered, ← Array.length_toList, ← Array.length_toList, hrs, List.length_append,
    hlength]
  exact Nat.add_comm _ _

theorem Alike.noted (h : Alike before c c') (hn : Twins g g' n n') (status : Status)
    (message : String) (data : Json) :
    Alike before (E.noted g n status message data c) (E'.noted g' n' status message data c') := by
  have hstep : Record.SameStep before.length (E.record g n status message data c)
      (E'.record g' n' status message data c') := by
    refine ⟨h.sequence, hn.id, congrArg NodeKind.type hn.kind, rfl, rfl, rfl, ?_⟩
    have hscope := congrArg Surroundings.scope h.surroundings
    exact congrArg Scope.texts hscope
  obtain ⟨rs, hrs, hsteps⟩ := h.trace
  refine ⟨h.surroundings, h.depth, rs ++ [E.record g n status message data c], ?_, ?_⟩
  · simp [Engine.noted, hrs]
  · simp only [Engine.noted, Context.noted_trace, Array.toList_push]
    exact List.rel_append hsteps (.cons hstep .nil)

inductive Mirrored {ε α : Type} [Caused ε] (before : List Record) :
    Option (Except ε α × Context) → Option (Except ε α × Context) → Prop
  | deep {e : ε} {c : Context} {y : Option (Except ε α × Context)} : cause e = .tooDeep →
    Mirrored before (some (.error e, c)) y
  | unfinished : Mirrored before none none
  | same {r : Except ε α} {c c' : Context} : Alike before c c' →
    Mirrored before (some (r, c)) (some (r, c'))

theorem Mirrored.bind {ε δ α β : Type} [Caused ε] [Caused δ]
    {x y : Option (Except ε α × Context)} (h : Mirrored before x y)
    (k k' : Except ε α → Context → Option (Except δ β × Context))
    (hdeep : ∀ e c, ∃ d c', k (.error e) c = some (.error d, c') ∧ cause d = cause e)
    (hk : ∀ r c c', Alike before c c' → Mirrored before (k r c) (k' r c')) :
    Mirrored before (x.bind fun p => k p.1 p.2) (y.bind fun p => k' p.1 p.2) := by
  cases h with
  | @deep e c y he =>
    obtain ⟨d, c', hd, hcause⟩ := hdeep e c
    rw [Option.bind_some, hd]
    exact .deep (hcause.trans he)
  | unfinished => exact .unfinished
  | same h => exact hk _ _ _ h

def Mirrors {ε α : Type} [Caused ε] (before : List Record) (w w' : Walk ε α) : Prop :=
  ∀ c c', Alike before c c' → Mirrored before (w c) (w' c')

def mirroring (E E' : Engine) (before : List Record) : Congruence E E' where
  rel w w' := Mirrors before w w'
  pure _ _ _ h := .same h
  throw _ _ _ h := .same h
  bind {_ _ _ _ _ _ f f'} hw hf c c' h := by
    refine (hw c c' h).bind (ExceptT.bindCont f) (ExceptT.bindCont f') ?_ ?_
    · exact fun e c => ⟨e, c, rfl, rfl⟩
    · intro r c c' h
      cases r with
      | ok a => exact hf a c c' h
      | error e => exact .same h
  failing {_ _ _ _ _ _ _ f} hcause hw c c' h := by
    refine (hw c c' h).bind (fun r c => some (r.mapError f, c)) (fun r c => some (r.mapError f, c))
      ?_ ?_
    · exact fun e c => ⟨f e, c, rfl, hcause e⟩
    · exact fun r c c' h => .same h
  recover {_ _ _ _ _ _ w w' f f'} hdeep hw hf c c' h := by
    have hrun := (hw c c' h).bind f f' hdeep hf
    rw [Walk.attempt_bind, Walk.attempt_bind]
    exact hrun
  scope c c' h := by
    change Mirrored before (some (.ok c.scope, c)) (some (.ok c'.scope, c'))
    rw [h.surroundings]
    exact .same h
  mapScope f c c' h := by
    refine .same ⟨?_, h.depth, h.trace⟩
    exact congrArg (fun s : Surroundings => { s with scope := f s.scope }) h.surroundings
  leaf a c c' h := by
    change Mirrored before (some ((a c.toSurroundings).1, _)) (some ((a c'.toSurroundings).1, _))
    rw [h.surroundings]
    exact .same ⟨rfl, h.depth, h.trace⟩
  emit hn status message data c c' h := .same (h.noted hn status message data)

theorem Mirrors.inCall {ε α : Type} [Caused ε] {w w' : Walk ε α} (h : Mirrors before w w') :
    Mirrors before w.inCall w'.inCall := by
  intro c c' hc
  have hrun := (h { c with depth := c.depth + 1 } { c' with depth := c'.depth + 1 }
    ⟨hc.surroundings, Nat.succ_le_succ hc.depth, hc.trace⟩).bind
    (fun r c => some (r, { c with depth := c.depth - 1 }))
    (fun r c => some (r, { c with depth := c.depth - 1 }))
    (fun e c => ⟨e, _, rfl, rfl⟩)
    (fun r c c' h => .same ⟨h.surroundings, Nat.sub_le_sub_right h.depth 1, h.trace⟩)
  rw [Walk.inCall_eq, Walk.inCall_eq]
  exact hrun

theorem Mirrors.call (hlibrary : E'.library = E.library) {id : String}
    (h : ∀ callee, Mirrors before (visit callee entryId) (visit' callee entryId)) :
    Mirrors before (E.call visit g n id) (E'.call visit' g n id) := by
  -- the only place where the depth counts
  intro c c' hc
  rw [Engine.call, Engine.call, Walk.depth_bind, Walk.depth_bind, hlibrary]
  by_cases hd : maxDepth ≤ c.depth
  · rw [if_pos hd]
    exact .deep rfl
  · have hd' : ¬ maxDepth ≤ c'.depth := fun h => hd (Nat.le_trans h hc.depth)
    rw [if_neg hd, if_neg hd']
    cases hl : E.library id with
    | none => exact .same hc
    | some callee => exact (mirroring E E' before).callee (.refl g n) visit visit' callee (h callee).inCall c c' hc

theorem mirrors_visit (hlibrary : E'.library = E.library) (before : List Record) (fuel : Nat)
    (g : Graph) (id : String) : Mirrors before (E.visit fuel g id) (E'.visit fuel g id) := by
  induction fuel generalizing g id with
  | zero => exact fun _ _ _ => .unfinished
  | succ fuel ih =>
    intro c c' hc
    cases hn : g.node? id with
    | none =>
      simp only [Engine.visit, hn]
      exact .same hc
    | some n =>
      simp only [Engine.visit, hn]
      exact (mirroring E E' before).visitSame (E.visit fuel) (E'.visit fuel) (fun b m _ => ih g m.id)
        (fun id _ => .call hlibrary fun callee => ih callee entryId) c c' hc

theorem visit_start_promote (hg : g.Compiled) (fuel : Nat) (processId workflowId : String)
    (trigger : Trigger) (scope : Scope) (outside : Outside) (moment : Instant) :
    E.visit fuel g entryId (.start processId workflowId trigger scope.promote outside moment) =
      E.visit fuel g entryId (.start processId workflowId trigger scope outside moment) := by
  -- a run begins by making the last result the input, also when it is the input already
  obtain ⟨entry, hentry⟩ := hg.exists_entry
  cases fuel with
  | zero => rfl
  | succ fuel =>
    simp only [Engine.visit, hentry, Engine.visitNode, Walk.mapScope_bind, Context.start,
      Scope.promote_promote]

def TooDeep {ε α : Type} [Caused ε] : Option (Except ε α × Context) → Prop
  | some (.error e, _) => cause e = .tooDeep
  | _ => False

instance {ε α : Type} [Caused ε] (x : Option (Except ε α × Context)) : Decidable (TooDeep x) :=
  match x with
  | some (.error e, _) => inferInstanceAs (Decidable (cause e = .tooDeep))
  | some (.ok _, _) => inferInstanceAs (Decidable False)
  | none => inferInstanceAs (Decidable False)

/-- The end of a call and that of a run; `before` are the records before the call. -/
structure SameCourse (before : List Record) (call : Except Failure Outcome × Context)
    (run : Result × Context) : Prop where
  succeeded : (∃ o, call.1 = .ok o) ↔ run.1.failure = none
  failed : ∀ a, call.1 = .error (.below a) ↔ run.1.failure = some a
  scope : call.2.scope = run.1.scope
  outside : call.2.outside = run.2.outside
  records : ∃ rs, call.2.trace.toList = before ++ rs ∧
    List.Forall₂ (Record.SameStep before.length) rs run.2.trace.toList

def Engine.announced (E : Engine) (g : Graph) (n : Node) (id : String) (callee : Graph)
    (c : Context) : Context :=
  E.noted g n .info s!"SubProcess {callee.workflow.name} is running"
    (.object [("subProcessId", .str id)]) c

theorem call_eq {id : String} {callee : Graph} (hl : E.library id = some callee)
    (hd : c.depth < maxDepth) : E.call visit g n id c =
      (visit callee entryId { E.announced g n id callee c with depth := c.depth + 1 }).bind fun p =>
        some (endingOf (Leaf.passed s!"SubProcess {callee.workflow.name} completed") p.1,
          { p.2 with depth := p.2.depth - 1 }) := by
  rw [Engine.call, Walk.depth_bind, if_neg (Nat.not_le_of_lt hd), hl]
  dsimp only
  rw [Walk.emit_bind, Walk.bind_eq, Walk.failing_eq, Walk.inCall_eq, Option.bind_assoc,
    Option.bind_assoc]
  refine congrArg _ (funext fun p => ?_)
  cases p.1 <;> rfl

theorem call_same_course (hE : E.Compiled) {id : String} {callee : Graph}
    (hk : n.kind = .subprocess id) (hl : E.library id = some callee) (clock : Nat → Instant)
    (processId workflowId : String) (trigger : Trigger) (moment : Instant) (fuel : Nat)
    (hdeep : ¬ TooDeep (E.dispatch (E.visit fuel) g n (E.entered g n c))) :
    Option.Rel (SameCourse (E.announced g n id callee (E.entered g n c)).trace.toList)
      (E.dispatch (E.visit fuel) g n (E.entered g n c))
      ((⟨E.library, clock⟩ : Engine).run fuel callee
        (.start processId workflowId trigger c.scope c.outside moment)) := by
  have hdispatch : E.dispatch (E.visit fuel) g n = E.call (E.visit fuel) g n id := by
    simp only [Engine.dispatch, hk]
  rw [hdispatch] at hdeep ⊢
  by_cases hd : maxDepth ≤ (E.entered g n c).depth
  · rw [Engine.call, Walk.depth_bind, if_pos hd] at hdeep
    exact absurd rfl hdeep
  rw [call_eq hl (Nat.lt_of_not_le hd)] at hdeep ⊢
  -- both visits of the entry begin with the last result as the input
  have halike : Alike (E.announced g n id callee (E.entered g n c)).trace.toList
      { E.announced g n id callee (E.entered g n c) with depth := (E.entered g n c).depth + 1 }
      (.start processId workflowId trigger c.scope.promote c.outside moment) :=
    ⟨rfl, Nat.zero_le _, [], (List.append_nil _).symm, .nil⟩
  have hvisit : Mirrors (E.announced g n id callee (E.entered g n c)).trace.toList
      (E.visit fuel callee entryId) ((⟨E.library, clock⟩ : Engine).visit fuel callee entryId) := by
    apply mirrors_visit
    rfl
  have hcourse := hvisit _ _ halike
  rw [visit_start_promote (hE id callee hl)] at hcourse
  simp only [Engine.run]
  generalize E.visit fuel callee entryId _ = x at hcourse hdeep ⊢
  generalize Engine.visit _ fuel callee entryId _ = y at hcourse ⊢
  cases hcourse with
  | deep he => exact absurd he hdeep
  | unfinished => exact .none
  | @same r c c' h =>
    have hscope := congrArg Surroundings.scope h.surroundings
    have houtside := congrArg Surroundings.outside h.surroundings
    refine .some ?_
    cases r with
    | ok u => exact ⟨by simp [endingOf], by simp [endingOf], hscope, houtside, h.trace⟩
    | error a => exact ⟨by simp [endingOf], by simp [endingOf], hscope, houtside, h.trace⟩

theorem call_same_course_broken :
    let E := Sample.engine Sample.broken
    let c := E.entered Sample.graph Sample.caller { Sample.start with depth := 5 }
    ¬ TooDeep (E.dispatch (E.visit 10) Sample.graph Sample.caller c) ∧
    Option.Rel
      (SameCourse (E.announced Sample.graph Sample.caller "child" Sample.broken c).trace.toList)
      (E.dispatch (E.visit 10) Sample.graph Sample.caller c)
      ((⟨E.library, fun _ => Sample.moment⟩ : Engine).run 10 Sample.broken
        (.start "q" "child" .webhook Sample.start.scope Sample.start.outside Sample.moment)) := by
  intro E c
  have hE : E.Compiled := Sample.engine_compiled (Graph.ofWorkflow_compiled _ _)
  have hdeep : ¬ TooDeep (E.dispatch (E.visit 10) Sample.graph Sample.caller c) := by
    decide +kernel
  exact ⟨hdeep, call_same_course hE rfl rfl _ _ _ _ _ _ hdeep⟩

end Run

end FlowGraph
