import FlowGraph.Proofs.Run.Congruence
import FlowGraph.Proofs.Run.Course
import FlowGraph.Proofs.Workflow.Edits
import Mathlib.Data.List.Forall2

namespace FlowGraph.Run

variable {ε δ α β : Type} {E E' : Engine} {visit visit' : Visit} {g g' : Graph} {n n' : Node}
  {c c' : Context} {S : String → Prop}

structure Alongside (S : String → Prop) (g g' : Graph) (n n' : Node) : Prop extends
    Twins g g' n n' where
  next : ∀ b, List.Forall₂ (fun m m' => m.id = m'.id ∧ S m.id) (g.next n.id b) (g'.next n'.id b)

def Matches (S : String → Prop) (g g' : Graph) : Prop :=
  ∀ id, S id → Option.Rel (Alongside S g g') (g.node? id) (g'.node? id)

theorem Matches.refl (g : Graph) : Matches (fun _ => True) g g := by
  intro id _
  cases g.node? id with
  | none => exact .none
  | some n => exact .some ⟨.refl g n, fun b => List.forall₂_same.2 fun m _ => ⟨rfl, trivial⟩⟩

theorem twins_of_sameReach (hg : g.Compiled) (hg' : g'.Compiled) (h : g.SameReach g') {id : String}
    (hid : id ∈ g.reachable) : Option.Rel (Twins g g') (g.node? id) (g'.node? id) := by
  have hkinds := h.kinds id hid
  cases hn : g.node? id with
  | none =>
    rw [hn] at hkinds
    rw [Option.map_eq_none_iff.1 hkinds.symm]
    exact .none
  | some n =>
    rw [hn] at hkinds
    obtain ⟨n', hn', hkind⟩ := Option.map_eq_some_iff.1 hkinds.symm
    rw [hn']
    exact .some ⟨h.id, (hg.id_of_node? hn).trans (hg'.id_of_node? hn').symm, hkind.symm⟩

theorem optionRel_imp {A B : Type} {R R' : A → B → Prop} {x : Option A} {y : Option B}
    (h : Option.Rel R x y) (himp : ∀ a b, x = some a → R a b → R' a b) : Option.Rel R' x y := by
  cases h with
  | none => exact .none
  | some h => exact .some (himp _ _ rfl h)

theorem next_of_sameReach (hg : g.Compiled) (hg' : g'.Compiled) (h : g.SameReach g') {id : String}
    (hid : id ∈ g.reachable) (b : Branch) :
    List.Forall₂ (fun m m' => m.id = m'.id ∧ m.id ∈ g.reachable) (g.next id b) (g'.next id b) := by
  rw [hg.next_eq, hg'.next_eq, ← h.outgoing id hid]
  apply List.rel_filterMap (R := fun p p' => p = p' ∧ p.2 ∈ g.reachable)
  · rintro p _ ⟨rfl, hp⟩
    apply optionRel_imp (twins_of_sameReach hg hg' h hp)
    intro m m' hm ht
    exact ⟨ht.id, by rwa [hg.id_of_node? hm]⟩
  · apply List.forall₂_same.2
    exact fun p hp => ⟨rfl, hg.reachable_target hid (List.mem_of_mem_filter hp)⟩

theorem matches_of_sameReach (hg : g.Compiled) (hg' : g'.Compiled) (h : g.SameReach g') :
    Matches (· ∈ g.reachable) g g' := by
  intro id hid
  apply optionRel_imp (twins_of_sameReach hg hg' h hid)
  intro n n' hn ht
  have hnext := next_of_sameReach hg hg' h hid
  exact ⟨ht, by rwa [← ht.id, hg.id_of_node? hn]⟩

def Record.Agrees (r r' : Record) : Prop :=
  { r with processId := r'.processId, createdAt := r'.createdAt } = r'

structure Parallel (c c' : Context) : Prop where
  surroundings : c.toSurroundings = c'.toSurroundings
  workflowId : c.workflowId = c'.workflowId
  trigger : c.trigger = c'.trigger
  depth : c.depth = c'.depth
  trace : List.Forall₂ Record.Agrees c.trace.toList c'.trace.toList

theorem Parallel.noted (h : Parallel c c') (hn : Twins g g' n n') (status : Status)
    (message : String) (data : Json) :
    Parallel (E.noted g n status message data c) (E'.noted g' n' status message data c') := by
  have hsequence : c.sequence = c'.sequence := by
    rw [c.numbered, c'.numbered]
    exact h.trace.length_eq
  have hscope : c.scope = c'.scope := congrArg Surroundings.scope h.surroundings
  have hrecord : Record.Agrees (E.record g n status message data c)
      (E'.record g' n' status message data c') := by
    simp only [Record.Agrees, Engine.record, hscope, h.workflowId, hsequence, hn.graph, hn.id, hn.kind]
  refine ⟨h.surroundings, h.workflowId, h.trigger, h.depth, ?_⟩
  simp only [Engine.noted, Context.noted_trace, Array.toList_push]
  exact List.rel_append h.trace (.cons hrecord .nil)

inductive InStep {ε α : Type} :
    Option (Except ε α × Context) → Option (Except ε α × Context) → Prop
  | unfinished : InStep none none
  | same {r : Except ε α} {c c' : Context} : Parallel c c' → InStep (some (r, c)) (some (r, c'))

theorem InStep.bind {x y : Option (Except ε α × Context)} (h : InStep x y)
    (k k' : Except ε α → Context → Option (Except δ β × Context))
    (hk : ∀ r c c', Parallel c c' → InStep (k r c) (k' r c')) :
    InStep (x.bind fun p => k p.1 p.2) (y.bind fun p => k' p.1 p.2) := by
  cases h with
  | unfinished => exact .unfinished
  | same h => exact hk _ _ _ h

def Lockstep (w w' : Walk ε α) : Prop := ∀ c c', Parallel c c' → InStep (w c) (w' c')

def lockstepping (E E' : Engine) : Congruence E E' where
  rel w w' := Lockstep w w'
  pure _ _ _ h := .same h
  throw _ _ _ h := .same h
  bind {_ _ _ _ _ _ f f'} hw hf c c' h := by
    refine (hw c c' h).bind (ExceptT.bindCont f) (ExceptT.bindCont f') fun r c c' h => ?_
    cases r with
    | ok a => exact hf a c c' h
    | error e => exact .same h
  failing {_ _ _ _ _ _ _ f} _ hw c c' h :=
    (hw c c' h).bind (fun r c => some (r.mapError f, c)) (fun r c => some (r.mapError f, c))
      fun _ _ _ h => .same h
  recover {_ _ _ _ _ _ w w' f f'} _ hw hf c c' h := by
    rw [Walk.attempt_bind, Walk.attempt_bind]
    exact (hw c c' h).bind f f' hf
  scope c c' h := by
    change InStep (some (.ok c.scope, c)) (some (.ok c'.scope, c'))
    rw [h.surroundings]
    exact .same h
  mapScope f c c' h := by
    refine .same ⟨?_, h.workflowId, h.trigger, h.depth, h.trace⟩
    exact congrArg (fun s : Surroundings => { s with scope := f s.scope }) h.surroundings
  leaf a c c' h := by
    change InStep (some ((a c.toSurroundings).1, _)) (some ((a c'.toSurroundings).1, _))
    rw [h.surroundings]
    exact .same ⟨rfl, h.workflowId, h.trigger, h.depth, h.trace⟩
  emit hn status message data c c' h := .same (h.noted hn status message data)

theorem Lockstep.inCall {w w' : Walk ε α} (h : Lockstep w w') : Lockstep w.inCall w'.inCall := by
  intro c c' hc
  have hrun := (h { c with depth := c.depth + 1 } { c' with depth := c'.depth + 1 }
    ⟨hc.surroundings, hc.workflowId, hc.trigger, congrArg (· + 1) hc.depth, hc.trace⟩).bind
    (fun r c => some (r, { c with depth := c.depth - 1 }))
    (fun r c => some (r, { c with depth := c.depth - 1 }))
    (fun r c c' h => .same
      ⟨h.surroundings, h.workflowId, h.trigger, congrArg (· - 1) h.depth, h.trace⟩)
  rw [Walk.inCall_eq, Walk.inCall_eq]
  exact hrun

theorem Lockstep.call (hlibrary : E'.library = E.library) (hn : Twins g g' n n') {id : String}
    (h : ∀ callee, Lockstep (visit callee entryId) (visit' callee entryId)) :
    Lockstep (E.call visit g n id) (E'.call visit' g' n' id) := by
  intro c c' hc
  rw [Engine.call, Engine.call, Walk.depth_bind, Walk.depth_bind, hlibrary, ← hc.depth]
  by_cases hd : maxDepth ≤ c.depth
  · rw [if_pos hd, if_pos hd]
    exact .same hc
  · rw [if_neg hd, if_neg hd]
    cases E.library id with
    | none => exact .same hc
    | some callee =>
      exact (lockstepping E E').callee hn visit visit' callee (h callee).inCall c c' hc

theorem lockstep_visit (hlibrary : E'.library = E.library) (fuel : Nat) (h : Matches S g g')
    {id : String} (hid : S id) : Lockstep (E.visit fuel g id) (E'.visit fuel g' id) := by
  -- a call goes on in a graph that is the same on both sides, so the graphs and `S` vary in the
  -- induction on the fuel
  induction fuel generalizing S g g' id with
  | zero => exact fun _ _ _ => .unfinished
  | succ fuel ih =>
    have hnode := h id hid
    simp only [Engine.visit]
    generalize g.node? id = x at hnode
    generalize g'.node? id = x' at hnode
    cases hnode with
    | none => exact (lockstepping E E').pure ()
    | @some n n' hn =>
      have hnext : ∀ b, List.Forall₂ (fun m m' => Lockstep (E.visit fuel g m.id) (E'.visit fuel g' m'.id))
          (g.next n.id b) (g'.next n'.id b) := by
        intro b
        refine (hn.next b).imp fun m m' hm => ?_
        rw [← hm.1]
        exact ih h hm.2
      have hcallee : ∀ callee : Graph, Lockstep (E.visit fuel callee entryId) (E'.visit fuel callee entryId) :=
        fun callee => ih (.refl callee) trivial
      exact (lockstepping E E').visitNode hn.toTwins (E.visit fuel) (E'.visit fuel) hnext
        fun id _ => .call hlibrary hn.toTwins hcallee

/-- Two runs that differ in their name and their times only. -/
structure SameRun (x y : Result × Context) : Prop where
  workflowId : x.1.workflowId = y.1.workflowId
  trigger : x.1.trigger = y.1.trigger
  failure : x.1.failure = y.1.failure
  scope : x.1.scope = y.1.scope
  outside : x.2.outside = y.2.outside
  records : List.Forall₂ Record.Agrees x.2.trace.toList y.2.trace.toList

/-- With the same fuel both runs return or neither does. -/
def RunsAlike (g g' : Graph) : Prop :=
  ∀ (library : String → Option Graph) (clock clock' : Nat → Instant) (fuel : Nat)
    (processId processId' workflowId : String) (trigger : Trigger) (scope : Scope)
    (outside : Outside) (moment moment' : Instant),
    Option.Rel SameRun
      (Engine.run ⟨library, clock⟩ fuel g (.start processId workflowId trigger scope outside moment))
      (Engine.run ⟨library, clock'⟩ fuel g' (.start processId' workflowId trigger scope outside moment'))

theorem runsAlike_of_sameReach (hg : g.Compiled) (hg' : g'.Compiled) (h : g.SameReach g') :
    RunsAlike g g' := by
  intro library clock clock' fuel processId processId' workflowId trigger scope outside moment moment'
  have hstart : Parallel (.start processId workflowId trigger scope outside moment)
      (.start processId' workflowId trigger scope outside moment') := ⟨rfl, rfl, rfl, rfl, .nil⟩
  have hvisit : Lockstep (Engine.visit ⟨library, clock⟩ fuel g entryId)
      (Engine.visit ⟨library, clock'⟩ fuel g' entryId) := by
    apply lockstep_visit _ fuel (matches_of_sameReach hg hg' h) hg.reachable_entry
    rfl
  have hstep := hvisit _ _ hstart
  simp only [Engine.run]
  generalize Engine.visit ⟨library, clock⟩ fuel g entryId _ = x at hstep
  generalize Engine.visit ⟨library, clock'⟩ fuel g' entryId _ = y at hstep
  cases hstep with
  | unfinished => exact .none
  | same h =>
    have hscope := congrArg Surroundings.scope h.surroundings
    have houtside := congrArg Surroundings.outside h.surroundings
    exact .some ⟨h.workflowId, h.trigger, rfl, hscope, houtside, h.trace⟩

theorem run_reachable_only (hg : g.Compiled) (hg' : g'.Compiled) (h : g.SameReach g') :
    (∀ id, id ∈ g.reachable ↔ Relation.ReflTransGen g.workflow.Joins entryId id) ∧
      RunsAlike g g' ∧
      ∀ w, Relation.ReflTransGen Workflow.Edit g.workflow w →
        ∃ g', Graph.compile w = .ok g' ∧ RunsAlike g g' := by
  refine ⟨fun id => hg.mem_reachable_iff, runsAlike_of_sameReach hg hg' h, fun w hw => ?_⟩
  obtain ⟨g'', hcompile, hreach⟩ := Workflow.Edit.compile_sameReach hg hw
  exact ⟨g'', hcompile, runsAlike_of_sameReach hg ⟨w, hcompile⟩ hreach⟩

namespace Sample

def rearranged : Workflow where
  id := "parent"
  name := "Parent"
  description := ""
  nodes := [⟨"3", "", .log "less"⟩, ⟨"2", "", .condition "1 < 2"⟩, ⟨"0", "", .loop 2⟩,
    ⟨"5", "", .webhook⟩, ⟨"4", "", .log "not less"⟩, ⟨"1", "", .subprocess "child"⟩]
  edges := [⟨"c", "2", "True", "3"⟩, ⟨"e", "5", "output", "2"⟩, ⟨"a", "0", "output", "1"⟩,
    ⟨"b", "0", "", "2"⟩, ⟨"d", "2", "False", "4"⟩]

end Sample

theorem run_reachable_only_rearranged :
    let g' : Graph := .ofWorkflow Sample.rearranged (by decide)
    Sample.graph.SameReach g' ∧
    (∀ id, id ∈ Sample.graph.reachable ↔
      Relation.ReflTransGen Sample.graph.workflow.Joins entryId id) ∧
      RunsAlike Sample.graph g' ∧
      ∀ w, Relation.ReflTransGen Workflow.Edit Sample.graph.workflow w →
        ∃ g', Graph.compile w = .ok g' ∧ RunsAlike Sample.graph g' := by
  intro g'
  have hperm : Sample.graph.reachable.Perm g'.reachable := by decide +kernel
  have h : Sample.graph.SameReach g' := by
    refine ⟨rfl, fun id => hperm.mem_iff, ?_, ?_⟩
    · decide +kernel
    · decide +kernel
  exact ⟨h, run_reachable_only Sample.graph_compiled (Graph.ofWorkflow_compiled _ _) h⟩

end FlowGraph.Run
