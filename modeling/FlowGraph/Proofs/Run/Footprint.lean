import FlowGraph.Proofs.Node.Ownership
import FlowGraph.Proofs.Run.Bracketing
import FlowGraph.Proofs.Run.Handover
import FlowGraph.Proofs.Run.Selection
import Mathlib.Data.List.Chain

namespace FlowGraph.Run

variable {E : Engine} {g : Graph} {n : Node} {k : NodeKind} {c c' : Context} {ps : List Round}
  {ending : Except Failure Outcome} {o : Outcome}

def Record.NamesWithin (x y : Record) : Prop :=
  ∀ name, x.vars.contains name = true → y.vars.contains name = true

/-- What the records `rs` of a run that went as `t` tells show of the variables. -/
structure Owned (E : Engine) (t : Tour) (rs : List Record) : Prop where
  grows : rs.IsChain Record.NamesWithin
  opened : ∀ x ∈ rs, x.status = .running → ∃ u : Tour, u.Within t ∧ x = u.opening E
  adjacent : ∀ u : Tour, u.Within t → u.node.kind.nests = false →
    ∃ before after, rs = before ++ u.opening E :: u.closing E :: after
  frame : ∀ u : Tour, u.Within t → u.node.kind.nests = false → ∀ o, u.ending = .ok o →
    ∀ name, name ≠ Scope.outputName → u.node.kind.target? ≠ some name →
      name ∉ u.node.kind.noted →
      (E.closed u.graph u.node u.ending u.worked).scope.get? name =
        (E.entered u.graph u.node u.start).scope.get? name ∧
      (u.closing E).vars.get? name = (u.opening E).vars.get? name

theorem Moment.contains_vars (m : Moment) (name : String) :
    m.record.vars.contains name = (m.scope.get? name).isSome := by
  rw [m.shown, Keyed.contains, Scope.texts, Keyed.get?_map, Option.isSome_map]
  rfl

theorem Moment.Precedes.namesWithin {p m : Moment} (h : p.Precedes m) :
    p.record.NamesWithin m.record := by
  intro name hname
  rw [contains_vars] at hname ⊢
  exact h.grown.isSome hname

theorem Tour.Lawful.grows {t : Tour} (h : t.Lawful E) :
    (t.records E).IsChain Record.NamesWithin := by
  obtain ⟨rest, q, hmoments, hflow, -⟩ := h.flows
  have hchain : (t.moments E).IsChain Moment.Precedes := hmoments ▸ hflow.isChain
  rw [← t.map_moments E]
  exact List.isChain_map_of_isChain _ (fun _ _ hpm => hpm.namesWithin) hchain

theorem Tour.Lawful.adjacent {t u : Tour} (h : t.Lawful E) (hu : u.Within t)
    (hk : u.node.kind.nests = false) :
    ∃ before after, t.records E = before ++ u.opening E :: u.closing E :: after := by
  obtain ⟨before, after, -, hrecords, -⟩ := h.encloses hu [] (by simp)
  have hrounds : u.rounds = [] := ((h.within hu).works.leaf_works hk).1
  rw [hrounds] at hrecords
  exact ⟨before, after, hrecords⟩

theorem Works.writes (h : Works E g n k c ps (.ok o) c') (hk : k.nests = false) :
    Leaf.Writes k c.scope o c'.scope := by
  obtain ⟨-, hending, rfl⟩ := h.leaf_works hk
  rcases hp : Leaf.perform k c.toSurroundings with ⟨r, s⟩
  rw [hp] at hending
  cases r with
  | ok o' =>
    cases hending
    exact Leaf.perform_writes hp
  | error e => cases hending

theorem Tour.Lawful.frame {u : Tour} (h : u.Lawful E) (hk : u.node.kind.nests = false)
    (ho : u.ending = .ok o) {name : String} (hout : name ≠ Scope.outputName)
    (htarget : u.node.kind.target? ≠ some name) (hnoted : name ∉ u.node.kind.noted) :
    (E.closed u.graph u.node u.ending u.worked).scope.get? name =
      (E.entered u.graph u.node u.start).scope.get? name := by
  have hworks := h.works
  rw [ho] at hworks ⊢
  have hleft : u.worked.scope.get? name = (E.entered u.graph u.node u.start).scope.get? name :=
    (hworks.writes hk).others name htarget hnoted
  -- the output is bound when the work is done
  change (o.output.elim u.worked.scope u.worked.scope.setOutput).get? name = _
  cases o.output with
  | none => exact hleft
  | some v =>
    change (u.worked.scope.bind Scope.outputName v).get? name = _
    rw [Scope.get?_bind, if_neg hout.symm, hleft]

theorem Tour.Lawful.owned {t : Tour} (h : t.Lawful E) : Owned E t (t.records E) where
  grows := h.grows
  opened x hx hrunning := h.exists_opening hx hrunning
  adjacent u hu hk := h.adjacent hu hk
  frame u hu hk o ho name hout htarget hnoted := by
    have hframe := (h.within hu).frame hk ho hout htarget hnoted
    have hopening : (u.opening E).vars = (E.entered u.graph u.node u.start).scope.texts := rfl
    have hclosing : (u.closing E).vars = (E.closed u.graph u.node u.ending u.worked).scope.texts :=
      closing_vars E u.graph u.node u.ending u.worked
    refine ⟨hframe, ?_⟩
    rw [hopening, hclosing, Scope.texts, Scope.texts, Keyed.get?_map, Keyed.get?_map]
    exact congrArg (Option.map Json.display) hframe

theorem writes_owned :
    (∀ (k : NodeKind) (t t' : Surroundings) (o : Outcome), Leaf.perform k t = (.ok o, t') →
      Leaf.Writes k t.scope o t'.scope) ∧
    ∀ (E : Engine) (g : Graph) (processId workflowId : String) (trigger : Trigger)
      (scope : Scope) (outside : Outside) (moment : Instant) (fuel : Nat) (r : Result)
      (c : Context), E.Compiled → g.Compiled →
      E.run fuel g (.start processId workflowId trigger scope outside moment) = some (r, c) →
      ∃ t : Tour, t.Lawful E ∧ t.graph = g ∧
        t.start = .start processId workflowId trigger scope outside moment ∧ t.finish = c ∧
        Owned E t c.trace.toList := by
  refine ⟨fun k t t' o => Leaf.perform_writes, ?_⟩
  intro E g processId workflowId trigger scope outside moment fuel r c hE hg h
  obtain ⟨t, entry, -, -, ht, hlaw, -⟩ := exists_tour hE hg h
  have htrace := hlaw.trace_of_goes ht
  refine ⟨t, hlaw, ht.graph, ht.start, ht.finish, ?_⟩
  rw [htrace]
  exact hlaw.owned

namespace Sample

def counted : ApiCall := ⟨"get", "http://localhost/", [], "", "api.length"⟩

def answering : Surroundings where
  scope := .initial
  outside := Platform.outside (fun _ _ => some ⟨200, [], none, some "[1]".toUTF8⟩) fun _ => some 0

end Sample

open Run.Sample (counted answering) in
theorem writes_owned_sound : (∃ o t',
    Leaf.perform (.api counted) answering = (.ok o, t') ∧
    Leaf.Writes (.api counted) answering.scope o t'.scope ∧
    t'.scope.get? "api.length" = some (.arr [.nat 1])) ∧
  ∃ r c, (Sample.engine Sample.sound).run 10 Sample.graph Sample.start = some (r, c) ∧
    ∃ t : Tour, t.Lawful (Sample.engine Sample.sound) ∧ t.graph = Sample.graph ∧
      t.start = Sample.start ∧ t.finish = c ∧
      Owned (Sample.engine Sample.sound) t c.trace.toList := by
  have hperform : Leaf.perform (.api counted) answering = (.ok _, _) := rfl
  obtain ⟨⟨r, c⟩, h⟩ := Option.isSome_iff_exists.1 (show
    ((Sample.engine Sample.sound).run 10 Sample.graph Sample.start).isSome = true by
      decide +kernel)
  have hE := Sample.engine_compiled (Graph.ofWorkflow_compiled (Sample.child (.log "done"))
    (by decide))
  exact ⟨⟨_, _, hperform, writes_owned.1 _ _ _ _ hperform, rfl⟩, r, c, h,
    writes_owned.2 _ _ _ _ _ _ _ _ _ _ _ hE Sample.graph_compiled h⟩

end FlowGraph.Run
