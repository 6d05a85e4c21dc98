import FlowGraph.Proofs.Node.Growth
import FlowGraph.Proofs.Run.Failing

namespace FlowGraph

structure Scope.HandsOn (s s' : Scope) : Prop where
  input : s'.input = some (s.output.getD (.str ""))
  current : s'.get? currentName = some (s.output.getD (.str ""))
  output : s'.output = s.output
  others : ∀ name, name ≠ inputName → name ≠ currentName → s'.get? name = s.get? name

theorem Scope.handsOn_promote (s : Scope) : s.HandsOn s.promote where
  input := by
    rw [Scope.input, promote, get?_bind, if_neg (by decide), get?_bind, if_pos rfl]
  current := by rw [promote, get?_bind, if_pos rfl]
  output := by
    rw [Scope.output, promote, get?_bind, if_neg (by decide), get?_bind, if_neg (by decide)]
    rfl
  others name hinput hcurrent := by
    rw [promote, get?_bind, if_neg hcurrent.symm, get?_bind, if_neg hinput.symm]

namespace Run

structure Moment where
  record : Record
  scope : Scope
  shown : record.vars = scope.texts

namespace Moment

def Passes (p : Moment) : Prop := p.record.status = .completed ∨ p.record.status = .info

structure Precedes (p m : Moment) : Prop where
  grown : p.scope.Extends m.scope
  handed : m.record.status = .running → p.Passes ∧ p.scope.HandsOn m.scope

end Moment

namespace Engine

def openedAt (E : Engine) (g : Graph) (n : Node) (c : Context) : Moment :=
  ⟨E.opening g n c, c.scope.promote, rfl⟩

def toldAt (E : Engine) (g : Graph) (n : Node) (message : String) (data : Json) (c : Context) :
    Moment :=
  ⟨E.record g n .info message data c, c.scope, rfl⟩

def closedAt (E : Engine) (g : Graph) (n : Node) (ending : Except Failure Outcome) (c : Context) :
    Moment :=
  ⟨E.closing g n ending c, (E.closed g n ending c).scope, closing_vars ..⟩

end Engine

mutual

def Tour.moments (E : Engine) : Tour → List Moment
  | ⟨g, n, start, rounds, worked, ending, onward, _, _⟩ =>
    E.openedAt g n start ::
      (roundMoments E g n rounds ++ E.closedAt g n ending worked :: tourMoments E onward)

def Round.moments (E : Engine) (g : Graph) (n : Node) : Round → List Moment
  | ⟨begun, message, data, visits, _, _⟩ =>
    E.toldAt g n message data begun :: tourMoments E visits

def tourMoments (E : Engine) : List Tour → List Moment
  | [] => []
  | t :: ts => t.moments E ++ tourMoments E ts

def roundMoments (E : Engine) (g : Graph) (n : Node) : List Round → List Moment
  | [] => []
  | p :: ps => p.moments E g n ++ roundMoments E g n ps

end

mutual

theorem Tour.map_moments (E : Engine) :
    ∀ t : Tour, (t.moments E).map Moment.record = t.records E
  | ⟨g, n, start, rounds, worked, ending, onward, _, _⟩ => by
    simp [Tour.moments, Tour.records, Engine.openedAt, Engine.closedAt,
      map_roundMoments E g n rounds, map_tourMoments E onward]

theorem Round.map_moments (E : Engine) (g : Graph) (n : Node) :
    ∀ p : Round, (p.moments E g n).map Moment.record = p.records E g n
  | ⟨begun, message, data, visits, _, _⟩ => by
    simp [Round.moments, Round.records, Engine.toldAt, map_tourMoments E visits]

theorem map_tourMoments (E : Engine) :
    ∀ ts : List Tour, (tourMoments E ts).map Moment.record = tourRecords E ts
  | [] => rfl
  | t :: ts => by simp [tourMoments, tourRecords, Tour.map_moments E t, map_tourMoments E ts]

theorem map_roundMoments (E : Engine) (g : Graph) (n : Node) :
    ∀ ps : List Round, (roundMoments E g n ps).map Moment.record = roundRecords E g n ps
  | [] => rfl
  | p :: ps => by
    simp [roundMoments, roundRecords, Round.map_moments E g n p, map_roundMoments E g n ps]

end

theorem Tour.moments_eq (E : Engine) (t : Tour) :
    t.moments E = E.openedAt t.graph t.node t.start :: (roundMoments E t.graph t.node t.rounds ++
      E.closedAt t.graph t.node t.ending t.worked :: tourMoments E t.onward) := by
  cases t
  rfl

theorem Round.moments_eq (E : Engine) (g : Graph) (n : Node) (p : Round) :
    p.moments E g n = E.toldAt g n p.message p.data p.begun :: tourMoments E p.visits := by
  cases p
  rfl

inductive Flow : Moment → List Moment → Moment → Prop
  | nil (p : Moment) : Flow p [] p
  | cons {p m q : Moment} {ms : List Moment} : p.Precedes m → Flow m ms q → Flow p (m :: ms) q

namespace Flow

variable {p q q' : Moment} {ms ms' : List Moment}

theorem append (h : Flow p ms q) (h' : Flow q ms' q') : Flow p (ms ++ ms') q' := by
  induction h with
  | nil => exact h'
  | cons hm _ ih => exact .cons hm (ih h')

theorem isChain (h : Flow p ms q) : (p :: ms).IsChain Moment.Precedes := by
  induction h with
  | nil p => exact .singleton p
  | cons hm _ ih => exact .cons_cons hm ih

theorem grown (h : Flow p ms q) : ∀ m ∈ p :: ms, p.scope.Extends m.scope := by
  induction h with
  | nil p => simpa using Scope.Extends.refl p.scope
  | cons hm _ ih =>
    refine List.forall_mem_cons.2 ⟨.refl _, fun m hmem => ?_⟩
    exact hm.grown.trans (ih m hmem)

end Flow

variable {E : Engine} {g : Graph} {n : Node} {k : NodeKind} {c c' : Context} {ps : List Round}
  {r : Except Abort Unit} {ending : Except Failure Outcome} {p : Moment}

theorem openedAt_precedes (hp : p.Passes) (hscope : p.scope = c.scope) :
    p.Precedes (E.openedAt g n c) := by
  refine ⟨?_, fun _ => ⟨hp, ?_⟩⟩ <;> rw [hscope]
  · exact c.scope.extends_promote
  · exact c.scope.handsOn_promote

theorem toldAt_precedes {message : String} {data : Json} (h : p.scope.Extends c.scope) :
    p.Precedes (E.toldAt g n message data c) := ⟨h, nofun⟩

theorem closedAt_precedes (h : p.scope.Extends c.scope) :
    p.Precedes (E.closedAt g n ending c) := by
  cases ending with
  | ok o => exact ⟨h.trans (c.scope.extends_elim_setOutput o.output), nofun⟩
  | error e => exact ⟨h, nofun⟩

def Tour.Flows (E : Engine) (t : Tour) : Prop :=
  ∃ rest q, t.moments E = E.openedAt t.graph t.node t.start :: rest ∧
    Flow (E.openedAt t.graph t.node t.start) rest q ∧ q.scope = t.finish.scope ∧
    (t.result = .ok () → q.Passes)

theorem Tour.Flows.behind {t : Tour} (h : t.Flows E) (hp : p.Passes)
    (hscope : p.scope = t.start.scope) :
    ∃ q, Flow p (t.moments E) q ∧ q.scope = t.finish.scope ∧ (t.result = .ok () → q.Passes) := by
  obtain ⟨rest, q, hmoments, hflow, hq⟩ := h
  exact ⟨q, hmoments ▸ .cons (openedAt_precedes hp hscope) hflow, hq⟩

theorem tours_flow {ns : List Node} {ts : List Tour} (h : Chain (Tour.Goes g) ns c ts r c')
    (hts : ∀ t ∈ ts, t.Flows E) (hp : p.Passes) (hscope : p.scope = c.scope) :
    ∃ q, Flow p (tourMoments E ts) q ∧ q.scope = c'.scope ∧ (r = .ok () → q.Passes) := by
  induction h generalizing p with
  | done c => exact ⟨p, .nil p, hscope, fun _ => hp⟩
  | next ht _ ih =>
    obtain ⟨hfirst, hrest⟩ := List.forall_mem_cons.1 hts
    obtain ⟨q, hflow, hq, hpasses⟩ := hfirst.behind hp (ht.start ▸ hscope)
    obtain ⟨q', hflow', hq'⟩ := ih hrest (hpasses ht.result) (hq.trans (by rw [ht.finish]))
    exact ⟨q', hflow.append hflow', hq'⟩
  | cut ht =>
    obtain ⟨q, hflow, hq, -⟩ := (hts _ List.mem_cons_self).behind hp (ht.start ▸ hscope)
    exact ⟨q, by simpa [tourMoments] using hflow, hq.trans (by rw [ht.finish]), nofun⟩

theorem Round.Passes.flow {u : Round} {text : String} {v : Json}
    (h : u.Passes E g n c text v r c') (hvisits : ∀ t ∈ u.visits, t.Flows E)
    (hp : p.scope.Extends c.scope) : ∃ q, Flow p (u.moments E g n) q ∧ q.scope = c'.scope := by
  obtain ⟨rfl, rfl, rfl, hchain, -, -⟩ := h
  obtain ⟨q, hflow, hq, -⟩ :=
    tours_flow (p := E.toldAt g n u.message u.data u.begun) hchain hvisits (.inr rfl) rfl
  exact ⟨q, Round.moments_eq E g n u ▸ .cons (toldAt_precedes hp) hflow, hq⟩

def Round.Grows (E : Engine) (g : Graph) (n : Node) (c : Context) (u : Round)
    (r : Except Abort Unit) (c' : Context) : Prop :=
  ∃ c₁ text v, c.scope.Extends c₁.scope ∧ u.Passes E g n c₁ text v r c'

theorem Round.Passes.grows {u : Round} {text : String} {v : Json}
    (h : u.Passes E g n c text v r c') : u.Grows E g n c r c' := ⟨c, text, v, .refl _, h⟩

theorem Round.Takes.grows {u : Round} {listVariable : String} {total : Nat} {item : Json × Nat}
    (h : Round.Takes E g n listVariable total item c u r c') : u.Grows E g n c r c' :=
  ⟨_, _, _, (Scope.extends_bind ..).trans (Scope.extends_bind ..), h⟩

theorem rounds_flow {κ : Type} {ks : List κ} (h : Chain (fun _ => Round.Grows E g n) ks c ps r c')
    (hps : ∀ u ∈ ps, ∀ t ∈ u.visits, t.Flows E) (hp : p.scope.Extends c.scope) :
    ∃ q, Flow p (roundMoments E g n ps) q ∧ q.scope.Extends c'.scope := by
  induction h generalizing p with
  | done c => exact ⟨p, .nil p, hp⟩
  | next hu _ ih =>
    obtain ⟨hfirst, hrest⟩ := List.forall_mem_cons.1 hps
    obtain ⟨c₁, text, v, hgrown, hpass⟩ := hu
    obtain ⟨q, hflow, hq⟩ := hpass.flow hfirst (hp.trans hgrown)
    obtain ⟨q', hflow', hq'⟩ := ih hrest (by rw [hq]; exact .refl _)
    exact ⟨q', hflow.append hflow', hq'⟩
  | cut hu =>
    obtain ⟨c₁, text, v, hgrown, hpass⟩ := hu
    obtain ⟨q, hflow, hq⟩ := hpass.flow (hps _ List.mem_cons_self) (hp.trans hgrown)
    exact ⟨q, by simpa [roundMoments] using hflow, hq ▸ .refl _⟩

theorem Round.Calls.flow {u : Round} {id : String} {callee : Graph}
    (h : u.Calls E g n id callee c) (hvisits : ∀ t ∈ u.visits, t.Flows E)
    (hp : p.scope = c.scope) : ∃ q, Flow p (u.moments E g n) q ∧ q.scope = u.finish.scope := by
  obtain ⟨rfl, -, -, t, entry, htours, -, ht, hfinish⟩ := h
  have hscope : (E.toldAt g n u.message u.data u.begun).scope = t.start.scope := by
    rw [ht.start]
    rfl
  obtain ⟨q, hflow, hq, -⟩ := (hvisits t (by simp [htours])).behind (.inr rfl) hscope
  refine ⟨q, ?_, by rw [hq, hfinish]⟩
  rw [Round.moments_eq, htours]
  exact .cons (toldAt_precedes (hp ▸ .refl _)) (by simpa [tourMoments] using hflow)

theorem Works.flow (h : Works E g n k c ps ending c')
    (hps : ∀ u ∈ ps, ∀ t ∈ u.visits, t.Flows E) (hp : p.scope = c.scope) :
    ∃ q, Flow p (roundMoments E g n ps) q ∧ q.scope.Extends c'.scope := by
  have hstart : p.scope.Extends c.scope := hp ▸ .refl _
  cases h with
  | leaf => exact ⟨p, .nil p, hstart.trans (Leaf.perform_extends k c.toSurroundings)⟩
  | noList | tooDeep | noWorkflow => exact ⟨p, .nil p, hstart⟩
  | loop h => exact rounds_flow (h.mono fun _ _ _ _ _ h => Round.Passes.grows h) hps hstart
  | forEach _ h => exact rounds_flow (h.mono fun _ _ _ _ _ h => Round.Takes.grows h) hps hstart
  | noLonger _ h | unread _ h | brokenOff _ h =>
    exact rounds_flow (h.mono fun _ _ _ _ _ h => Round.Passes.grows h.2) hps hstart
  | call _ _ h =>
    obtain ⟨q, hflow, hq⟩ := h.flow (hps _ List.mem_cons_self) hp
    exact ⟨q, by simpa [roundMoments] using hflow, hq ▸ .refl _⟩

theorem Tour.onward_flow {t : Tour} (h : t.Continues E) (honward : ∀ u ∈ t.onward, u.Flows E) :
    ∃ q, Flow (E.closedAt t.graph t.node t.ending t.worked) (tourMoments E t.onward) q ∧
      q.scope = t.finish.scope ∧ (t.result = .ok () → q.Passes) := by
  unfold Tour.Continues at h
  cases hending : t.ending with
  | ok o =>
    simp only [hending] at h
    exact tours_flow h honward (.inl rfl) rfl
  | error e =>
    simp only [hending] at h
    obtain ⟨hnone, hresult, hfinish⟩ := h
    rw [hnone, hfinish]
    refine ⟨_, .nil _, rfl, fun hok => ?_⟩
    cases hresult.symm.trans hok

theorem Tour.Lawful.flows {t : Tour} (h : t.Lawful E) : t.Flows E := by
  induction h with
  | @intro t hworks hcont _ _ ihrounds ihonward =>
    obtain ⟨q, hrounds, hq⟩ :=
      hworks.flow (p := E.openedAt t.graph t.node t.start) ihrounds rfl
    obtain ⟨q', honward, hq'⟩ := Tour.onward_flow hcont ihonward
    exact ⟨_, q', Tour.moments_eq E t, hrounds.append (.cons (closedAt_precedes hq) honward), hq'⟩

/-- How the variables pass through a run that begins with those of `scope`. -/
structure Handed (scope : Scope) (ms : List Moment) : Prop where
  numbered : ∀ (k : Nat) m, ms[k]? = some m → m.record.sequence = k
  first : ∀ m, ms[0]? = some m → m.record.status = .running ∧ scope.HandsOn m.scope
  next : ∀ (k : Nat) m, ms[k + 1]? = some m → m.record.status = .running →
    ∃ p, ms[k]? = some p ∧ p.Passes ∧ p.scope.HandsOn m.scope
  bound : scope.output.isSome = true → ∀ m ∈ ms, m.scope.output.isSome = true

theorem Tour.Lawful.handed {t : Tour} (h : t.Lawful E) (hstart : t.start.trace = #[]) :
    Handed t.start.scope (t.moments E) := by
  have hnumbered : (t.records E).map (·.sequence) = List.range (t.records E).length := by
    simpa [hstart, List.range_eq_range'] using (h.stepwise (stepwise_adds E)).numbered
  obtain ⟨rest, q, hmoments, hflow, -⟩ := h.flows
  constructor
  case numbered =>
    intro k m hm
    have hrecord : (t.records E)[k]? = some m.record := by
      rw [← t.map_moments E, List.getElem?_map, hm]
      rfl
    have hsequence := congrArg (·[k]?) hnumbered
    simpa [hrecord, List.getElem?_range (List.getElem?_eq_some_iff.1 hrecord).1] using hsequence
  case first =>
    intro m hm
    rw [hmoments] at hm
    cases hm
    exact ⟨rfl, t.start.scope.handsOn_promote⟩
  case next =>
    intro k m hm hrunning
    obtain ⟨hk, rfl⟩ := List.getElem?_eq_some_iff.1 hm
    have hchain : (t.moments E).IsChain Moment.Precedes := hmoments ▸ hflow.isChain
    obtain ⟨hpasses, hhands⟩ := (List.isChain_iff_getElem.1 hchain k hk).handed hrunning
    exact ⟨_, List.getElem?_eq_getElem (by omega), hpasses, hhands⟩
  case bound =>
    intro hsome m hm
    rw [hmoments] at hm
    have hgrown := t.start.scope.extends_promote.trans (hflow.grown m hm)
    exact hgrown.isSome hsome

theorem run_hands_on (hE : E.Compiled) (hg : g.Compiled) {processId workflowId : String}
    {trigger : Trigger} {scope : Scope} {outside : Outside} {moment : Instant} {fuel : Nat}
    {r : Result}
    (h : E.run fuel g (.start processId workflowId trigger scope outside moment) = some (r, c)) :
    ∃ t : Tour, t.Lawful E ∧ t.graph = g ∧ g.node? entryId = some t.node ∧
      t.start = .start processId workflowId trigger scope outside moment ∧ t.finish = c ∧
      c.trace.toList = (t.moments E).map Moment.record ∧ Handed scope (t.moments E) := by
  obtain ⟨t, entry, hentry, -, ht, hlaw, -⟩ := exists_tour hE hg h
  have htrace : c.trace.toList = t.records E := ht.finish ▸ hlaw.trace (by rw [ht.start]; rfl)
  have hhanded : Handed t.start.scope (t.moments E) := hlaw.handed (by rw [ht.start]; rfl)
  rw [ht.start] at hhanded
  refine ⟨t, hlaw, ht.graph, ht.node ▸ hentry, ht.start, ht.finish, ?_, hhanded⟩
  rw [htrace, t.map_moments E]

theorem run_hands_on_sound : ∃ r c,
    (Sample.engine Sample.sound).run 10 Sample.graph Sample.start = some (r, c) ∧
    ((c.trace.toList.filter (·.status = .running)).map fun x =>
      (x.nodeId, (x.vars.get? "input").getD "?")) =
        [("0", ""), ("1", ""), ("0", ""), ("1", "x"), ("1", "x"), ("0", "x"), ("1", "x"),
          ("2", "x"), ("3", "true")] ∧
    ∃ t : Tour, t.Lawful (Sample.engine Sample.sound) ∧ t.graph = Sample.graph ∧
      Sample.graph.node? entryId = some t.node ∧ t.start = Sample.start ∧ t.finish = c ∧
      c.trace.toList = (t.moments (Sample.engine Sample.sound)).map Moment.record ∧
      Handed .initial (t.moments (Sample.engine Sample.sound)) := by
  have hrun : ((Sample.engine Sample.sound).run 10 Sample.graph Sample.start).map
      (fun p => (p.2.trace.toList.filter (·.status = .running)).map fun x =>
        (x.nodeId, (x.vars.get? "input").getD "?")) =
          some [("0", ""), ("1", ""), ("0", ""), ("1", "x"), ("1", "x"), ("0", "x"), ("1", "x"),
            ("2", "x"), ("3", "true")] := by
    decide +kernel
  obtain ⟨⟨r, c⟩, h, hinputs⟩ := Option.map_eq_some_iff.1 hrun
  have hE := Sample.engine_compiled (Graph.ofWorkflow_compiled (Sample.child (.log "done"))
    (by decide))
  exact ⟨r, c, h, hinputs, run_hands_on hE Sample.graph_compiled h⟩

end Run

end FlowGraph
