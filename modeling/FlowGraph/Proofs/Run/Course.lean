import FlowGraph.Platform
import FlowGraph.Proofs.Run.Tour
import FlowGraph.Proofs.Workflow.Compiled

namespace FlowGraph.Run

def Engine.Compiled (E : Engine) : Prop := ∀ id g, E.library id = some g → g.Compiled

def Toured (E : Engine) (visit : Visit) : Prop :=
  ∀ g id n c r c', g.Compiled → g.node? id = some n → visit g id c = some (r, c') →
    ∃ t : Tour, t.Goes g n c r c' ∧ t.Lawful E

def LawfulRounds (E : Engine) (ps : List Round) : Prop :=
  ∀ p ∈ ps, ∀ t ∈ p.visits, t.Lawful E

variable {E : Engine} {visit : Visit} {g : Graph} {n : Node} {c c' : Context}

theorem LawfulRounds.nil : LawfulRounds E [] := by
  intro p hp
  cases hp

theorem LawfulRounds.cons {p : Round} {ps : List Round} (hp : ∀ t ∈ p.visits, t.Lawful E)
    (hps : LawfulRounds E ps) : LawfulRounds E (p :: ps) :=
  List.forall_mem_cons.2 ⟨hp, hps⟩

theorem Toured.visitAll (hv : Toured E visit) (hg : g.Compiled) {ns : List Node}
    {r : Except Abort Unit} (hns : ∀ m ∈ ns, g.node? m.id = some m)
    (h : Engine.visitAll visit g ns c = some (r, c')) :
    ∃ ts, Chain (Tour.Goes g) ns c ts r c' ∧ ∀ t ∈ ts, t.Lawful E := by
  induction ns generalizing c with
  | nil =>
    cases h
    exact ⟨[], .done _, by simp⟩
  | cons m ns ih =>
    obtain ⟨hm, hrest⟩ := List.forall_mem_cons.1 hns
    rcases Walk.bind_eq_some.1 h with ⟨⟨⟩, c₁, h₁, h₂⟩ | ⟨a, h₁, rfl⟩
    · obtain ⟨t, ht, hlaw⟩ := hv g m.id m c _ c₁ hg hm h₁
      obtain ⟨ts, hts, hlaws⟩ := ih hrest h₂
      exact ⟨t :: ts, .next ht hts, List.forall_mem_cons.2 ⟨hlaw, hlaws⟩⟩
    · obtain ⟨t, ht, hlaw⟩ := hv g m.id m c _ c' hg hm h₁
      exact ⟨[t], .cut ht, by simpa using hlaw⟩

theorem Toured.follow (hv : Toured E visit) (hg : g.Compiled) {id : String} {b : Branch}
    {r : Except Abort Unit} (h : Engine.follow visit g id b c = some (r, c')) :
    ∃ ts, Follows g id b c ts r c' ∧ ∀ t ∈ ts, t.Lawful E :=
  hv.visitAll hg (fun _ hm => hg.node?_of_mem_next hm) h

theorem Toured.pass (hv : Toured E visit) (hg : g.Compiled) {message : String} {data : Json}
    {s : Except Failure Unit} (h : E.pass visit g n message data c = some (s, c')) :
    ∃ p r, Round.Passes E g n c message data p r c' ∧ s = r.mapError .below ∧
      ∀ t ∈ p.visits, t.Lawful E := by
  rw [Engine.pass, Walk.emit_bind] at h
  obtain ⟨r, hf, rfl⟩ := Walk.failing_eq_some.1 h
  obtain ⟨ts, hts, hlaw⟩ := hv.follow hg hf
  exact ⟨⟨c, message, data, ts, r, c'⟩, r, ⟨rfl, rfl, rfl, hts, rfl, rfl⟩, rfl, hlaw⟩

theorem Toured.pass_bind {α : Type} (hv : Toured E visit) (hg : g.Compiled) {message : String}
    {data : Json} {w : Walk Failure α} {s : Except Failure α}
    (h : (E.pass visit g n message data >>= fun _ => w) c = some (s, c')) :
    ∃ p, (∀ t ∈ p.visits, t.Lawful E) ∧
      ((∃ c₁, Round.Passes E g n c message data p (.ok ()) c₁ ∧ w c₁ = some (s, c')) ∨
        ∃ a, Round.Passes E g n c message data p (.error a) c' ∧ s = .error (.below a)) := by
  rcases Walk.bind_eq_some.1 h with ⟨⟨⟩, c₁, h₁, h₂⟩ | ⟨e, h₁, rfl⟩
  · obtain ⟨p, r, hp, hr, hlaw⟩ := hv.pass hg h₁
    cases r with
    | ok u => exact ⟨p, hlaw, .inl ⟨c₁, hp, h₂⟩⟩
    | error a => cases hr
  · obtain ⟨p, r, hp, hr, hlaw⟩ := hv.pass hg h₁
    cases r with
    | ok u => cases hr
    | error a =>
      cases hr
      exact ⟨p, hlaw, .inr ⟨a, hp, rfl⟩⟩

theorem Toured.countedPasses (hv : Toured E visit) (hg : g.Compiled) {total done left : Nat}
    {s : Except Failure Unit} (h : E.countedPasses visit g n total done left c = some (s, c')) :
    ∃ ps r, Chain (Round.Counts E g n total) (List.range' done left) c ps r c' ∧
      s = r.mapError .below ∧ LawfulRounds E ps := by
  induction left generalizing done c with
  | zero =>
    cases h
    exact ⟨[], .ok (), .done _, rfl, .nil⟩
  | succ left ih =>
    obtain ⟨p, hlaw, ⟨c₁, hp, h⟩ | ⟨a, hp, rfl⟩⟩ := hv.pass_bind hg h
    · obtain ⟨ps, r, hps, rfl, hlaws⟩ := ih h
      exact ⟨p :: ps, r, .next hp hps, rfl, hlaws.cons hlaw⟩
    · exact ⟨[p], .error a, .cut hp, rfl, LawfulRounds.nil.cons hlaw⟩

theorem Toured.itemPasses (hv : Toured E visit) (hg : g.Compiled) {listVariable : String}
    {total done : Nat} {items : List Json} {s : Except Failure Unit}
    (h : E.itemPasses visit g n (listVariable ++ ".item") total done items c = some (s, c')) :
    ∃ ps r, Chain (Round.Takes E g n listVariable total) (items.zipIdx done) c ps r c' ∧
      s = r.mapError .below ∧ LawfulRounds E ps := by
  induction items generalizing done c with
  | nil =>
    cases h
    exact ⟨[], .ok (), .done _, rfl, .nil⟩
  | cons item items ih =>
    obtain ⟨p, hlaw, ⟨c₁, hp, h⟩ | ⟨a, hp, rfl⟩⟩ := hv.pass_bind hg h
    · obtain ⟨ps, r, hps, rfl, hlaws⟩ := ih h
      exact ⟨p :: ps, r, .next hp hps, rfl, hlaws.cons hlaw⟩
    · exact ⟨[p], .error a, .cut hp, rfl, LawfulRounds.nil.cons hlaw⟩

theorem condition_eq (expression : String) (c : Context) : Engine.condition expression c =
    (match Expression.evaluateBoolean (Round.reading expression c.scope) with
      | .ok holds => (pure (Round.reading expression c.scope, holds) : Walk Failure _)
      | .error e => throw (Failure.own (.expression (Round.reading expression c.scope) e))) c := rfl

theorem condition_bind {α : Type} {expression : String} {w : String × Bool → Walk Failure α}
    {s : Except Failure α} (h : (Engine.condition expression >>= w) c = some (s, c')) :
    (∃ holds, Expression.evaluateBoolean (Round.reading expression c.scope) = .ok holds ∧
      w (Round.reading expression c.scope, holds) c = some (s, c')) ∨
    ∃ e, Expression.evaluateBoolean (Round.reading expression c.scope) = .error e ∧
      s = .error (.own (.expression (Round.reading expression c.scope) e)) ∧ c' = c := by
  have hc := condition_eq expression c
  cases he : Expression.evaluateBoolean (Round.reading expression c.scope) with
  | ok holds =>
    rw [he] at hc
    rcases Walk.bind_eq_some.1 h with ⟨_, c₁, h₁, h₂⟩ | ⟨e, h₁, rfl⟩
    · cases hc.symm.trans h₁
      exact .inl ⟨holds, rfl, h₂⟩
    · cases hc.symm.trans h₁
  | error e =>
    rw [he] at hc
    rcases Walk.bind_eq_some.1 h with ⟨_, c₁, h₁, h₂⟩ | ⟨e, h₁, rfl⟩
    · cases hc.symm.trans h₁
    · cases hc.symm.trans h₁
      exact .inr ⟨e, rfl, rfl, rfl⟩

inductive Repeated (expression : String) (done passes most : Nat) (c' : Context) :
    Except Abort Unit → Except Failure Nat → Prop
  | finished {holds : Bool} :
    Expression.evaluateBoolean (Round.reading expression c'.scope) = .ok holds →
    (holds = true → passes = most) →
    Repeated expression done passes most c' (.ok ()) (.ok (done + passes))
  | unread {e : Expression.Error} :
    Expression.evaluateBoolean (Round.reading expression c'.scope) = .error e →
    Repeated expression done passes most c' (.ok ())
      (.error (.own (.expression (Round.reading expression c'.scope) e)))
  | brokenOff (a : Abort) :
    Repeated expression done passes most c' (.error a) (.error (.below a))

theorem Repeated.succ {expression : String} {done passes most : Nat} {r : Except Abort Unit}
    {s : Except Failure Nat} (h : Repeated expression (done + 1) passes most c' r s) :
    Repeated expression done (passes + 1) (most + 1) c' r s := by
  cases h with
  | finished hh hp =>
    rw [Nat.add_assoc, Nat.add_comm 1]
    exact .finished hh fun h => by rw [hp h]
  | unread he => exact .unread he
  | brokenOff a => exact .brokenOff a

theorem Toured.conditionPasses (hv : Toured E visit) (hg : g.Compiled) {expression : String}
    {limit done left : Nat} {s : Except Failure Nat}
    (h : E.conditionPasses visit g n expression limit done left c = some (s, c')) :
    ∃ ps passes r, passes ≤ left ∧
      Chain (Round.Repeats E g n expression limit) (List.range' done passes) c ps r c' ∧
      Repeated expression done passes left c' r s ∧ LawfulRounds E ps := by
  induction left generalizing done c with
  | zero =>
    rcases condition_bind h with ⟨holds, hc, h⟩ | ⟨e, hc, rfl, rfl⟩
    · cases h
      exact ⟨[], 0, .ok (), Nat.le_refl 0, .done _, .finished hc fun _ => rfl, .nil⟩
    · exact ⟨[], 0, .ok (), Nat.le_refl 0, .done _, .unread hc, .nil⟩
  | succ left ih =>
    rcases condition_bind h with ⟨holds, hc, h⟩ | ⟨e, hc, rfl, rfl⟩
    · cases holds with
      | false =>
        cases h
        exact ⟨[], 0, .ok (), Nat.zero_le _, .done _, .finished hc nofun, .nil⟩
      | true =>
        obtain ⟨p, hlaw, ⟨c₁, hp, h⟩ | ⟨a, hp, rfl⟩⟩ := hv.pass_bind hg h
        · obtain ⟨ps, passes, r, hle, hps, hs, hlaws⟩ := ih h
          exact ⟨p :: ps, passes + 1, r, Nat.succ_le_succ hle, .next ⟨hc, hp⟩ hps, hs.succ,
            hlaws.cons hlaw⟩
        · exact ⟨[p], 1, .error a, by omega, .cut ⟨hc, hp⟩, .brokenOff a,
            LawfulRounds.nil.cons hlaw⟩
    · exact ⟨[], 0, .ok (), Nat.zero_le _, .done _, .unread hc, .nil⟩

theorem Toured.calls (hv : Toured E visit) {id : String} {callee : Graph}
    (hcallee : callee.Compiled) {o : Outcome} {s : Except Failure Outcome}
    (h : (do
      E.emit g n .info s!"SubProcess {callee.workflow.name} is running"
        (.object [("subProcessId", .str id)])
      (Walk.inCall (visit callee entryId)).failing .below
      return o : Walk Failure Outcome) c = some (s, c')) :
    ∃ p : Round, p.Calls E g n id callee c ∧ s = endingOf o p.result ∧ c' = p.finish ∧
      ∀ t ∈ p.visits, t.Lawful E := by
  obtain ⟨entry, hentry⟩ := hcallee.exists_entry
  -- the call is one visit of the entry, however it ends
  have key : ∀ {r : Except Abort Unit} {c₂ : Context},
      visit callee entryId
        { E.noted g n .info s!"SubProcess {callee.workflow.name} is running"
          (.object [("subProcessId", .str id)]) c with depth := c.depth + 1 } = some (r, c₂) →
      ∃ p : Round, p.Calls E g n id callee c ∧ p.result = r ∧
        p.finish = { c₂ with depth := c₂.depth - 1 } ∧ ∀ t ∈ p.visits, t.Lawful E := by
    intro r c₂ hvisit
    obtain ⟨t, ht, hlaw⟩ := hv _ _ _ _ _ _ hcallee hentry hvisit
    obtain ⟨rfl, hnode, hstart, rfl, rfl⟩ := ht
    exact ⟨⟨c, _, _, [t], t.result, _⟩, ⟨rfl, rfl, rfl, t, entry, rfl, hentry,
      ⟨rfl, hnode, hstart, rfl, rfl⟩, rfl⟩, rfl, rfl, by simpa using hlaw⟩
  rw [Walk.emit_bind] at h
  rcases Walk.bind_eq_some.1 h with ⟨u, c₁, h₁, h⟩ | ⟨e, h₁, rfl⟩
  · cases h
    obtain ⟨r, h₂, hr⟩ := Walk.failing_eq_some.1 h₁
    obtain ⟨c₂, h₃, rfl⟩ := Walk.inCall_eq_some.1 h₂
    cases r with
    | error a => cases hr
    | ok _ =>
      obtain ⟨p, hp, hres, hfin, hlaw⟩ := key h₃
      exact ⟨p, hp, by rw [hres]; rfl, hfin.symm, hlaw⟩
  · obtain ⟨r, h₂, hr⟩ := Walk.failing_eq_some.1 h₁
    obtain ⟨c₂, h₃, rfl⟩ := Walk.inCall_eq_some.1 h₂
    cases r with
    | ok _ => cases hr
    | error a =>
      cases hr
      obtain ⟨p, hp, hres, hfin, hlaw⟩ := key h₃
      exact ⟨p, hp, by rw [hres]; rfl, hfin.symm, hlaw⟩

theorem Toured.call (hv : Toured E visit) (hE : E.Compiled) {id : String}
    {s : Except Failure Outcome} (h : E.call visit g n id c = some (s, c')) :
    ∃ ps, Works E g n (.subprocess id) c ps s c' ∧ LawfulRounds E ps := by
  rw [Engine.call, Walk.depth_bind] at h
  by_cases hd : maxDepth ≤ c.depth
  · simp only [hd, ↓reduceIte] at h
    cases h
    exact ⟨[], .tooDeep hd, .nil⟩
  · simp only [hd, ↓reduceIte] at h
    cases hl : E.library id with
    | none =>
      simp only [hl] at h
      cases h
      exact ⟨[], .noWorkflow (Nat.lt_of_not_le hd) hl, .nil⟩
    | some callee =>
      simp only [hl] at h
      obtain ⟨p, hp, rfl, rfl, hlaw⟩ := hv.calls (hE id callee hl) h
      exact ⟨[p], .call (Nat.lt_of_not_le hd) hl hp, LawfulRounds.nil.cons hlaw⟩

theorem bind_return {α β : Type} {w : Walk Failure α} {f : α → β} {s : Except Failure β}
    (h : (do return f (← w) : Walk Failure β) c = some (s, c')) :
    ∃ u, w c = some (u, c') ∧ s = u.map f := by
  rcases Walk.bind_eq_some.1 h with ⟨u, c₁, h₁, h⟩ | ⟨e, h₁, rfl⟩
  · cases h
    exact ⟨_, h₁, rfl⟩
  · exact ⟨_, h₁, rfl⟩

theorem map_mapError (r : Except Abort Unit) (o : Outcome) :
    ((r.mapError Failure.below).map fun _ => o) = endingOf o r := by
  cases r <;> rfl

theorem Toured.loop (hv : Toured E visit) (hg : g.Compiled) {iterations : Nat}
    {s : Except Failure Outcome} (h : E.loop visit g n iterations c = some (s, c')) :
    ∃ ps, Works E g n (.loop iterations) c ps s c' ∧ LawfulRounds E ps := by
  obtain ⟨u, hu, rfl⟩ := bind_return h
  obtain ⟨ps, r, hps, rfl, hlaw⟩ := hv.countedPasses hg hu
  rw [← List.range_eq_range'] at hps
  rw [map_mapError]
  exact ⟨ps, .loop hps, hlaw⟩

theorem Toured.forEach (hv : Toured E visit) (hg : g.Compiled) {listVariable : String}
    {s : Except Failure Outcome} (h : E.forEach visit g n listVariable c = some (s, c')) :
    ∃ ps, Works E g n (.forEach listVariable) c ps s c' ∧ LawfulRounds E ps := by
  rw [Engine.forEach, Walk.scope_bind] at h
  cases hl : c.scope.list listVariable with
  | error fault =>
    simp only [hl] at h
    cases h
    exact ⟨[], .noList hl, .nil⟩
  | ok items =>
    simp only [hl] at h
    obtain ⟨u, hu, rfl⟩ := bind_return h
    obtain ⟨ps, r, hps, rfl, hlaw⟩ := hv.itemPasses hg hu
    rw [map_mapError]
    exact ⟨ps, .forEach hl hps, hlaw⟩

theorem Toured.whileHolds (hv : Toured E visit) (hg : g.Compiled) {expression : String}
    {limit : Nat} {s : Except Failure Outcome}
    (h : E.whileHolds visit g n expression limit c = some (s, c')) :
    ∃ ps, Works E g n (.whileHolds expression limit) c ps s c' ∧ LawfulRounds E ps := by
  obtain ⟨u, hu, rfl⟩ := bind_return h
  obtain ⟨ps, passes, r, hle, hps, hu, hlaw⟩ := hv.conditionPasses hg hu
  rw [← List.range_eq_range'] at hps
  cases hu with
  | finished hh hp =>
    rw [Nat.zero_add]
    exact ⟨ps, .noLonger hle hps hh hp, hlaw⟩
  | unread he => exact ⟨ps, .unread hle hps he, hlaw⟩
  | brokenOff a => exact ⟨ps, .brokenOff hle hps, hlaw⟩

theorem Toured.dispatch (hv : Toured E visit) (hg : g.Compiled) (hE : E.Compiled)
    {s : Except Failure Outcome} (h : E.dispatch visit g n c = some (s, c')) :
    ∃ ps, Works E g n n.kind c ps s c' ∧ LawfulRounds E ps := by
  rw [Engine.dispatch] at h
  cases hk : n.kind.nests with
  | true =>
    rcases NodeKind.nests_iff.1 hk with ⟨i, hk⟩ | ⟨l, hk⟩ | ⟨x, m, hk⟩ | ⟨id, hk⟩ <;> rw [hk] at h ⊢
    · exact hv.loop hg h
    · exact hv.forEach hg h
    · exact hv.whileHolds hg h
    · exact hv.call hE h
  | false =>
    have hleaf : (Walk.leaf (Leaf.perform n.kind)).failing .own c = some (s, c') := by
      rw [← h]
      cases hn : n.kind <;> first | rfl | simp [hn, NodeKind.nests] at hk
    obtain ⟨r, hr, rfl⟩ := Walk.failing_eq_some.1 hleaf
    cases hr
    exact ⟨[], .leaf hk, .nil⟩

theorem Toured.visitNode (hv : Toured E visit) (hg : g.Compiled) (hE : E.Compiled)
    {r : Except Abort Unit} (h : E.visitNode visit g n c = some (r, c')) :
    ∃ t : Tour, t.Goes g n c r c' ∧ t.Lawful E := by
  rw [Engine.visitNode, Walk.mapScope_bind, Walk.emit_bind] at h
  obtain ⟨ending, worked, hd, h⟩ := Walk.attempt_bind_eq_some.1 h
  obtain ⟨ps, hps, hlaw⟩ := hv.dispatch hg hE hd
  cases ending with
  | ok o =>
    obtain ⟨ts, hts, hlaws⟩ := hv.follow hg h
    exact ⟨⟨g, n, c, ps, worked, .ok o, ts, r, c'⟩, ⟨rfl, rfl, rfl, rfl, rfl⟩,
      .intro hps hts hlaw hlaws⟩
  | error e =>
    refine ⟨⟨g, n, c, ps, worked, .error e, [], r, c'⟩, ⟨rfl, rfl, rfl, rfl, rfl⟩,
      .intro hps ?_ hlaw (by simp)⟩
    cases e <;> cases h <;> exact ⟨rfl, rfl, rfl⟩

theorem toured_visit (hE : E.Compiled) (fuel : Nat) : Toured E (E.visit fuel) := by
  induction fuel with
  | zero =>
    intro g id n c r c' _ _ h
    cases h
  | succ fuel ih =>
    intro g id n c r c' hg hn h
    simp only [Engine.visit, hn] at h
    exact ih.visitNode hg hE h

theorem exists_tour (hE : E.Compiled) (hg : g.Compiled) {fuel : Nat} {r : Result}
    (h : E.run fuel g c = some (r, c')) :
    ∃ (t : Tour) (entry : Node), g.node? entryId = some entry ∧ entry.id = entryId ∧
      t.Goes g entry c t.result c' ∧ t.Lawful E ∧ r.scope = c'.scope ∧
      (match t.result with
        | .ok _ => r.failure = none
        | .error a => r.failure = some a) := by
  obtain ⟨entry, hentry⟩ := hg.exists_entry
  simp only [Engine.run] at h
  split at h
  · cases h
  · next s c₁ hvisit =>
    obtain ⟨t, ht, hlaw⟩ := toured_visit hE fuel g entryId entry c s c₁ hg hentry hvisit
    cases h
    refine ⟨t, entry, hentry, hg.id_of_node? hentry, ⟨ht.graph, ht.node, ht.start, rfl, ht.finish⟩,
      hlaw, rfl, ?_⟩
    rw [ht.result]
    cases s <;> rfl

namespace Sample

def child (last : NodeKind) : Workflow where
  id := "child"
  name := "Child"
  description := ""
  nodes := [⟨"0", "", .text "x" "y"⟩, ⟨"1", "", last⟩]
  edges := [⟨"a", "0", "", "1"⟩]

def parent : Workflow where
  id := "parent"
  name := "Parent"
  description := ""
  nodes := [⟨"0", "", .loop 2⟩, ⟨"1", "", .subprocess "child"⟩, ⟨"2", "", .condition "1 < 2"⟩,
    ⟨"3", "", .log "less"⟩, ⟨"4", "", .log "not less"⟩]
  edges := [⟨"a", "0", "output", "1"⟩, ⟨"b", "0", "", "2"⟩, ⟨"c", "2", "True", "3"⟩,
    ⟨"d", "2", "False", "4"⟩]

def graph : Graph := .ofWorkflow parent (by decide)

def caller : Node := ⟨"1", "", .subprocess "child"⟩

theorem graph_compiled : graph.Compiled := Graph.ofWorkflow_compiled _ _

def moment : Instant := ⟨⟨2024, 1, 1, by decide⟩, ⟨0, 0, 0, 0, by decide⟩⟩

def engine (callee : Graph) : Engine := ⟨fun id => if id = "child" then some callee else none, fun _ => moment⟩

theorem engine_compiled {callee : Graph} (h : callee.Compiled) : (engine callee).Compiled := by
  intro id g hg
  simp only [engine] at hg
  split at hg
  · cases hg
    exact h
  · cases hg

def sound : Graph := .ofWorkflow (child (.log "done")) (by decide)

def broken : Graph := .ofWorkflow (child (.unknown "odd" .null)) (by decide)

def nested : Graph := .ofWorkflow (child (.subprocess "child")) (by decide)

def start : Context :=
  .start "p" "parent" .manual .initial (Platform.alone fun _ => some 0) moment

end Sample

end FlowGraph.Run
