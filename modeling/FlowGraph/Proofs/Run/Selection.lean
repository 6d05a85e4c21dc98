import FlowGraph.Proofs.Node.Branch
import FlowGraph.Proofs.Run.Course
import FlowGraph.Proofs.Run.Stopping
import FlowGraph.Proofs.Run.Stretch

namespace FlowGraph.Run

def Joined : Context → List Tour → Context → Prop
  | c, [], c' => c' = c
  | c, t :: ts, c' => t.start = c ∧ Joined t.finish ts c'

/-- The visits `ts` are those of the nodes `ns` in order, up to the first that fails. -/
structure Selected (g : Graph) (ns : List Node) (c : Context) (ts : List Tour)
    (r : Except Abort Unit) (c' : Context) : Prop where
  graph : ∀ t ∈ ts, t.graph = g
  nodes : ts.map Tour.node <+: ns
  all : r = .ok () → ts.map Tour.node = ns
  halts : VisitsHalt ts r
  joined : Joined c ts c'

def Makes (total : Nat) (ps : List Round) (ending : Except Failure Outcome) : Prop :=
  ps.length ≤ total ∧ ((∀ a, ending ≠ .error (.below a)) → ps.length = total)

/-- The visits that a visit leads to, and where its records and theirs stand. -/
structure Tour.Selects (E : Engine) (t : Tour) : Prop where
  records : t.records E = t.opening E ::
    (t.rounds.flatMap fun p => E.record t.graph t.node .info p.message p.data p.begun ::
      p.visits.flatMap (Tour.records E)) ++ t.closing E :: t.onward.flatMap (Tour.records E)
  onward : ∀ o, t.ending = .ok o →
    Selected t.graph (t.graph.next t.node.id (t.node.kind.branch t.start.scope.promote))
      (E.closed t.graph t.node t.ending t.worked) t.onward t.result t.finish
  stopped : ∀ e, t.ending = .error e → t.onward = []
  rounds : ∃ r, Ends r t.ending ∧ RoundsHalt t.rounds r
  passes : (∀ id, t.node.kind ≠ .subprocess id) → ∀ p ∈ t.rounds,
    Selected t.graph (t.graph.next t.node.id .body)
      (E.noted t.graph t.node .info p.message p.data p.begun) p.visits p.result p.finish
  loop : ∀ iterations, t.node.kind = .loop iterations → Makes iterations t.rounds t.ending
  forEach : ∀ listVariable, t.node.kind = .forEach listVariable →
    match t.start.scope.promote.list listVariable with
    | .ok items => Makes items.length t.rounds t.ending
    | .error _ => t.rounds = []
  whileHolds : ∀ expression limit, t.node.kind = .whileHolds expression limit →
    t.rounds.length ≤ limit
  call : ∀ id, t.node.kind = .subprocess id → t.rounds.length ≤ 1 ∧ ∀ p ∈ t.rounds,
    ∃ callee u, E.library id = some callee ∧ p.visits = [u] ∧ u.graph = callee ∧
      callee.node? entryId = some u.node
  called : ∀ id, t.node.kind = .subprocess id → ∀ o, t.ending = .ok o → t.rounds.length = 1
  leaf : t.node.kind.nests = false → t.rounds = []

variable {E : Engine} {g : Graph} {n : Node} {k : NodeKind} {c c' : Context} {ps : List Round}
  {ending : Except Failure Outcome}

theorem tourRecords_eq_flatMap (E : Engine) (ts : List Tour) :
    tourRecords E ts = ts.flatMap (Tour.records E) := by
  induction ts with
  | nil => rfl
  | cons t ts ih => rw [tourRecords, ih, List.flatMap_cons]

theorem roundRecords_eq_flatMap (E : Engine) (g : Graph) (n : Node) (ps : List Round) :
    roundRecords E g n ps = ps.flatMap fun p =>
      E.record g n .info p.message p.data p.begun :: p.visits.flatMap (Tour.records E) := by
  induction ps with
  | nil => rfl
  | cons p ps ih =>
    rw [roundRecords, ih, List.flatMap_cons, Round.records_eq, tourRecords_eq_flatMap]

theorem selected {ns : List Node} {ts : List Tour} {r : Except Abort Unit}
    (h : Chain (Tour.Goes g) ns c ts r c') : Selected g ns c ts r c' := by
  have hhalts := visitsHalt h
  induction h with
  | done c => exact ⟨by simp, List.nil_prefix, fun _ => rfl, hhalts, rfl⟩
  | @next m ns c c₁ c₂ t ts r ht hts ih =>
    obtain ⟨hgraph, hnodes, hall, -, hjoined⟩ := ih (visitsHalt hts)
    refine ⟨List.forall_mem_cons.2 ⟨ht.graph, hgraph⟩, ?_, fun hr => ?_, hhalts, ht.start, ?_⟩
    · rw [List.map_cons, ht.node]
      exact List.cons_prefix_cons.2 ⟨rfl, hnodes⟩
    · rw [List.map_cons, ht.node, hall hr]
    · rw [ht.finish]
      exact hjoined
  | @cut m ns c c₁ t e ht =>
    refine ⟨by simpa using ht.graph, ?_, nofun, hhalts, ht.start, ht.finish.symm⟩
    rw [List.map_singleton, ht.node]
    exact List.cons_prefix_cons.2 ⟨rfl, List.nil_prefix⟩

theorem eq_of_endingOf {o o' : Outcome} {r : Except Abort Unit} (h : endingOf o r = .ok o') :
    o' = o := by
  cases r with
  | ok u =>
    cases h
    rfl
  | error a => cases h

theorem Works.branch (h : Works E g n k c ps ending c') {o : Outcome} (ho : ending = .ok o) :
    o.branch = k.branch c.scope := by
  cases h with
  | leaf hk =>
    cases hp : Leaf.perform k c.toSurroundings with
    | mk r s =>
      rw [hp] at ho
      cases r with
      | ok o' =>
        cases ho
        exact Leaf.perform_branch hp
      | error e => cases ho
  | loop h => rw [eq_of_endingOf ho, NodeKind.branch]
  | forEach _ h => rw [eq_of_endingOf ho, NodeKind.branch]
  | noLonger _ h =>
    cases ho
    rfl
  | call _ _ h =>
    rw [eq_of_endingOf ho]
    rfl
  | noList | unread | brokenOff | tooDeep | noWorkflow => cases ho

theorem Chain.makes {κ : Type} {R : κ → Context → Round → Except Abort Unit → Context → Prop}
    {ks : List κ} {r : Except Abort Unit} (h : Chain R ks c ps r c') (hends : Ends r ending) :
    Makes ks.length ps ending := by
  refine ⟨h.length_le, fun hne => ?_⟩
  cases r with
  | ok u => exact h.length_eq
  | error a => exact absurd hends (hne a)

theorem Works.loop_makes {iterations : Nat} (h : Works E g n (.loop iterations) c ps ending c') :
    Makes iterations ps ending := by
  cases h with
  | leaf hk => cases hk
  | loop h => simpa using h.makes (ends_endingOf _ _)

theorem Works.forEach_makes {listVariable : String}
    (h : Works E g n (.forEach listVariable) c ps ending c') :
    match c.scope.list listVariable with
    | .ok items => Makes items.length ps ending
    | .error _ => ps = [] := by
  cases h with
  | leaf hk => cases hk
  | noList hl => rw [hl]
  | forEach hl h =>
    rw [hl]
    simpa using h.makes (ends_endingOf _ _)

theorem Works.whileHolds_length {expression : String} {limit : Nat}
    (h : Works E g n (.whileHolds expression limit) c ps ending c') : ps.length ≤ limit := by
  cases h with
  | leaf hk => cases hk
  | noLonger hle h | unread hle h | brokenOff hle h =>
    have := h.length_le
    rw [List.length_range] at this
    omega

theorem Chain.of_mem {κ α : Type} {R : κ → Context → α → Except Abort Unit → Context → Prop}
    {ks : List κ} {as : List α} {r : Except Abort Unit} {a : α} (h : Chain R ks c as r c')
    (ha : a ∈ as) : ∃ k c r c', R k c a r c' := by
  induction h with
  | done c => cases ha
  | next hR _ ih =>
    rcases List.mem_cons.1 ha with rfl | ha
    · exact ⟨_, _, _, _, hR⟩
    · exact ih ha
  | cut hR =>
    obtain rfl := List.mem_singleton.1 ha
    exact ⟨_, _, _, _, hR⟩

theorem Round.Passes.selected {text : String} {v : Json} {p : Round} {r : Except Abort Unit}
    (h : p.Passes E g n c text v r c') :
    Selected g (g.next n.id .body) (E.noted g n .info p.message p.data p.begun) p.visits p.result
      p.finish := by
  rw [h.message, h.data, h.begun, h.result, h.finish]
  exact Run.selected h.visits

theorem Works.passes_selected (h : Works E g n k c ps ending c') (hk : ∀ id, k ≠ .subprocess id)
    {p : Round} (hp : p ∈ ps) :
    Selected g (g.next n.id .body) (E.noted g n .info p.message p.data p.begun) p.visits p.result
      p.finish := by
  cases h with
  | leaf | noList => cases hp
  | loop h =>
    obtain ⟨_, _, _, _, h⟩ := h.of_mem hp
    exact Round.Passes.selected h
  | forEach _ h =>
    obtain ⟨_, _, _, _, h⟩ := h.of_mem hp
    exact Round.Passes.selected h
  | noLonger _ h | unread _ h | brokenOff _ h =>
    obtain ⟨_, _, _, _, h⟩ := h.of_mem hp
    exact Round.Passes.selected h.2
  | tooDeep | noWorkflow | call => exact absurd rfl (hk _)

theorem Works.call_visits {id : String} (h : Works E g n (.subprocess id) c ps ending c') :
    ps.length ≤ 1 ∧ ∀ p ∈ ps, ∃ callee u, E.library id = some callee ∧ p.visits = [u] ∧
      u.graph = callee ∧ callee.node? entryId = some u.node := by
  cases h with
  | leaf hk => cases hk
  | tooDeep | noWorkflow => simp
  | call _ hlib h =>
    obtain ⟨-, -, -, u, entry, hvisits, hentry, hu, -⟩ := h
    refine ⟨Nat.le_refl 1, fun q hq => ?_⟩
    obtain rfl := List.mem_singleton.1 hq
    exact ⟨_, u, hlib, hvisits, hu.graph, hu.node ▸ hentry⟩

theorem Works.call_made {id : String} (h : Works E g n (.subprocess id) c ps ending c')
    {o : Outcome} (ho : ending = .ok o) : ps.length = 1 := by
  cases h with
  | leaf hk => cases hk
  | tooDeep | noWorkflow => cases ho
  | call => rfl

theorem Works.leaf_works (h : Works E g n k c ps ending c') (hk : k.nests = false) :
    ps = [] ∧ ending = (Leaf.perform k c.toSurroundings).1.mapError .own ∧
      c' = { c with toSurroundings := (Leaf.perform k c.toSurroundings).2 } := by
  cases h with
  | leaf => exact ⟨rfl, rfl, rfl⟩
  | _ => cases hk

theorem Tour.Lawful.selects {t : Tour} (h : t.Lawful E) : t.Selects E := by
  have hw := h.works
  have hcont := h.continues
  unfold Tour.Continues at hcont
  constructor
  case records =>
    rw [Tour.records_eq, tourRecords_eq_flatMap, roundRecords_eq_flatMap]
    rfl
  case onward =>
    intro o ho
    have hbranch : o.branch = t.node.kind.branch t.start.scope.promote := hw.branch ho
    simp only [ho] at hcont
    rw [← hbranch, ho]
    exact selected hcont
  case stopped =>
    intro e he
    simp only [he] at hcont
    exact hcont.1
  case rounds => exact hw.shape.halts
  case passes => exact fun hk p hp => hw.passes_selected hk hp
  case loop =>
    intro iterations hk
    rw [hk] at hw
    exact hw.loop_makes
  case forEach =>
    intro listVariable hk
    rw [hk] at hw
    exact hw.forEach_makes
  case whileHolds =>
    intro expression limit hk
    rw [hk] at hw
    exact hw.whileHolds_length
  case call =>
    intro id hk
    rw [hk] at hw
    exact hw.call_visits
  case called =>
    intro id hk o ho
    rw [hk] at hw
    exact hw.call_made ho
  case leaf => exact fun hk => (hw.leaf_works hk).1

theorem run_selects (hE : E.Compiled) (hg : g.Compiled) {processId workflowId : String}
    {trigger : Trigger} {scope : Scope} {outside : Outside} {moment : Instant} {fuel : Nat}
    {r : Result}
    (h : E.run fuel g (.start processId workflowId trigger scope outside moment) = some (r, c)) :
    ∃ t : Tour, t.Lawful E ∧ t.graph = g ∧ g.node? entryId = some t.node ∧
      t.start = .start processId workflowId trigger scope outside moment ∧ t.finish = c ∧
      c.trace.toList = t.records E ∧ ∀ u : Tour, u.Within t → u.Selects E := by
  obtain ⟨t, entry, hentry, -, ht, hlaw, -⟩ := exists_tour hE hg h
  have htrace : c.trace.toList = t.records E := ht.finish ▸ hlaw.trace (by rw [ht.start]; rfl)
  refine ⟨t, hlaw, ht.graph, ht.node ▸ hentry, ht.start, ht.finish, htrace, fun u hu => ?_⟩
  exact (hlaw.within hu).selects

theorem run_selects_sound : ∃ r c,
    (Sample.engine Sample.sound).run 10 Sample.graph Sample.start = some (r, c) ∧
    (c.trace.toList.filter (·.status = .running)).map (·.nodeId) =
      ["0", "1", "0", "1", "1", "0", "1", "2", "3"] ∧
    ∃ t : Tour, t.Lawful (Sample.engine Sample.sound) ∧ t.graph = Sample.graph ∧
      Sample.graph.node? entryId = some t.node ∧ t.start = Sample.start ∧ t.finish = c ∧
      c.trace.toList = t.records (Sample.engine Sample.sound) ∧
      ∀ u : Tour, u.Within t → u.Selects (Sample.engine Sample.sound) := by
  have hrun : ((Sample.engine Sample.sound).run 10 Sample.graph Sample.start).map
      (fun p => (p.2.trace.toList.filter (·.status = .running)).map (·.nodeId)) =
        some ["0", "1", "0", "1", "1", "0", "1", "2", "3"] := by
    decide +kernel
  obtain ⟨⟨r, c⟩, h, hnodes⟩ := Option.map_eq_some_iff.1 hrun
  have hE := Sample.engine_compiled (Graph.ofWorkflow_compiled (Sample.child (.log "done"))
    (by decide))
  exact ⟨r, c, h, hnodes, run_selects hE Sample.graph_compiled h⟩

end FlowGraph.Run
