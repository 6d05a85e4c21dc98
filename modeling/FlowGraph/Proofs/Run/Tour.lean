import FlowGraph.Proofs.Run.Walk
/-!
The course of a run as a tree. A tour is a visit with all that follows from it: the rounds in which
its node visits others, and the visits made after it. `Lawful` says what each visit may do; the
records of a run are those of its tour, read from left to right.
-/

namespace FlowGraph

def NodeKind.nests : NodeKind → Bool
  | .loop _ | .forEach _ | .whileHolds .. | .subprocess _ => true
  | _ => false

theorem NodeKind.nests_iff {k : NodeKind} : k.nests = true ↔
    (∃ iterations, k = .loop iterations) ∨ (∃ listVariable, k = .forEach listVariable) ∨
      (∃ expression limit, k = .whileHolds expression limit) ∨ ∃ id, k = .subprocess id := by
  cases k <;> simp [nests]

namespace Run

mutual

structure Tour where
  graph : Graph
  node : Node
  start : Context
  rounds : List Round
  worked : Context
  ending : Except Failure Outcome
  onward : List Tour
  result : Except Abort Unit
  finish : Context

structure Round where
  begun : Context
  message : String
  data : Json
  visits : List Tour
  result : Except Abort Unit
  finish : Context

end

def Failure.message : Failure → String
  | .own cause => cause.message
  | .below a => Engine.abortMessage a

def Failure.abort (g : Graph) (n : Node) : Failure → Abort
  | .own cause => ⟨g.id, n.id, cause⟩
  | .below a => a

namespace Engine

def opening (E : Engine) (g : Graph) (n : Node) (c : Context) : Record :=
  E.record g n .running s!"Running {n.kind.type} node" n.data { c with scope := c.scope.promote }

def entered (E : Engine) (g : Graph) (n : Node) (c : Context) : Context :=
  E.noted g n .running s!"Running {n.kind.type} node" n.data { c with scope := c.scope.promote }

def closing (E : Engine) (g : Graph) (n : Node) : Except Failure Outcome → Context → Record
  | .ok o, c => E.record g n .completed o.message (o.snapshot.getD n.data)
      { c with scope := o.output.elim c.scope c.scope.setOutput }
  | .error e, c => E.record g n .failed e.message n.data c

def closed (E : Engine) (g : Graph) (n : Node) : Except Failure Outcome → Context → Context
  | .ok o, c => E.noted g n .completed o.message (o.snapshot.getD n.data)
      { c with scope := o.output.elim c.scope c.scope.setOutput }
  | .error e, c => E.noted g n .failed e.message n.data c

end Engine

mutual

def Tour.records (E : Engine) : Tour → List Record
  | ⟨g, n, start, rounds, worked, ending, onward, _, _⟩ =>
    E.opening g n start ::
      (roundRecords E g n rounds ++ E.closing g n ending worked :: tourRecords E onward)

def Round.records (E : Engine) (g : Graph) (n : Node) : Round → List Record
  | ⟨begun, message, data, visits, _, _⟩ =>
    E.record g n .info message data begun :: tourRecords E visits

def tourRecords (E : Engine) : List Tour → List Record
  | [] => []
  | t :: ts => t.records E ++ tourRecords E ts

def roundRecords (E : Engine) (g : Graph) (n : Node) : List Round → List Record
  | [] => []
  | p :: ps => p.records E g n ++ roundRecords E g n ps

end

def Tour.opening (E : Engine) (t : Tour) : Record := E.opening t.graph t.node t.start

def Tour.closing (E : Engine) (t : Tour) : Record := E.closing t.graph t.node t.ending t.worked

theorem Tour.records_eq (E : Engine) (t : Tour) :
    t.records E = t.opening E :: (roundRecords E t.graph t.node t.rounds ++
      t.closing E :: tourRecords E t.onward) := by
  cases t
  rfl

theorem Round.records_eq (E : Engine) (g : Graph) (n : Node) (p : Round) :
    p.records E g n = E.record g n .info p.message p.data p.begun :: tourRecords E p.visits := by
  cases p
  rfl

theorem tourRecords_append (E : Engine) (ts us : List Tour) :
    tourRecords E (ts ++ us) = tourRecords E ts ++ tourRecords E us := by
  induction ts with
  | nil => rfl
  | cons t ts ih => simp only [List.cons_append, tourRecords, ih, List.append_assoc]

theorem mem_tourRecords {E : Engine} {ts : List Tour} {r : Record} :
    r ∈ tourRecords E ts ↔ ∃ t ∈ ts, r ∈ t.records E := by
  induction ts with
  | nil => simp [tourRecords]
  | cons t ts ih => simp [tourRecords, ih]

theorem mem_roundRecords {E : Engine} {g : Graph} {n : Node} {ps : List Round} {r : Record} :
    r ∈ roundRecords E g n ps ↔ ∃ p ∈ ps, r ∈ p.records E g n := by
  induction ps with
  | nil => simp [roundRecords]
  | cons p ps ih => simp [roundRecords, ih]

theorem roundRecords_append (E : Engine) (g : Graph) (n : Node) (ps qs : List Round) :
    roundRecords E g n (ps ++ qs) = roundRecords E g n ps ++ roundRecords E g n qs := by
  induction ps with
  | nil => rfl
  | cons p ps ih => simp only [List.cons_append, roundRecords, ih, List.append_assoc]

inductive Chain {κ α : Type} (R : κ → Context → α → Except Abort Unit → Context → Prop) :
    List κ → Context → List α → Except Abort Unit → Context → Prop
  | done (c : Context) : Chain R [] c [] (.ok ()) c
  | next {k : κ} {ks : List κ} {c c₁ c₂ : Context} {a : α} {as : List α} {r : Except Abort Unit} :
    R k c a (.ok ()) c₁ → Chain R ks c₁ as r c₂ → Chain R (k :: ks) c (a :: as) r c₂
  | cut {k : κ} {ks : List κ} {c c₁ : Context} {a : α} {e : Abort} :
    R k c a (.error e) c₁ → Chain R (k :: ks) c [a] (.error e) c₁

structure Tour.Goes (g : Graph) (n : Node) (c : Context) (t : Tour) (r : Except Abort Unit)
    (c' : Context) : Prop where
  graph : t.graph = g
  node : t.node = n
  start : t.start = c
  result : t.result = r
  finish : t.finish = c'

abbrev Follows (g : Graph) (id : String) (b : Branch) :
    Context → List Tour → Except Abort Unit → Context → Prop :=
  Chain (Tour.Goes g) (g.next id b)

namespace Round

structure Passes (E : Engine) (g : Graph) (n : Node) (c : Context) (text : String) (v : Json)
    (p : Round) (r : Except Abort Unit) (c' : Context) : Prop where
  begun : p.begun = c
  message : p.message = text
  data : p.data = v
  visits : Follows g n.id .body (E.noted g n .info text v c) p.visits r c'
  result : p.result = r
  finish : p.finish = c'

def Counts (E : Engine) (g : Graph) (n : Node) (total i : Nat) (c : Context) :
    Round → Except Abort Unit → Context → Prop :=
  Passes E g n c s!"Iteration {i + 1} of {total}" (.object [("iteration", .nat i)])

def Takes (E : Engine) (g : Graph) (n : Node) (listVariable : String) (total : Nat)
    (item : Json × Nat) (c : Context) : Round → Except Abort Unit → Context → Prop :=
  Passes E g n
    { c with scope := (c.scope.bind (listVariable ++ ".item") item.1).setOutput item.1 }
    s!"Item {item.2 + 1} of {total}" (.object [("index", .nat item.2), ("item", item.1)])

def reading (expression : String) (s : Scope) : String := Template.render expression s []

def Repeats (E : Engine) (g : Graph) (n : Node) (expression : String) (limit i : Nat)
    (c : Context) (p : Round) (r : Except Abort Unit) (c' : Context) : Prop :=
  Expression.evaluateBoolean (reading expression c.scope) = .ok true ∧
    Passes E g n c s!"Iteration {i + 1} (limit {limit})"
      (.object [("iteration", .nat i), ("expression", .str (reading expression c.scope))]) p r c'

structure Calls (E : Engine) (g : Graph) (n : Node) (id : String) (callee : Graph) (c : Context)
    (p : Round) : Prop where
  begun : p.begun = c
  message : p.message = s!"SubProcess {callee.workflow.name} is running"
  data : p.data = .object [("subProcessId", .str id)]
  visit : ∃ t entry, p.visits = [t] ∧ callee.node? entryId = some entry ∧
    t.Goes callee entry
      { E.noted g n .info p.message p.data c with depth := c.depth + 1 } p.result t.finish ∧
    p.finish = { t.finish with depth := t.finish.depth - 1 }

end Round

def endingOf (o : Outcome) : Except Abort Unit → Except Failure Outcome
  | .ok _ => .ok o
  | .error a => .error (.below a)

/-- What a node of some kind does in a context, up to the end of its own work. -/
inductive Works (E : Engine) (g : Graph) (n : Node) :
    NodeKind → Context → List Round → Except Failure Outcome → Context → Prop
  | leaf {k : NodeKind} {c : Context} : k.nests = false →
    Works E g n k c [] ((Leaf.perform k c.toSurroundings).1.mapError .own)
      { c with toSurroundings := (Leaf.perform k c.toSurroundings).2 }
  | loop {iterations : Nat} {c c' : Context} {ps : List Round} {r : Except Abort Unit} :
    Chain (Round.Counts E g n iterations) (List.range iterations) c ps r c' →
    Works E g n (.loop iterations) c ps
      (endingOf ⟨.default, none, "Loop processed successfully", none⟩ r) c'
  | noList {listVariable : String} {c : Context} {fault : Scope.Fault} :
    c.scope.list listVariable = .error fault →
    Works E g n (.forEach listVariable) c [] (.error (.own (.scope fault))) c
  | forEach {listVariable : String} {items : List Json} {c c' : Context} {ps : List Round}
      {r : Except Abort Unit} :
    c.scope.list listVariable = .ok items →
    Chain (Round.Takes E g n listVariable items.length) items.zipIdx c ps r c' →
    Works E g n (.forEach listVariable) c ps
      (endingOf ⟨.default, none, s!"Processed {items.length} items", none⟩ r) c'
  | noLonger {expression : String} {limit passes : Nat} {c c' : Context} {ps : List Round}
      {holds : Bool} :
    passes ≤ limit →
    Chain (Round.Repeats E g n expression limit) (List.range passes) c ps (.ok ()) c' →
    Expression.evaluateBoolean (Round.reading expression c'.scope) = .ok holds →
    (holds = true → passes = limit) →
    Works E g n (.whileHolds expression limit) c ps
      (.ok ⟨.default, none, s!"While loop ran {passes} iterations", none⟩) c'
  | unread {expression : String} {limit passes : Nat} {c c' : Context} {ps : List Round}
      {e : Expression.Error} :
    passes ≤ limit →
    Chain (Round.Repeats E g n expression limit) (List.range passes) c ps (.ok ()) c' →
    Expression.evaluateBoolean (Round.reading expression c'.scope) = .error e →
    Works E g n (.whileHolds expression limit) c ps
      (.error (.own (.expression (Round.reading expression c'.scope) e))) c'
  | brokenOff {expression : String} {limit passes : Nat} {c c' : Context} {ps : List Round}
      {a : Abort} :
    passes ≤ limit →
    Chain (Round.Repeats E g n expression limit) (List.range passes) c ps (.error a) c' →
    Works E g n (.whileHolds expression limit) c ps (.error (.below a)) c'
  | tooDeep {id : String} {c : Context} : maxDepth ≤ c.depth →
    Works E g n (.subprocess id) c [] (.error (.own .tooDeep)) c
  | noWorkflow {id : String} {c : Context} : c.depth < maxDepth → E.library id = none →
    Works E g n (.subprocess id) c [] (.error (.own (.workflowNotFound id))) c
  | call {id : String} {callee : Graph} {c : Context} {p : Round} : c.depth < maxDepth →
    E.library id = some callee → p.Calls E g n id callee c →
    Works E g n (.subprocess id) c [p]
      (endingOf (Leaf.passed s!"SubProcess {callee.workflow.name} completed") p.result) p.finish

def Round.IsPass (E : Engine) (g : Graph) (n : Node) (c : Context) (p : Round)
    (r : Except Abort Unit) (c' : Context) : Prop :=
  ∃ s text v, p.Passes E g n { c with toSurroundings := s } text v r c'

def Ends : (r : Except Abort Unit) → (ending : Except Failure Outcome) → Prop
  | .ok _, ending => ∀ a, ending ≠ .error (.below a)
  | .error a, ending => ending = .error (.below a)

theorem ends_endingOf (o : Outcome) (r : Except Abort Unit) : Ends r (endingOf o r) := by
  cases r with
  | ok _ => exact nofun
  | error a => rfl

inductive Shape (E : Engine) (g : Graph) (n : Node) (k : NodeKind) (c : Context) :
    List Round → Except Failure Outcome → Context → Prop
  | alone (s : Surroundings) {ending : Except Failure Outcome} : Ends (.ok ()) ending →
    Shape E g n k c [] ending { c with toSurroundings := s }
  | passes {κ : Type} {ks : List κ} {ps : List Round} {r : Except Abort Unit}
      {ending : Except Failure Outcome} {c' : Context} :
    k.nests = true → Chain (fun _ => Round.IsPass E g n) ks c ps r c' → Ends r ending →
    Shape E g n k c ps ending c'
  | call {id : String} {callee : Graph} {p : Round} {ending : Except Failure Outcome} :
    k.nests = true → p.Calls E g n id callee c → Ends p.result ending →
    Shape E g n k c [p] ending p.finish

theorem Chain.mono {κ α : Type} {R S : κ → Context → α → Except Abort Unit → Context → Prop}
    {ks : List κ} {as : List α} {c c' : Context} {r : Except Abort Unit} (h : Chain R ks c as r c')
    (hRS : ∀ k c a r c', R k c a r c' → S k c a r c') : Chain S ks c as r c' := by
  induction h with
  | done c => exact .done c
  | next hR _ ih => exact .next (hRS _ _ _ _ _ hR) ih
  | cut hR => exact .cut (hRS _ _ _ _ _ hR)

theorem Works.shape {E : Engine} {g : Graph} {n : Node} {k : NodeKind} {c c' : Context}
    {ps : List Round} {ending : Except Failure Outcome} (h : Works E g n k c ps ending c') :
    Shape E g n k c ps ending c' := by
  cases h with
  | leaf =>
    refine .alone _ ?_
    cases (Leaf.perform k c.toSurroundings).1 <;> exact nofun
  | loop h =>
    exact .passes rfl (h.mono fun _ c _ _ _ h => ⟨c.toSurroundings, _, _, h⟩) (ends_endingOf _ _)
  | noList => exact .alone c.toSurroundings nofun
  | forEach _ h => exact .passes rfl (h.mono fun _ _ _ _ _ h => ⟨_, _, _, h⟩) (ends_endingOf _ _)
  | noLonger _ h => exact .passes rfl (h.mono fun _ c _ _ _ h => ⟨c.toSurroundings, _, _, h.2⟩) nofun
  | unread _ h => exact .passes rfl (h.mono fun _ c _ _ _ h => ⟨c.toSurroundings, _, _, h.2⟩) nofun
  | brokenOff _ h => exact .passes rfl (h.mono fun _ c _ _ _ h => ⟨c.toSurroundings, _, _, h.2⟩) rfl
  | tooDeep => exact .alone c.toSurroundings nofun
  | noWorkflow => exact .alone c.toSurroundings nofun
  | call _ _ h => exact .call rfl h (ends_endingOf _ _)

def Tour.Continues (E : Engine) (t : Tour) : Prop :=
  match t.ending with
  | .ok o => Follows t.graph t.node.id o.branch (E.closed t.graph t.node t.ending t.worked)
      t.onward t.result t.finish
  | .error e => t.onward = [] ∧ t.result = .error (e.abort t.graph t.node) ∧
      t.finish = E.closed t.graph t.node t.ending t.worked

/-- Every visit of the tour does what it may do. -/
inductive Tour.Lawful (E : Engine) : Tour → Prop
  | intro {t : Tour} :
    Works E t.graph t.node t.node.kind (E.entered t.graph t.node t.start) t.rounds t.ending
      t.worked →
    t.Continues E →
    (∀ p ∈ t.rounds, ∀ u ∈ p.visits, Lawful E u) →
    (∀ u ∈ t.onward, Lawful E u) → Lawful E t

inductive Tour.Within : Tour → Tour → Prop
  | self (t : Tour) : Within t t
  | inside {u v t : Tour} {p : Round} : p ∈ t.rounds → v ∈ p.visits → Within u v → Within u t
  | after {u v t : Tour} : v ∈ t.onward → Within u v → Within u t

inductive Tour.Amid : Tour → List Tour → Tour → Prop
  | self (t : Tour) : Amid t [] t
  | inside {u v t : Tour} {outer : List Tour} {p : Round} : p ∈ t.rounds → v ∈ p.visits →
    Amid u outer v → Amid u (outer ++ [t]) t
  | after {u v t : Tour} {outer : List Tour} : v ∈ t.onward → Amid u outer v → Amid u outer t

theorem Tour.Amid.within {outer : List Tour} {t u : Tour} (h : u.Amid outer t) : u.Within t := by
  induction h with
  | self => exact .self u
  | inside hp hv _ ih => exact .inside hp hv ih
  | after hv _ ih => exact .after hv ih

theorem Tour.Within.exists_amid {t u : Tour} (h : u.Within t) : ∃ outer, u.Amid outer t := by
  induction h with
  | self => exact ⟨[], .self u⟩
  | inside hp hv _ ih =>
    obtain ⟨outer, hu⟩ := ih
    exact ⟨_, .inside hp hv hu⟩
  | after hv _ ih =>
    obtain ⟨outer, hu⟩ := ih
    exact ⟨outer, .after hv hu⟩

theorem Tour.Lawful.works {E : Engine} {t : Tour} (h : t.Lawful E) :
    Works E t.graph t.node t.node.kind (E.entered t.graph t.node t.start) t.rounds t.ending
      t.worked := by
  cases h with
  | intro hworks => exact hworks

theorem Tour.Lawful.continues {E : Engine} {t : Tour} (h : t.Lawful E) : t.Continues E := by
  cases h with
  | intro _ hcont => exact hcont

theorem Tour.Lawful.visits {E : Engine} {t u : Tour} {p : Round} (h : t.Lawful E)
    (hp : p ∈ t.rounds) (hu : u ∈ p.visits) : u.Lawful E := by
  cases h with
  | intro _ _ hrounds => exact hrounds p hp u hu

theorem Tour.Lawful.onward {E : Engine} {t u : Tour} (h : t.Lawful E) (hu : u ∈ t.onward) :
    u.Lawful E := by
  cases h with
  | intro _ _ _ honward => exact honward u hu

theorem Tour.Lawful.within {E : Engine} {t u : Tour} (h : t.Lawful E) (hu : u.Within t) :
    u.Lawful E := by
  induction hu with
  | self => exact h
  | inside hp hv _ ih => exact ih (h.visits hp hv)
  | after hv _ ih => exact ih (h.onward hv)

end Run

end FlowGraph
