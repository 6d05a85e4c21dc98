import FlowGraph.Run.Walk
import FlowGraph.Workflow.Graph

namespace FlowGraph.Run

structure Engine where
  library : String → Option Graph
  clock : Nat → Instant

inductive Failure where
  | own (cause : NodeError)
  | below (abort : Abort)
deriving DecidableEq

abbrev Visit := Graph → String → Walk Abort Unit

namespace Engine

variable {ε : Type}

def record (E : Engine) (g : Graph) (n : Node) (status : Status) (message : String) (data : Json)
    (c : Context) : Record where
  processId := c.processId
  workflowId := c.workflowId
  subprocessId := if g.id = c.workflowId then none else some g.id
  sequence := c.sequence
  nodeId := n.id
  nodeType := n.kind.type
  status := status
  message := message
  data := data
  vars := c.scope.texts
  createdAt := E.clock c.sequence

def emit (E : Engine) (g : Graph) (n : Node) (status : Status) (message : String) (data : Json) :
    Walk ε Unit :=
  modify fun c => c.noted (E.record g n status message data c)

def visitAll (visit : Visit) (g : Graph) : List Node → Walk Abort Unit
  | [] => return
  | n :: ns => do
    visit g n.id
    visitAll visit g ns

def follow (visit : Visit) (g : Graph) (id : String) (b : Branch) : Walk Abort Unit :=
  visitAll visit g (g.next id b)

def pass (E : Engine) (visit : Visit) (g : Graph) (n : Node) (message : String) (data : Json) :
    Walk Failure Unit := do
  E.emit g n .info message data
  (follow visit g n.id .body).failing .below

def countedPasses (E : Engine) (visit : Visit) (g : Graph) (n : Node) (total : Nat) :
    (done left : Nat) → Walk Failure Unit
  | _, 0 => return
  | done, left + 1 => do
    E.pass visit g n s!"Iteration {done + 1} of {total}" (.object [("iteration", .nat done)])
    countedPasses E visit g n total (done + 1) left

def loop (E : Engine) (visit : Visit) (g : Graph) (n : Node) (iterations : Nat) :
    Walk Failure Outcome := do
  E.countedPasses visit g n iterations 0 iterations
  return ⟨.default, none, "Loop processed successfully", none⟩

def itemPasses (E : Engine) (visit : Visit) (g : Graph) (n : Node) (itemName : String)
    (total : Nat) : (done : Nat) → List Json → Walk Failure Unit
  | _, [] => return
  | done, item :: rest => do
    Walk.mapScope fun s => (s.bind itemName item).setOutput item
    E.pass visit g n s!"Item {done + 1} of {total}"
      (.object [("index", .nat done), ("item", item)])
    itemPasses E visit g n itemName total (done + 1) rest

def forEach (E : Engine) (visit : Visit) (g : Graph) (n : Node) (listVariable : String) :
    Walk Failure Outcome := do
  match (← Walk.scope).list listVariable with
  | .error fault => throw (.own (.scope fault))
  | .ok items =>
    E.itemPasses visit g n (listVariable ++ ".item") items.length 0 items
    return ⟨.default, none, s!"Processed {items.length} items", none⟩

def condition (expression : String) : Walk Failure (String × Bool) := do
  let text := Template.render expression (← Walk.scope) []
  match Expression.evaluateBoolean text with
  | .ok holds => return (text, holds)
  | .error e => throw (.own (.expression text e))

/-- The condition is evaluated before each pass and once more after the last. The result is the
number of passes. -/
def conditionPasses (E : Engine) (visit : Visit) (g : Graph) (n : Node) (expression : String)
    (limit : Nat) : (done left : Nat) → Walk Failure Nat
  | done, 0 => do
    let _ ← condition expression
    return done
  | done, left + 1 => do
    let (text, holds) ← condition expression
    if holds then
      E.pass visit g n s!"Iteration {done + 1} (limit {limit})"
        (.object [("iteration", .nat done), ("expression", .str text)])
      conditionPasses E visit g n expression limit (done + 1) left
    else return done

def whileHolds (E : Engine) (visit : Visit) (g : Graph) (n : Node) (expression : String)
    (limit : Nat) : Walk Failure Outcome := do
  let passes ← E.conditionPasses visit g n expression limit 0 limit
  return ⟨.default, none, s!"While loop ran {passes} iterations", none⟩

def call (E : Engine) (visit : Visit) (g : Graph) (n : Node) (id : String) :
    Walk Failure Outcome := do
  if maxDepth ≤ (← Walk.depth) then throw (.own .tooDeep)
  match E.library id with
  | none => throw (.own (.workflowNotFound id))
  | some callee =>
    E.emit g n .info s!"SubProcess {callee.workflow.name} is running"
      (.object [("subProcessId", .str id)])
    (Walk.inCall (visit callee entryId)).failing .below
    return Leaf.passed s!"SubProcess {callee.workflow.name} completed"

def dispatch (E : Engine) (visit : Visit) (g : Graph) (n : Node) : Walk Failure Outcome :=
  match n.kind with
  | .loop iterations => E.loop visit g n iterations
  | .forEach listVariable => E.forEach visit g n listVariable
  | .whileHolds expression limit => E.whileHolds visit g n expression limit
  | .subprocess id => E.call visit g n id
  | k => (Walk.leaf (Leaf.perform k)).failing .own

def complete (E : Engine) (g : Graph) (n : Node) (o : Outcome) : Walk ε Unit := do
  Walk.mapScope fun s => o.output.elim s s.setOutput
  E.emit g n .completed o.message (o.snapshot.getD n.data)

def abortMessage (a : Abort) : String := s!"Aborted by node {a.nodeId}: {a.cause.message}"

def fail (E : Engine) (g : Graph) (n : Node) : Failure → Walk Abort Unit
  | .own cause => do
    E.emit g n .failed cause.message n.data
    throw ⟨g.id, n.id, cause⟩
  | .below a => do
    E.emit g n .failed (abortMessage a) n.data
    throw a

def visitNode (E : Engine) (visit : Visit) (g : Graph) (n : Node) : Walk Abort Unit := do
  Walk.mapScope Scope.promote
  E.emit g n .running s!"Running {n.kind.type} node" n.data
  match ← (E.dispatch visit g n).attempt with
  | .ok o => do
    E.complete g n o
    follow visit g n.id o.branch
  | .error e => E.fail g n e

def visit (E : Engine) : (fuel : Nat) → Visit
  | 0, _, _ => Walk.outOfFuel
  | fuel + 1, g, id =>
    match g.node? id with
    | some n => E.visitNode (visit E fuel) g n
    | none => return

def run (E : Engine) (fuel : Nat) (g : Graph) (c : Context) : Option (Result × Context) :=
  match E.visit fuel g entryId c with
  | none => none
  | some (r, c) =>
    let failure := match r with
      | .ok _ => none
      | .error a => some a
    some (⟨c.processId, c.workflowId, c.trigger, failure, c.scope, c.startedAt,
      E.clock c.trace.size⟩, c)

end Engine

end FlowGraph.Run
