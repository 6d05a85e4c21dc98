import FlowGraph.Workflow.Basic

namespace FlowGraph

inductive Workflow.Fault where
  | missingEntry (workflow : String)
  | duplicateNode (workflow node : String)
  | danglingEdge (workflow edge node : String)
deriving DecidableEq

def Workflow.Fault.message : Workflow.Fault → String
  | .missingEntry w => s!"workflow '{w}' has no entry node \"0\""
  | .duplicateNode w n => s!"workflow '{w}' declares node '{n}' more than once"
  | .danglingEdge w e n => s!"edge '{e}' in workflow '{w}' references unknown node '{n}'"

structure Route where
  order : Nat
  handle : String
  target : Nat
deriving DecidableEq

structure Graph where
  workflow : Workflow
  positions : Keyed Nat
  routes : List (List Route)
deriving DecidableEq

namespace Graph

def place (w : Workflow) : (next : Nat) → Keyed Nat → List Node →
    Except Workflow.Fault (Keyed Nat)
  | _, m, [] => .ok m
  | i, m, n :: ns =>
    if m.contains n.id then .error (.duplicateNode w.id n.id)
    else place w (i + 1) (m.put n.id i) ns

def endpoint (w : Workflow) (m : Keyed Nat) (e : Edge) (id : String) :
    Except Workflow.Fault Nat :=
  match m.get? id with
  | some i => .ok i
  | none => .error (.danglingEdge w.id e.id id)

def route (w : Workflow) (m : Keyed Nat) : (order : Nat) → List (List Route) → List Edge →
    Except Workflow.Fault (List (List Route))
  | _, rs, [] => .ok rs
  | k, rs, e :: es => do
    let source ← endpoint w m e e.source
    let target ← endpoint w m e e.target
    route w m (k + 1) (rs.modify source (⟨k, e.handle, target⟩ :: ·)) es

/-- Node ids must differ, one of them must be the entry, and edges must join nodes. -/
def compile (w : Workflow) : Except Workflow.Fault Graph := do
  let positions ← place w 0 .empty w.nodes
  if !positions.contains entryId then .error (.missingEntry w.id)
  let routes ← route w positions 0 (w.nodes.map fun _ => []) w.edges
  return ⟨w, positions, routes⟩

def id (g : Graph) : String := g.workflow.id

def node? (g : Graph) (id : String) : Option Node :=
  (g.positions.get? id).bind (g.workflow.nodes[·]?)

def entry? (g : Graph) : Option Node := g.node? entryId

def interval? (g : Graph) : Option Interval :=
  match g.entry? with
  | some ⟨_, _, .interval t⟩ => some t
  | _ => none

def isWebhook (g : Graph) : Bool :=
  match g.entry? with
  | some ⟨_, _, .webhook⟩ => true
  | _ => false

def routesFrom (g : Graph) (id : String) : List Route :=
  ((g.positions.get? id).bind (g.routes[·]?)).getD []

def next (g : Graph) (id : String) (b : Branch) : List Node :=
  let taken := (g.routesFrom id).filter (b.accepts ·.handle)
  (taken.mergeSort fun r s => r.order ≤ s.order).filterMap (g.workflow.nodes[·.target]?)

def exits (g : Graph) (id : String) (b : Branch) : List Node × Bool :=
  match g.positions.get? id with
  | none => ([], false)
  | some _ =>
    let targets := g.next id b
    (targets, !targets.isEmpty)

def reach (g : Graph) : (fuel : Nat) → (seen todo : List Nat) → List Nat
  | 0, seen, _ => seen
  | _, seen, [] => seen
  | fuel + 1, seen, i :: todo =>
    if seen.contains i then reach g fuel seen todo
    else reach g fuel (i :: seen) (((g.routes[i]?).getD []).map (·.target) ++ todo)

def reachable (g : Graph) : List String :=
  match g.positions.get? entryId with
  | some i =>
    (g.reach (g.workflow.edges.length + 1) [] [i]).filterMap fun j =>
      (g.workflow.nodes[j]?).map (·.id)
  | none => []

end Graph

end FlowGraph
