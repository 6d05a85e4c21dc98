import FlowGraph.Store.Definitions
import FlowGraph.Store.Replay

namespace FlowGraph.Store

structure Summary where
  processId : String
  workflowId : String
  workflowName : String
  startedAt : Instant
  finishedAt : Instant
  records : Nat
  failed : Bool
deriving DecidableEq

def Summary.toJson (s : Summary) : Json :=
  .object [
    ("processId", .str s.processId),
    ("workflowId", .str s.workflowId),
    ("workflowName", .str s.workflowName),
    ("startedAt", .str s.startedAt.shown),
    ("finishedAt", .str s.finishedAt.shown),
    ("records", .nat s.records),
    ("failed", .bool s.failed)]

structure Group where
  processId : String
  workflowId : String
  rows : List ReplayRow

namespace Group

def first (before : String → String → Bool) : List ReplayRow → String
  | [] => ""
  | [r] => r.createdAt
  | r :: rs =>
    let t := first before rs
    if before r.createdAt t then r.createdAt else t

def earliest (g : Group) : String := first (fun a b => a ≤ b) g.rows

def latest (g : Group) : String := first (fun a b => b ≤ a) g.rows

def failed (g : Group) : Bool := g.rows.any (·.status = Run.Status.failed.name)

def summary (names : Definitions) (g : Group) : Except Fault Summary := do
  return {
    processId := g.processId
    workflowId := g.workflowId
    workflowName := ((names.get? g.workflowId).map (·.name)).getD g.workflowId
    startedAt := ← instantOf g.earliest
    finishedAt := ← instantOf g.latest
    records := g.rows.length
    failed := g.failed }

end Group

namespace Replay

def groups (t : Replay) : List Group :=
  let keys := (t.map fun r => (r.processId, r.workflowId)).eraseDups
  (keys.mergeSort fun a b => a.1 < b.1 || (a.1 = b.1 && a.2 ≤ b.2)).map fun (p, w) =>
    ⟨p, w, t.filter fun r => r.processId = p && r.workflowId = w⟩

def history (t : Replay) (names : Definitions) (workflowId : Option String) :
    Except Fault (List Summary) :=
  let rows : Replay := match workflowId with
    | some id => t.filter (·.workflowId = id)
    | none => t
  (rows.groups.mergeSort fun a b => b.earliest ≤ a.earliest).mapM (Group.summary names)

end Replay

end FlowGraph.Store
