import FlowGraph.Json.Basic
import FlowGraph.Time.Instant

namespace FlowGraph.Run

inductive Status where
  | running | completed | failed | info
deriving DecidableEq

namespace Status

def name : Status → String
  | running => "running"
  | completed => "completed"
  | failed => "failed"
  | info => "info"

def all : List Status := [running, completed, failed, info]

def ofName? (s : String) : Option Status := all.find? (·.name = s)

theorem ofName?_name (s : Status) : ofName? s.name = some s := by
  cases s <;> decide

end Status

structure Record where
  processId : String
  workflowId : String
  /-- The workflow of the node, if it is another. -/
  subprocessId : Option String
  sequence : Nat
  nodeId : String
  nodeType : String
  status : Status
  message : String
  data : Json
  vars : Keyed String
  createdAt : Instant
deriving DecidableEq

def textsJson (m : Keyed String) : Json := .obj (m.map Json.str).entries

def Record.toJson (r : Record) : Json :=
  .object ([
    ("processId", .str r.processId),
    ("workflowId", .str r.workflowId),
    ("sequence", .nat r.sequence),
    ("nodeId", .str r.nodeId),
    ("nodeType", .str r.nodeType),
    ("status", .str r.status.name),
    ("message", .str r.message),
    ("data", r.data),
    ("variables", textsJson r.vars),
    ("createdAt", .str r.createdAt.shown)] ++
    match r.subprocessId with
    | some id => [("subprocessId", .str id)]
    | none => [])

end FlowGraph.Run
