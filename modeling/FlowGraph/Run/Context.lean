import FlowGraph.Node.Leaf
import FlowGraph.Run.Record

namespace FlowGraph.Run

inductive Trigger where
  | manual | webhook | interval
deriving DecidableEq

def Trigger.name : Trigger → String
  | .manual => "manual"
  | .webhook => "webhook"
  | .interval => "interval"

structure Context extends Surroundings where
  processId : String
  /-- The workflow that was started. -/
  workflowId : String
  trigger : Trigger
  startedAt : Instant
  depth : Nat
  trace : Array Record
  sequence : Nat
  numbered : sequence = trace.size

namespace Context

def start (processId workflowId : String) (trigger : Trigger) (scope : Scope)
    (outside : Outside) (moment : Instant) : Context :=
  ⟨⟨scope, outside⟩, processId, workflowId, trigger, moment, 0, #[], 0, rfl⟩

def noted (c : Context) (r : Record) : Context :=
  { c with
    trace := c.trace.push r
    sequence := c.sequence + 1
    numbered := by rw [c.numbered, Array.size_push] }

@[simp] theorem noted_trace (c : Context) (r : Record) : (c.noted r).trace = c.trace.push r := rfl

end Context

structure Abort where
  workflowId : String
  nodeId : String
  cause : NodeError
deriving DecidableEq

structure Result where
  processId : String
  workflowId : String
  trigger : Trigger
  failure : Option Abort
  scope : Scope
  startedAt : Instant
  finishedAt : Instant
deriving DecidableEq

namespace Result

def succeeded (r : Result) : Bool := r.failure.isNone

def statusName (r : Result) : String := if r.succeeded then "succeeded" else "failed"

def vars (r : Result) : Keyed String := r.scope.texts

end Result

def Abort.toJson (a : Abort) : Json :=
  .object [("workflowId", .str a.workflowId), ("nodeId", .str a.nodeId),
    ("message", .str a.cause.message)]

def Result.toJson (r : Result) : Json :=
  .object ([
    ("processId", .str r.processId),
    ("workflowId", .str r.workflowId),
    ("trigger", .str r.trigger.name),
    ("status", .str r.statusName),
    ("variables", textsJson r.vars),
    ("startedAt", .str r.startedAt.shown),
    ("finishedAt", .str r.finishedAt.shown)] ++
    match r.failure with
    | some a => [("error", a.toJson)]
    | none => [])

end FlowGraph.Run
