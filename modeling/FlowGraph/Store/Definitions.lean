import FlowGraph.Json.Reading
import FlowGraph.Store.Column
import FlowGraph.Store.Fault
import FlowGraph.Time.Instant
import FlowGraph.Workflow.Decode

namespace FlowGraph.Store

structure Definition where
  name : String
  text : Option String
  createdAt : Instant
  updatedAt : Instant
deriving DecidableEq

def workflowOf (text : String) : Except Fault Workflow :=
  match (Json.asWritten? text).map Workflow.ofJson with
  | some (.ok w) => .ok w
  | _ => .error .badJson

def Definition.workflow (d : Definition) : Except Fault Workflow :=
  match d.text with
  | some t => workflowOf t
  | none => .error .notText

abbrev Definitions := Keyed Definition

namespace Definitions

def save (t : Definitions) (w : Workflow) (now : Instant) : Definitions :=
  let createdAt := ((t.get? w.id).map (·.createdAt)).getD now
  t.put w.id ⟨w.name, textKept w.toJson.compact, createdAt, now⟩

def add (t : Definitions) (id : String) (d : Definition) : Except Fault Definitions :=
  if t.contains id then .error .taken else .ok (t.put id d)

def find (t : Definitions) (id : String) : Except Fault (Option Workflow) :=
  match t.get? id with
  | some d => d.workflow.map some
  | none => .ok none

/-- Of rows that were changed in the same second the one with the lesser id comes first. -/
def newestFirst (t : Definitions) : List (String × Definition) :=
  t.entries.mergeSort fun a b => b.2.updatedAt.stamp ≤ a.2.updatedAt.stamp

def workflows (t : Definitions) : Except Fault (Keyed Workflow) :=
  if t.entries.all (·.2.text.isSome) then .ok (t.filterMap (·.workflow.toOption))
  else .error .notText

end Definitions

end FlowGraph.Store
