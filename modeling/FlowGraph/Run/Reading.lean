import FlowGraph.Run.Record
import FlowGraph.Time.Reading
import FlowGraph.Wire.Decode

namespace FlowGraph.Run

open Wire Wire.Field

def Status.ofJson : Json → Decoded Status :=
  choice (Status.all.map fun s => (s.name, s))

def optionalText : Json → Decoded (Option String)
  | .null => .ok none
  | v => (Wire.text v).map some

def instant (v : Json) : Decoded Instant := do
  match Instant.readLoosely? (← Wire.text v) with
  | some i => return i
  | none => .error (.other "input is not a point in time")

def textMap (v : Json) : Decoded (Keyed String) := do
  let entries ← (← Wire.map v).mapM fun (k, x) => do return (k, ← Wire.text x)
  return Keyed.ofList entries

def Record.ofJson (v : Json) : Decoded Record := do
  let s ← slots "ReplayRecord" [
    required "processId" Wire.text,
    required "workflowId" Wire.text,
    optionally "subprocessId" optionalText,
    required "sequence" unsigned64,
    required "nodeId" Wire.text,
    required "nodeType" Wire.text,
    required "status" Status.ofJson,
    required "message" Wire.text,
    required "data" json,
    required "variables" textMap,
    required "createdAt" instant] v
  return {
    processId := ← s.need "processId" Wire.text
    workflowId := ← s.need "workflowId" Wire.text
    subprocessId := ← s.getD "subprocessId" optionalText none
    sequence := ← s.need "sequence" unsigned64
    nodeId := ← s.need "nodeId" Wire.text
    nodeType := ← s.need "nodeType" Wire.text
    status := ← s.need "status" Status.ofJson
    message := ← s.need "message" Wire.text
    data := ← s.need "data" json
    vars := ← s.need "variables" textMap
    createdAt := ← s.need "createdAt" instant }

end FlowGraph.Run
