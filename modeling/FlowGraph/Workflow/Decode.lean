import FlowGraph.Wire.Form
import FlowGraph.Workflow.Encode

namespace FlowGraph

open Wire Wire.Field

def KeyValue.ofJson (v : Json) : Decoded KeyValue := do
  let s ← slots "KeyValue" [required "key" Wire.text, required "value" Wire.text] v
  return ⟨← s.need "key" Wire.text, ← s.need "value" Wire.text⟩

def TimeUnit.ofJson : Json → Decoded TimeUnit :=
  choice [("seconds", .seconds), ("minutes", .minutes), ("hours", .hours), ("days", .days)]

def ItemType.ofJson : Json → Decoded ItemType :=
  choice [("STRING", .string), ("string", .string), ("INT", .int), ("int", .int),
    ("BOOL", .bool), ("bool", .bool), ("KEYVALUE", .keyValue), ("keyValue", .keyValue)]

def Interval.everyDay : List Bool := List.replicate 7 true

def Interval.ofJson (v : Json) : Decoded Interval := do
  let s ← slots "IntervalData" [
    required "interval" unsigned64,
    (required "intervalType" TimeUnit.ofJson).known "type",
    optionally "weeks" (list boolean)] v
  return ⟨← s.need "interval" unsigned64, ← s.need "intervalType" TimeUnit.ofJson,
    ← s.getD "weeks" (list boolean) everyDay⟩

def TypedList.ofJson (v : Json) : Decoded TypedList := do
  let s ← slots "TypedList" [
    required "type" ItemType.ofJson,
    optionally "stringItems" (list Wire.text),
    optionally "intItems" (list signed64),
    optionally "boolItems" (list boolean),
    optionally "keyValueItems" (list KeyValue.ofJson)] v
  return ⟨← s.need "type" ItemType.ofJson, ← s.getD "stringItems" (list Wire.text) [],
    ← s.getD "intItems" (list signed64) [], ← s.getD "boolItems" (list boolean) [],
    ← s.getD "keyValueItems" (list KeyValue.ofJson) []⟩

def ApiCall.ofJson (v : Json) : Decoded ApiCall := do
  let s ← slots "ApiData" [
    required "method" Wire.text,
    required "url" Wire.text,
    optionally "headers" (list KeyValue.ofJson),
    optionally "payload" Wire.text,
    required "variable" Wire.text] v
  return ⟨← s.need "method" Wire.text, ← s.need "url" Wire.text,
    ← s.getD "headers" (list KeyValue.ofJson) [], ← s.getD "payload" Wire.text "",
    ← s.need "variable" Wire.text⟩

def Replacement.ofJson (v : Json) : Decoded Replacement := do
  let s ← slots "ReplaceData" [
    required "text" Wire.text,
    required "pattern" Wire.text,
    optionally "replaceText" Wire.text,
    required "variable" Wire.text] v
  return ⟨← s.need "text" Wire.text, ← s.need "pattern" Wire.text,
    ← s.getD "replaceText" Wire.text "", ← s.need "variable" Wire.text⟩

namespace NodeKind

def texts (title : String) (names : List String) (v : Json) : Decoded Slots :=
  slots title (names.map (required · Wire.text)) v

def decoder? : String → Option (Json → Decoded NodeKind)
  | "defaultnode" | "default" => some fun _ => return .plain
  | "webhook" => some fun _ => return .webhook
  | "events" => some fun _ => return .events
  | "interval" => some fun v => return .interval (← Interval.ofJson v)
  | "setVariable" => some fun v => do
    let s ← slots "SetVariableData" [required "name" Wire.text, optionally "value" json] v
    return .setVariable (← s.need "name" Wire.text) (← s.getD "value" json .null)
  | "text" => some fun v => do
    let s ← slots "TextData" [optionally "message" Wire.text, required "variable" Wire.text] v
    return .text (← s.getD "message" Wire.text "") (← s.need "variable" Wire.text)
  | "condition" => some fun v => do
    let s ← slots "ConditionData" [optionally "expression" Wire.text] v
    return .condition (← s.getD "expression" Wire.text "")
  | "list" => some fun v => do
    let s ← slots "ListData" [required "variable" Wire.text, required "list" TypedList.ofJson] v
    return .list (← s.need "variable" Wire.text) (← s.need "list" TypedList.ofJson)
  | "loop" => some fun v => do
    let s ← slots "LoopData" [required "iteration" unsigned32] v
    return .loop (← s.need "iteration" unsigned32)
  | "foreach" => some fun v => do
    let s ← slots "ForEachData" [(required "listVariable" Wire.text).known "listvar"] v
    return .forEach (← s.need "listVariable" Wire.text)
  | "while" => some fun v => do
    let s ← slots "WhileData" [required "expression" Wire.text, required "limit" unsigned32] v
    return .whileHolds (← s.need "expression" Wire.text) (← s.need "limit" unsigned32)
  | "api" => some fun v => return .api (← ApiCall.ofJson v)
  | "log" => some fun v => do
    let s ← slots "LogData" [optionally "message" Wire.text] v
    return .log (← s.getD "message" Wire.text "")
  | "getGuid" => some fun v => do
    let s ← texts "GuidData" ["variable"] v
    return .getGuid (← s.need "variable" Wire.text)
  | "math" => some fun v => do
    let s ← texts "MathData" ["expression", "variable"] v
    return .math (← s.need "expression" Wire.text) (← s.need "variable" Wire.text)
  | "count" => some fun v => do
    let s ← texts "CountData" ["listVariable", "variable"] v
    return .count (← s.need "listVariable" Wire.text) (← s.need "variable" Wire.text)
  | "map" => some fun v => do
    let s ← texts "MapData" ["listVariable", "template", "variable"] v
    return .map (← s.need "listVariable" Wire.text) (← s.need "template" Wire.text)
      (← s.need "variable" Wire.text)
  | "replace" => some fun v => return .replace (← Replacement.ofJson v)
  | "findAll" => some fun v => do
    let s ← texts "FindAllData" ["text", "pattern", "variable"] v
    return .findAll (← s.need "text" Wire.text) (← s.need "pattern" Wire.text)
      (← s.need "variable" Wire.text)
  | "subprocess" => some fun v => do
    let s ← texts "SubProcessData" ["subProcessId"] v
    return .subprocess (← s.need "subProcessId" Wire.text)
  | _ => none

/-- The data of a known type may be left out, as if it were an object without fields. -/
def ofData (type : String) (data : Json) : Decoded NodeKind :=
  match decoder? type with
  | some decode => decode (if data = .null then .emptyObject else data)
  | none => .ok (.unknown type data)

end NodeKind

def Node.fields : List Field := [
  required "id" Wire.text,
  (required "type" Wire.text).known "nodetype",
  optionally "label" Wire.text,
  optionally "data" json]

def Node.ofJson (v : Json) : Decoded Node := do
  let s ← slots "RawNode" Node.fields v
  let id ← s.need "id" Wire.text
  let type ← s.need "type" Wire.text
  let label ← s.getD "label" Wire.text ""
  match NodeKind.ofData type (← s.getD "data" json .null) with
  | .ok kind => return ⟨id, label, kind⟩
  | .error e => .error (.invalidNode id type e)

def Node.shape : Shape := .ofRecord Node.fields [.text, .text, .text, .value] Node.ofJson

def Edge.fields : List Field := [
  optionally "id" Wire.text,
  required "source" Wire.text,
  (optionally "sourceHandle" Wire.text).known "sourcehandle",
  required "target" Wire.text]

def Edge.ofJson (v : Json) : Decoded Edge := do
  let s ← slots "Edge" Edge.fields v
  return ⟨← s.getD "id" Wire.text "", ← s.need "source" Wire.text,
    ← s.getD "sourceHandle" Wire.text "", ← s.need "target" Wire.text⟩

def Edge.shape : Shape := .ofRecord Edge.fields [.text, .text, .text, .text] Edge.ofJson

def Workflow.fields : List Field := [
  required "id" Wire.text,
  required "name" Wire.text,
  optionally "description" Wire.text,
  required "nodes" (list Node.ofJson),
  required "edges" (list Edge.ofJson)]

def Workflow.ofJson (v : Json) : Decoded Workflow := do
  let s ← slots "Workflow" Workflow.fields v
  return ⟨← s.need "id" Wire.text, ← s.need "name" Wire.text,
    ← s.getD "description" Wire.text "", ← s.need "nodes" (list Node.ofJson),
    ← s.need "edges" (list Edge.ofJson)⟩

def Workflow.shape : Shape :=
  .ofRecord Workflow.fields [.text, .text, .text, .list Node.shape, .list Edge.shape]
    Workflow.ofJson

end FlowGraph
