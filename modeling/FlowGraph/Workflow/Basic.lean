import FlowGraph.Json.Basic

namespace FlowGraph

def entryId : String := "0"

structure KeyValue where
  key : String
  value : String
deriving DecidableEq

inductive TimeUnit where
  | seconds | minutes | hours | days
deriving DecidableEq

def TimeUnit.inSeconds : TimeUnit → Nat
  | .seconds => 1
  | .minutes => 60
  | .hours => 60 * 60
  | .days => 24 * 60 * 60

structure Interval where
  length : Nat
  unit : TimeUnit
  weekdays : List Bool
deriving DecidableEq

namespace Interval

def maxSeconds : Nat := Nat.pow 2 64 - 1

def period? (t : Interval) : Option Nat :=
  if t.length = 0 then none else some (min (t.length * t.unit.inSeconds) maxSeconds)

/-- Days that are not listed are enabled. -/
def runsOn (t : Interval) (day : Nat) : Bool := t.weekdays[day]?.getD true

end Interval

inductive ItemType where
  | string | int | bool | keyValue
deriving DecidableEq

structure TypedList where
  type : ItemType
  strings : List String
  ints : List Int
  bools : List Bool
  keyValues : List KeyValue
deriving DecidableEq

def KeyValue.toJson (kv : KeyValue) : Json :=
  .object [("key", .str kv.key), ("value", .str kv.value)]

def TypedList.items (l : TypedList) : List Json :=
  match l.type with
  | .string => l.strings.map .str
  | .int => l.ints.map .int
  | .bool => l.bools.map .bool
  | .keyValue => l.keyValues.map KeyValue.toJson

structure ApiCall where
  method : String
  url : String
  headers : List KeyValue
  payload : String
  into : String
deriving DecidableEq

structure Replacement where
  source : String
  pattern : String
  replacement : String
  into : String
deriving DecidableEq

inductive NodeKind where
  | plain
  | interval (trigger : Interval)
  | webhook
  | events
  | setVariable (name : String) (value : Json)
  | text (message into : String)
  | condition (expression : String)
  | list (into : String) (items : TypedList)
  | loop (iterations : Nat)
  | forEach (listVariable : String)
  | whileHolds (expression : String) (limit : Nat)
  | api (call : ApiCall)
  | log (message : String)
  | getGuid (into : String)
  | math (expression into : String)
  | count (listVariable into : String)
  | map (listVariable template into : String)
  | replace (what : Replacement)
  | findAll (source pattern into : String)
  | subprocess (workflow : String)
  | unknown (type : String) (data : Json)
deriving DecidableEq

def NodeKind.type : NodeKind → String
  | .plain => "defaultnode"
  | .interval _ => "interval"
  | .webhook => "webhook"
  | .events => "events"
  | .setVariable .. => "setVariable"
  | .text .. => "text"
  | .condition _ => "condition"
  | .list .. => "list"
  | .loop _ => "loop"
  | .forEach _ => "foreach"
  | .whileHolds .. => "while"
  | .api _ => "api"
  | .log _ => "log"
  | .getGuid _ => "getGuid"
  | .math .. => "math"
  | .count .. => "count"
  | .map .. => "map"
  | .replace _ => "replace"
  | .findAll .. => "findAll"
  | .subprocess _ => "subprocess"
  | .unknown type _ => type

structure Node where
  id : String
  label : String
  kind : NodeKind
deriving DecidableEq

structure Edge where
  id : String
  source : String
  handle : String
  target : String
deriving DecidableEq

structure Workflow where
  id : String
  name : String
  description : String
  nodes : List Node
  edges : List Edge
deriving DecidableEq

inductive Branch where
  | all
  | handle (name : String)
  | default
deriving DecidableEq

namespace Branch

def body : Branch := handle "output"

def onTrue : Branch := handle "True"
def onFalse : Branch := handle "False"

def accepts : Branch → String → Bool
  | all, _ => true
  | handle name, h => name = h
  | default, h => h = ""

def describe : Branch → String
  | all => "*"
  | handle name => name
  | default => "default"

end Branch

end FlowGraph
