import FlowGraph.Json.Display
import FlowGraph.Text.Blank
/-!
The variables of a run. Each node finds the last result under `input` and `current` and leaves
its own under `output`.
-/

namespace FlowGraph

structure Scope where
  vars : Keyed Json
deriving DecidableEq

namespace Scope

inductive Fault where
  | blankName
  | notAList (name kind : String)
  | listNotFound (name : String)
deriving DecidableEq

def Fault.message : Fault → String
  | .blankName => "variable name is empty"
  | .notAList name kind => s!"variable '{name}' is {kind}, not a list"
  | .listNotFound name => s!"list variable '{name}' not found"

def inputName : String := "input"
def outputName : String := "output"
def currentName : String := "current"

def get? (s : Scope) (name : String) : Option Json := s.vars.get? name

def bind (s : Scope) (name : String) (v : Json) : Scope := ⟨s.vars.put name v⟩

def set (s : Scope) (name : String) (v : Json) : Except Fault Scope :=
  if Text.blank name then .error .blankName else .ok (s.bind name v)

def ofInput (payload : Json) : Scope :=
  bind (bind ⟨.empty⟩ inputName payload) outputName payload

def initial : Scope := ofInput (.str "")

def input (s : Scope) : Option Json := s.get? inputName

def output (s : Scope) : Option Json := s.get? outputName

def setOutput (s : Scope) (v : Json) : Scope := s.bind outputName v

def promote (s : Scope) : Scope :=
  let v := s.output.getD (.str "")
  (s.bind inputName v).bind currentName v

def list (s : Scope) (name : String) : Except Fault (List Json) :=
  match s.get? name with
  | some (.arr items) => .ok items
  | some v => .error (.notAList name v.kind)
  | none => .error (.listNotFound name)

def size (s : Scope) : Nat := s.vars.size

def values (s : Scope) : Json := .obj s.vars.entries

def texts (s : Scope) : Keyed String := s.vars.map Json.display

def ofEntries (es : List (String × Json)) : Scope := ⟨Keyed.ofList es⟩

def setAll (s : Scope) (es : List (String × Json)) : Scope :=
  es.foldl (fun s e => match s.set e.1 e.2 with | .ok t => t | .error _ => s) s

def bindAll (s : Scope) (es : List (String × Json)) : Scope :=
  es.foldl (fun s e => s.bind e.1 e.2) s

def toJson (s : Scope) : Json := .object [("vars", s.values)]

def ofJson? (v : Json) : Option Scope :=
  match v.field? "vars" with
  | some (.obj fields) => some (ofEntries fields)
  | _ => none

@[simp] theorem get?_bind (s : Scope) (name other : String) (v : Json) :
    (s.bind name v).get? other = if name = other then some v else s.get? other :=
  Keyed.get?_put s.vars name other v

end Scope

end FlowGraph
