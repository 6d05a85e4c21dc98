import FlowGraph.Json.Text

namespace FlowGraph

def Number.display : Number → String
  | .int i => (Number.int i).text
  | .float x =>
    match Decimal.parts x with
    | .zero _ => "0"
    | _ => Decimal.plain x

namespace Json

def display : Json → String
  | null => ""
  | bool true => "true"
  | bool false => "false"
  | num n => n.display
  | str s => s
  | arr items => (arr items).compact
  | obj fields => (obj fields).compact

def kind : Json → String
  | null => "null"
  | bool _ => "a boolean"
  | num _ => "a number"
  | str _ => "a string"
  | arr _ => "a list"
  | obj _ => "an object"

end Json

end FlowGraph
