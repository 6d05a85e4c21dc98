import FlowGraph.Json.Text
import FlowGraph.Text.Quoted

namespace FlowGraph.Wire

inductive Error where
  | invalidType (found : Json) (expected : String)
  | invalidValue (found : Json) (expected : String)
  | invalidLength (length : Nat) (expected : String)
  | missingField (name : String)
  | duplicateField (name : String)
  | unknownVariant (name : String) (known : List String)
  | invalidNode (id type : String) (cause : Error)
  | other (message : String)

def Number.found : Number → String
  | .int i => "integer \x60" ++ (Number.int i).text ++ "\x60"
  | .float x => "floating point \x60" ++ (Number.float x).text ++ "\x60"

def found : Json → String
  | .null => "null"
  | .bool b => "boolean \x60" ++ (Json.bool b).compact ++ "\x60"
  | .num n => Number.found n
  | .str s => "string " ++ Text.Quoted.quote s
  | .arr _ => "sequence"
  | .obj _ => "map"

def oneOf (known : List String) : String :=
  match known.map fun k => "\x60" ++ k ++ "\x60" with
  | [] => "there are no variants"
  | [a] => "expected " ++ a
  | [a, b] => "expected " ++ a ++ " or " ++ b
  | ks => "expected one of " ++ ", ".intercalate ks

def Error.message : Error → String
  | .invalidType v expected => "invalid type: " ++ found v ++ ", expected " ++ expected
  | .invalidValue v expected => "invalid value: " ++ found v ++ ", expected " ++ expected
  | .invalidLength n expected => s!"invalid length {n}, expected {expected}"
  | .missingField name => "missing field \x60" ++ name ++ "\x60"
  | .duplicateField name => "duplicate field \x60" ++ name ++ "\x60"
  | .unknownVariant name known => "unknown variant \x60" ++ name ++ "\x60, " ++ oneOf known
  | .invalidNode id type cause => s!"node '{id}' ({type}) has invalid data: {cause.message}"
  | .other message => message

end FlowGraph.Wire
