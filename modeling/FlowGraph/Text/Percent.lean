import FlowGraph.Text.Bytes
import FlowGraph.Text.Hexadecimal

namespace FlowGraph.Text.Percent

def bytes : List Char → List Nat
  | [] => []
  | '%' :: a :: b :: r =>
    match hexValue? a, hexValue? b with
    | some x, some y => (16 * x + y) :: bytes r
    | _, _ => bytesOf '%' ++ bytes (a :: b :: r)
  | c :: r => bytesOf c ++ bytes r

def decode? (s : String) : Option String := ofBytes? (bytes s.toList)

def decode (cs : List Char) : String := ofBytes (bytes cs)

end FlowGraph.Text.Percent
