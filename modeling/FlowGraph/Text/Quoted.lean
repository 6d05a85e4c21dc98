import FlowGraph.Text.Category
import FlowGraph.Text.Property

namespace FlowGraph.Text.Quoted

def isPrintable (c : Char) : Bool :=
  match Category.ofChar c with
  | .cc | .cf | .cn | .co | .cs | .zl | .zp => false
  | .zs => c = ' '
  | _ => true

def byCode (c : Char) : List Char := ['\\', 'u', '{'] ++ Nat.toDigits 16 c.toNat ++ ['}']

def escaped : Char → List Char
  | '\x00' => ['\\', '0']
  | '\t' => ['\\', 't']
  | '\r' => ['\\', 'r']
  | '\n' => ['\\', 'n']
  | '\\' => ['\\', '\\']
  | '"' => ['\\', '"']
  | c =>
    if c.toNat < 0x7F ∧ 0x20 ≤ c.toNat then [c]
    else if Property.graphemeExtend.contains c.toNat then byCode c
    else if isPrintable c then [c]
    else byCode c

def quote (s : String) : String := String.ofList ('"' :: s.toList.flatMap escaped ++ ['"'])

end FlowGraph.Text.Quoted
