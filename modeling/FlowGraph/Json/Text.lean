import FlowGraph.Json.Basic
import FlowGraph.Decimal.Shortest

namespace FlowGraph

namespace Number

def floatText (x : Float) : List Char :=
  match Decimal.parts x with
  | .notANumber | .infinite _ => ['n', 'u', 'l', 'l']
  | .zero true => ['-', '0', '.', '0']
  | .zero false => ['0', '.', '0']
  | .finite sign b =>
    let s := Decimal.shortest .toEven b
    let ds := s.chars
    let p := s.point
    (if sign then ['-'] else []) ++
    if -5 < p ∧ p ≤ 16 then
      Decimal.positional ds p ++ if ds.length ≤ p then ['.', '0'] else []
    else
      ds.take 1 ++ (if ds.length = 1 then [] else '.' :: ds.drop 1) ++
      'e' :: (if p ≤ 0 then '-' else '+') :: Nat.toDigits 10 (p - 1).natAbs

def chars : Number → List Char
  | .int i => if i < 0 then '-' :: Nat.toDigits 10 i.natAbs else Nat.toDigits 10 i.natAbs
  | .float x => floatText x

def text (n : Number) : String := String.ofList n.chars

end Number

namespace Json

def hexDigit (n : Nat) : Char := (Nat.digitChar n)

def escaped (c : Char) (rest : List Char) : List Char :=
  match c with
  | '"' => '\\' :: '"' :: rest
  | '\\' => '\\' :: '\\' :: rest
  | '\x08' => '\\' :: 'b' :: rest
  | '\t' => '\\' :: 't' :: rest
  | '\n' => '\\' :: 'n' :: rest
  | '\x0c' => '\\' :: 'f' :: rest
  | '\r' => '\\' :: 'r' :: rest
  | c =>
    if c.toNat < 32 then
      '\\' :: 'u' :: '0' :: '0' :: hexDigit (c.toNat / 16) :: hexDigit (c.toNat % 16) :: rest
    else c :: rest

def quoted (s : String) (rest : List Char) : List Char :=
  '"' :: s.toList.foldr escaped ('"' :: rest)

mutual

def emit : Json → List Char → List Char
  | null, t => 'n' :: 'u' :: 'l' :: 'l' :: t
  | bool true, t => 't' :: 'r' :: 'u' :: 'e' :: t
  | bool false, t => 'f' :: 'a' :: 'l' :: 's' :: 'e' :: t
  | num n, t => n.chars ++ t
  | str s, t => quoted s t
  | arr items, t => '[' :: emitItems items (']' :: t)
  | obj fields, t => '{' :: emitFields fields ('}' :: t)

def emitItems : List Json → List Char → List Char
  | [], t => t
  | [x], t => emit x t
  | x :: y :: xs, t => emit x (',' :: emitItems (y :: xs) t)

def emitFields : List (String × Json) → List Char → List Char
  | [], t => t
  | [(k, x)], t => quoted k (':' :: emit x t)
  | (k, x) :: y :: xs, t => quoted k (':' :: emit x (',' :: emitFields (y :: xs) t))

end

def compact (v : Json) : String := String.ofList (v.emit [])

end Json

end FlowGraph
