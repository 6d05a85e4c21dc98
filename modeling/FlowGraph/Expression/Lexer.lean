import FlowGraph.Expression.Error
import FlowGraph.Decimal.Nearest

namespace FlowGraph.Expression

def isBlank (c : Char) : Bool :=
  c = ' ' || c = '\t' || c = '\n' || c = '\r' || c = '\x0c'

def isNameStart (c : Char) : Bool := c = '_' || c.isAlpha

def isNameChar (c : Char) : Bool := c = '_' || c.isAlphanum

/-- What stands for itself between double quotes and what a backslash changes. The count is of
all characters up to and with the closing quote. -/
def quoted : List Char → Option (List Char × Nat)
  | [] => none
  | '"' :: _ => some ([], 1)
  | ['\\'] => none
  | '\\' :: c :: r =>
    (quoted r).map fun (s, n) => match c with
      | 'n' => ('\n' :: s, n + 2)
      | 't' => ('\t' :: s, n + 2)
      | 'r' => ('\r' :: s, n + 2)
      | '"' => ('"' :: s, n + 2)
      | '\\' => ('\\' :: s, n + 2)
      | c => ('\\' :: c :: s, n + 2)
  | c :: r => (quoted r).map fun (s, n) => (c :: s, n + 1)

def raw (r : List Char) : Option (List Char × Nat) :=
  let s := r.takeWhile (· ≠ '\x60')
  if s.length < r.length then some (s, s.length + 1) else none

structure Numeral where
  whole : List Char
  point : Bool
  fraction : List Char
  exponent : List Char

namespace Numeral

def exponentOf : List Char → List Char
  | c :: r =>
    if c = 'e' ∨ c = 'E' then
      match r with
      | s :: r' =>
        if s = '+' ∨ s = '-' then
          let ds := r'.takeWhile Char.isDigit
          if ds = [] then [] else c :: s :: ds
        else
          let ds := r.takeWhile Char.isDigit
          if ds = [] then [] else c :: ds
      | [] => []
    else []
  | [] => []

def ofText (cs : List Char) : Numeral :=
  let whole := cs.takeWhile Char.isDigit
  match cs.dropWhile Char.isDigit with
  | '.' :: r =>
    ⟨whole, true, r.takeWhile Char.isDigit, exponentOf (r.dropWhile Char.isDigit)⟩
  | r => ⟨whole, false, [], exponentOf r⟩

def chars (n : Numeral) : List Char :=
  n.whole ++ (if n.point then '.' :: n.fraction else []) ++ n.exponent

def power (n : Numeral) : Int :=
  match n.exponent with
  | _ :: '-' :: ds => -(Decimal.digitsValue ds : Int)
  | _ :: '+' :: ds => Decimal.digitsValue ds
  | _ :: ds => Decimal.digitsValue ds
  | [] => 0

def value? (n : Numeral) : Option Float :=
  if n.whole = [] ∧ n.fraction = [] then none
  else some (Decimal.ofParts n.whole n.fraction n.power)

end Numeral

def lexeme (offset : Nat) (c : Char) (r : List Char) : Except Error (Token × Nat) :=
  match c with
  | '+' => .ok (.op .add, 0)
  | '-' => .ok (.op .sub, 0)
  | '*' => .ok (.op .mul, 0)
  | '/' => .ok (.op .div, 0)
  | '%' => .ok (.op .rem, 0)
  | '(' => .ok (.lparen, 0)
  | ')' => .ok (.rparen, 0)
  | '=' => if r.head? = some '=' then .ok (.op .eq, 1) else .error (.unexpectedChar c offset)
  | '!' => if r.head? = some '=' then .ok (.op .ne, 1) else .error (.unexpectedChar c offset)
  | '<' => if r.head? = some '=' then .ok (.op .le, 1) else .ok (.op .lt, 0)
  | '>' => if r.head? = some '=' then .ok (.op .ge, 1) else .ok (.op .gt, 0)
  | '"' => match quoted r with
    | some (s, n) => .ok (.str (String.ofList s), n)
    | none => .error (.unterminatedString offset)
  | '\x60' => match raw r with
    | some (s, n) => .ok (.str (String.ofList s), n)
    | none => .error (.unterminatedString offset)
  | c =>
    if c.isDigit ∨ c = '.' then
      let n := Numeral.ofText (c :: r)
      match n.value? with
      | some x => .ok (.number x, n.chars.length - 1)
      | none => .error (.invalidNumber (String.ofList n.chars))
    else if isNameStart c then
      let name := r.takeWhile isNameChar
      .ok (.ident (String.ofList (c :: name)), name.length)
    else .error (.unexpectedChar c offset)

/-- `pending` characters still belong to the token before. -/
def scan (offset pending : Nat) : List Char → Except Error (List Placed)
  | [] => .ok []
  | c :: r =>
    match pending with
    | n + 1 => scan (offset + c.utf8Size) n r
    | 0 =>
      if isBlank c then scan (offset + c.utf8Size) 0 r
      else do
        let (token, n) ← lexeme offset c r
        let rest ← scan (offset + c.utf8Size) n r
        return ⟨token, offset⟩ :: rest

def tokenize (s : String) : Except Error (List Placed) := scan 0 0 s.toList

end FlowGraph.Expression
