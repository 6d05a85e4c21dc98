/-!
Columns for JSON text. Such a column turns a decimal numeral into a number, so that its text is
lost; all other text is kept as it is.
-/

namespace FlowGraph.Store

def isSpace (c : Char) : Bool :=
  c = ' ' || (9 ≤ c.toNat && c.toNat ≤ 13)

def digitsOff (cs : List Char) : Bool × List Char :=
  let r := cs.dropWhile Char.isDigit
  (r.length < cs.length, r)

def signOff : List Char → List Char
  | '-' :: r | '+' :: r => r
  | r => r

def exponentOff : List Char → Option (List Char)
  | 'e' :: r | 'E' :: r =>
    match digitsOff (signOff r) with
    | (true, r) => some r
    | (false, _) => none
  | r => some r

def isNumeral (s : String) : Bool :=
  let (whole, r) := digitsOff (signOff (s.toList.dropWhile isSpace))
  let (fraction, r) := match r with
    | '.' :: r => digitsOff r
    | r => (false, r)
  (whole || fraction) && (exponentOff r).any fun r => r.all isSpace

def textKept (s : String) : Option String := if isNumeral s then none else some s

end FlowGraph.Store
