import FlowGraph.Decimal.Nearest
import FlowGraph.Scope
/-!
Text with placeholders in double braces. A template is cut into pieces at the leftmost braces; if
one placeholder is not closed or holds no legal name, the template stands for itself.
-/

namespace FlowGraph.Template

inductive Piece where
  | text (s : List Char)
  | name (s : String)
deriving DecidableEq

def isNameChar (c : Char) : Bool := c.isAlphanum || c = '_' || c = '.' || c = '-'

def name? (inner : List Char) : Option String :=
  let trimmed := Text.trim inner
  let name := match trimmed with
    | '.' :: r => r
    | r => r
  if name ≠ [] ∧ name.all isNameChar then some (String.ofList name) else none

def literal (s : List Char) : List Piece := if s = [] then [] else [.text s]

def pieces : (inside : Bool) → (acc : List Char) → List Char → Option (List Piece)
  | false, acc, [] => some (literal acc.reverse)
  | true, _, [] => none
  | false, acc, '{' :: '{' :: r => (pieces true [] r).map (literal acc.reverse ++ ·)
  | true, acc, '}' :: '}' :: r =>
    match name? acc.reverse with
    | some n => (pieces false [] r).map (.name n :: ·)
    | none => none
  | inside, acc, c :: r => pieces inside (c :: acc) r

def parse (t : String) : Option (List Piece) := pieces false [] t.toList

def cuts : List Char → List (List Char × List Char)
  | [] => []
  | c :: r =>
    let more := (cuts r).map fun (p, q) => (c :: p, q)
    if c = '.' then ([], r) :: more else more

def segments : List Char → List (List Char)
  | [] => [[]]
  | c :: r =>
    match segments r with
    | [] => [[c]]
    | s :: ss => if c = '.' then [] :: s :: ss else (c :: s) :: ss

def unsigned : List Char → List Char
  | '+' :: digits => digits
  | digits => digits

def position? (segment : List Char) : Option Nat :=
  let digits := unsigned segment
  if digits ≠ [] ∧ digits.all Char.isDigit then some (Decimal.digitsValue digits) else none

def step (v : Json) (segment : List Char) : Option Json :=
  match v with
  | .obj fields => Entries.get? (String.ofList segment) fields
  | .arr items => (position? segment).bind (items[·]?)
  | _ => none

def walk (root : Json) (path : List Char) : Option Json :=
  (segments path).foldlM step root

def lookup (scope : Scope) (extra : List (String × Json)) (name : String) : Option Json :=
  (Entries.get? name extra).or (scope.get? name)

/-- The name itself, else the longest bound name before a dot from which the rest can be walked. -/
def resolve (look : String → Option Json) (name : String) : Option Json :=
  (look name).or <|
    (cuts name.toList).reverse.findSome? fun (p, q) => (look (String.ofList p)).bind (walk · q)

def Piece.shown (look : String → Option Json) : Piece → String
  | .text s => String.ofList s
  | .name n => ((resolve look n).map Json.display).getD ""

def render (t : String) (scope : Scope) (extra : List (String × Json)) : String :=
  match parse t with
  | some ps => String.join (ps.map (Piece.shown (lookup scope extra)))
  | none => t

end FlowGraph.Template
