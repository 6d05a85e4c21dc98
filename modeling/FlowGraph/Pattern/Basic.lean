import FlowGraph.Pattern.Reader
import FlowGraph.Pattern.Search

namespace FlowGraph

structure Pattern where
  program : Pattern.Program
  groups : Nat
  names : List (String × Nat)

namespace Pattern

def compile? (s : String) : Option Pattern :=
  match Reader.read s with
  | some (e, groups, names) =>
    if Size.ofExpr e ≤ Size.limit then some ⟨Program.ofExpr e, groups, names⟩ else none
  | none => none

abbrev Match := Slots

def Match.group? (m : Match) (i : Nat) : Option (Nat × Nat) :=
  match m[2 * i]?, m[2 * i + 1]? with
  | some (some a), some (some b) => some (a, b)
  | _, _ => none

def Match.span (m : Match) : Nat × Nat := (m.group? 0).getD (0, 0)

def searchFrom (p : Pattern) (text : Array Char) (place : Nat) : Option Match :=
  if text.size < place then none
  else
    let fuel := 3 * (p.program.steps.size + 1) * (text.size + 2)
    Search.leftmost p.program text (Array.replicate (2 * p.groups + 2) none) fuel
      (text.size - place) place ∅

def nextMatch (p : Pattern) (text : Array Char) (place : Nat) (last : Option Nat) :
    Option Match :=
  match p.searchFrom text place with
  | some m =>
    if m.span.1 = m.span.2 ∧ last = some m.span.2 then p.searchFrom text (place + 1) else some m
  | none => none

def matchesFrom (p : Pattern) (text : Array Char) : (fuel : Nat) → (place : Nat) →
    (last : Option Nat) → List Match
  | 0, _, _ => []
  | fuel + 1, place, last =>
    match p.nextMatch text place last with
    | some m => m :: matchesFrom p text fuel m.span.2 (some m.span.2)
    | none => []

def matchesIn (p : Pattern) (text : Array Char) : List Match :=
  p.matchesFrom text (text.size + 2) 0 none

def cut (text : Array Char) (a b : Nat) : List Char := (text.extract a b).toList

def findAll (p : Pattern) (s : String) : List String :=
  let text := s.toList.toArray
  (p.matchesIn text).map fun m => String.ofList (cut text m.span.1 m.span.2)

inductive Part where
  | text (s : List Char)
  | number (i : Nat)
  | name (s : String)
deriving DecidableEq

def isNameChar (c : Char) : Bool := c.isAlphanum || c = '_'

def reference (name : List Char) : Part :=
  let digits := match name with
    | '+' :: r => r
    | r => r
  let n := Decimal.digitsValue digits
  if digits ≠ [] ∧ digits.all Char.isDigit ∧ n < Nat.pow 2 64 then .number n
  else .name (String.ofList name)

def parts : (fuel : Nat) → List Char → List Part
  | 0, _ => []
  | _, [] => []
  | fuel + 1, '$' :: '$' :: r => .text ['$'] :: parts fuel r
  | fuel + 1, '$' :: '{' :: r =>
    let name := r.takeWhile (· ≠ '}')
    match r.drop name.length with
    | _ :: rest => reference name :: parts fuel rest
    | [] => .text ['$'] :: parts fuel ('{' :: r)
  | fuel + 1, '$' :: r =>
    let name := r.takeWhile isNameChar
    if name = [] then .text ['$'] :: parts fuel r
    else reference name :: parts fuel (r.drop name.length)
  | fuel + 1, c :: r => .text [c] :: parts fuel r

def Part.expand (p : Pattern) (text : Array Char) (m : Match) : Part → List Char
  | .text s => s
  | .number i => group i
  | .name s => ((p.names.lookup s).map group).getD []
where
  group (i : Nat) : List Char :=
    match m.group? i with
    | some (a, b) => cut text a b
    | none => []

def replaceFrom (p : Pattern) (text : Array Char) (ps : List Part) : (place : Nat) →
    List Match → List Char
  | place, [] => cut text place text.size
  | place, m :: ms =>
    cut text place m.span.1 ++ ps.flatMap (Part.expand p text m) ++
      replaceFrom p text ps m.span.2 ms

def replaceAll (p : Pattern) (s replacement : String) : String :=
  let text := s.toList.toArray
  let ps := parts (replacement.length + 1) replacement.toList
  String.ofList (p.replaceFrom text ps 0 (p.matchesIn text))

end Pattern

end FlowGraph
