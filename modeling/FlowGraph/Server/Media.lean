import FlowGraph.Http.Token

namespace FlowGraph.Server.Media

def parameter (cs : List Char) : Option (List Char) :=
  let cs := cs.dropWhile (· = ' ')
  let name := cs.takeWhile Http.isTokenChar
  match cs.drop name.length with
  | '=' :: '"' :: r =>
    match (r.dropWhile (· ≠ '"')).drop 1 |>.dropWhile (· = ' ') with
    | [] => if r.contains '"' ∧ name ≠ [] then some [] else none
    | ';' :: r => if name ≠ [] then some r else none
    | _ => none
  | '=' :: r =>
    let value := r.takeWhile Http.isTokenChar
    match r.drop value.length with
    | [] => if name ≠ [] then some [] else none
    | ';' :: r => if name ≠ [] ∧ value ≠ [] then some r else none
    | _ => none
  | _ => none

def parameters : (fuel : Nat) → List Char → Bool
  | 0, cs => cs.isEmpty
  | _, [] => true
  | fuel + 1, cs =>
    match parameter cs with
    | some r => parameters fuel r
    | none => false

def halves (subtype : List Char) : List (List Char) :=
  let after := (subtype.reverse.takeWhile (· ≠ '+')).reverse
  if after.length + 1 < subtype.length then
    [subtype.take (subtype.length - after.length - 1), after]
  else [subtype]

def lower (cs : List Char) : String := String.ofList (cs.map Char.toLower)

def isJson (s : String) : Bool :=
  let cs := s.toList
  let type := cs.takeWhile Http.isTokenChar
  match cs.drop type.length with
  | '/' :: r =>
    let subtype := r.takeWhile Http.isTokenChar
    let wellFormed := match r.drop subtype.length with
      | [] => true
      | ';' :: ps => ps ≠ [] && parameters ps.length ps
      | _ => false
    wellFormed && lower type = "application" && ((halves subtype).map lower).contains "json"
  | _ => false

end FlowGraph.Server.Media
