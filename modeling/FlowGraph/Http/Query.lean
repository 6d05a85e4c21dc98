import FlowGraph.Text.Percent

namespace FlowGraph.Http

def splitAt (sep : Char) : List Char → List (List Char)
  | [] => [[]]
  | c :: r =>
    match splitAt sep r with
    | [] => [[c]]
    | s :: ss => if c = sep then [] :: s :: ss else (c :: s) :: ss

def queryText (cs : List Char) : String :=
  Text.Percent.decode (cs.map fun c => if c = '+' then ' ' else c)

def queryPairs (q : String) : List (String × String) :=
  ((splitAt '&' q.toList).filter (· ≠ [])).map fun part =>
    (queryText (part.takeWhile (· ≠ '=')), queryText ((part.dropWhile (· ≠ '=')).drop 1))

def queryValue? (q name : String) : Option (Option String) :=
  match (queryPairs q).filter (·.1 = name) with
  | [] => some none
  | [(_, v)] => some (some v)
  | _ => none

end FlowGraph.Http
