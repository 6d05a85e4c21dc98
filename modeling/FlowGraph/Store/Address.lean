import FlowGraph.Http.Query

namespace FlowGraph.Store

inductive Place where
  | memory
  | file (path : String)
deriving DecidableEq

structure Address where
  place : Place
  makesDirectory : Bool
deriving DecidableEq

namespace Address

def withoutLead (lead : List Char) (cs : List Char) : Option (List Char) :=
  if lead.isPrefixOf cs then some (cs.drop lead.length) else none

def withoutLeads (lead : List Char) : (fuel : Nat) → List Char → List Char
  | 0, cs => cs
  | fuel + 1, cs =>
    match withoutLead lead cs with
    | some r => withoutLeads lead fuel r
    | none => cs

def scheme : List Char := "sqlite:".toList

def authority : List Char := "sqlite://".toList

def body (cs : List Char) : List Char :=
  withoutLeads scheme cs.length (withoutLeads authority cs.length cs)

def options : List (String × List String) := [
  ("mode", ["ro", "rw", "rwc", "memory"]),
  ("cache", ["private", "shared"]),
  ("immutable", ["true", "1", "false", "0"])]

def optionAllowed (option : String × String) : Bool :=
  option.1 = "vfs" || (options.lookup option.1).any (·.contains option.2)

def ofText? (s : String) : Option Address :=
  let rest := body s.toList
  let path := rest.takeWhile (· ≠ '?')
  let given := Http.queryPairs (String.ofList ((rest.dropWhile (· ≠ '?')).drop 1))
  if given.all optionAllowed then do
    let place ← if path = ":memory:".toList ∨ given.contains ("mode", "memory") then
        some Place.memory
      else (Text.Percent.decode? (String.ofList path)).map .file
    return ⟨place, (withoutLead authority s.toList).isSome⟩
  else none

def opens (a : Address) : Bool :=
  match a.place with
  | .memory => true
  | .file path => a.makesDirectory || !path.contains '/'

end Address

end FlowGraph.Store
