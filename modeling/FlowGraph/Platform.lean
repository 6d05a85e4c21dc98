import FlowGraph.Http.Token
import FlowGraph.Http.Url
import FlowGraph.Json.Text
import FlowGraph.Outside
import FlowGraph.Pattern.Basic
/-!
Patterns and requests as the program has them where no other library is at hand. Nothing is proved
of them: every statement about a run holds whatever they do.
-/

namespace FlowGraph.Platform

open Http

def isHeaderValue (s : String) : Bool :=
  s.toList.all fun c => c = '\t' || (0x20 ≤ c.toNat && c.toNat ≠ 0x7F)

def lowerName (s : String) : String := String.ofList (s.toList.map Char.toLower)

def contentType : String := "content-type"

def sentHeaders (headers : List (String × String)) (json : Bool) : List (String × String) :=
  let hs := headers.map fun (k, v) => (lowerName k, v)
  let all := if json ∧ !(hs.any (·.1 = contentType)) then (contentType, "application/json") :: hs
    else hs
  all.mergeSort fun a b => a.1 < b.1 || (a.1 = b.1 && a.2 ≤ b.2)

def build (method url : String) (headers : List (String × String)) (body : Option Json) :
    Option Request :=
  if Url.accepted url ∧ headers.all fun (k, v) => isToken k && isHeaderValue v then
    some ⟨method, Url.withPath url, sentHeaders headers body.isSome, body.map Json.compact⟩
  else none

def compile (pattern : String) : Option Matcher :=
  (Pattern.compile? pattern).map fun p => ⟨p.findAll, p.replaceAll⟩

def outside (reply : List Request → Request → Option Reply) (random : Nat → Option Nat) : Outside :=
  ⟨compile, build, reply, random, [], 0⟩

def alone (random : Nat → Option Nat) : Outside := outside (fun _ _ => none) random

end FlowGraph.Platform
