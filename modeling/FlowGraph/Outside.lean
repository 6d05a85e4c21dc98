import FlowGraph.Json.Basic

namespace FlowGraph

namespace Http

structure Request where
  method : String
  url : String
  headers : List (String × String)
  body : Option String
deriving DecidableEq

structure Reply where
  status : Nat
  headers : List (String × String)
  /-- The length of the body as far as the head tells it. -/
  declared : Option Nat
  /-- Nothing if the connection ends before the body does. -/
  body : Option ByteArray

end Http

structure Matcher where
  findAll : String → List String
  replaceAll : String → String → String

/-- What a run takes from outside of it, and what it has asked of that so far: the libraries that
compile a pattern or build a request, the servers, and a source of random numbers that may fail. -/
structure Outside where
  compile : (pattern : String) → Option Matcher
  build : (method url : String) → List (String × String) → Option Json → Option Http.Request
  reply : (before : List Http.Request) → Http.Request → Option Http.Reply
  random : Nat → Option Nat
  sent : List Http.Request
  drawn : Nat

namespace Outside

def send (o : Outside) (r : Http.Request) : Option Http.Reply × Outside :=
  (o.reply o.sent r, { o with sent := o.sent ++ [r] })

def draw (o : Outside) : Option Nat × Outside :=
  (o.random o.drawn, { o with drawn := o.drawn + 1 })

end Outside

end FlowGraph
