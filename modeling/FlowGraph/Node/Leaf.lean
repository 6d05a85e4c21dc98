import FlowGraph.Expression.Evaluation
import FlowGraph.Http.Token
import FlowGraph.Json.Reading
import FlowGraph.Node.Error
import FlowGraph.Outside
import FlowGraph.Template
import FlowGraph.Text.Blank
import FlowGraph.Text.LetterCase
import FlowGraph.Workflow.Encode

namespace FlowGraph

structure Outcome where
  branch : Branch
  output : Option Json
  message : String
  snapshot : Option Json
deriving DecidableEq

structure Surroundings where
  scope : Scope
  outside : Outside

abbrev Act := ExceptT NodeError (StateM Surroundings)

namespace Leaf

def scopeNow : Act Scope := do return (← get).scope

def rendered (t : String) : Act String := do return Template.render t (← scopeNow) []

def ofScope {α : Type} : Except Scope.Fault α → Act α
  | .ok a => pure a
  | .error f => throw (.scope f)

def assign (name : String) (v : Json) : Act Unit := do
  let s ← ofScope ((← scopeNow).set name v)
  modify fun t => { t with scope := s }

def note (name : String) (v : Json) : Act Unit :=
  modify fun t => { t with scope := t.scope.bind name v }

def listNamed (name : String) : Act (List Json) := do ofScope ((← scopeNow).list name)

def passed (message : String) : Outcome := ⟨.all, none, message, none⟩

def stored (v : Json) (message : String) : Outcome := ⟨.all, some v, message, none⟩

def Outcome.showing (o : Outcome) (k : NodeKind) : Outcome := { o with snapshot := some k.data }

def setVariable (name : String) (v : Json) : Act Outcome := do
  assign name v
  return stored v s!"Variable {name} set"

def text (message into : String) : Act Outcome := do
  let message ← rendered message
  assign into (.str message)
  return Outcome.showing (stored (.str message) s!"Text stored in {into}") (.text message into)

def condition (expression : String) : Act Outcome := do
  let expression ← rendered expression
  if Text.blank expression then throw .emptyCondition
  let holds := match Expression.evaluateBoolean expression with
    | .ok b => b
    | .error _ => false
  let branch := if holds then Branch.onTrue else .onFalse
  return ⟨branch, some (.bool holds), s!"Condition evaluated to {branch.describe}",
    some (NodeKind.condition expression).data⟩

def list (into : String) (l : TypedList) : Act Outcome := do
  let v := Json.arr l.items
  assign into v
  return stored v s!"List stored in {into}"

def log (message : String) : Act Outcome := do
  let message ← rendered message
  return Outcome.showing (passed message) (.log message)

def fallbackGuid : String := "00000000-0000-0000-0000-000000000000"

def guid : Option Nat → String
  | some n =>
    String.ofList ((List.range 32).map fun i => Nat.digitChar (n / Nat.pow 16 (31 - i) % 16))
  | none => fallbackGuid

def getGuid (into : String) : Act Outcome := do
  let (drawn, outside) := (← get).outside.draw
  modify fun t => { t with outside := outside }
  let v := Json.str (guid drawn)
  assign into v
  return stored v s!"GUID stored in {into}"

def math (expression into : String) : Act Outcome := do
  let expression ← rendered expression
  match Expression.evaluateNumeric expression with
  | .error e => throw (.expression expression e)
  | .ok x =>
    assign into (.float x)
    return Outcome.showing (stored (.float x) s!"Result: {Decimal.plain x}")
      (.math expression into)

def count (listVariable into : String) : Act Outcome := do
  let n := (← listNamed listVariable).length
  assign into (.nat n)
  return stored (.nat n) s!"{listVariable} has {n} items"

def itemFields (item : Json) : List (String × Json) :=
  match item with
  | .obj fields => fields
  | .str s =>
    match Json.parse s with
    | some (.obj fields) => fields
    | _ => [("value", item)]
  | _ => [("value", item)]

def mapItem (template : String) (s : Scope) (item : Json) : Json :=
  let r := Template.render template s (itemFields item)
  (Json.parse r).getD (.str r)

def map (listVariable template into : String) : Act Outcome := do
  let items ← listNamed listVariable
  let s ← scopeNow
  let v := Json.arr (items.map (mapItem template s))
  assign into v
  return stored v s!"Mapped {items.length} items into {into}"

def pattern (p : String) : Act Matcher := do
  match (← get).outside.compile p with
  | some c => pure c
  | none => throw (.invalidPattern p)

def replace (r : Replacement) : Act Outcome := do
  let source ← rendered r.source
  let p ← rendered r.pattern
  let replacement ← rendered r.replacement
  let c ← pattern p
  let v := Json.str (c.replaceAll source replacement)
  assign r.into v
  return Outcome.showing (stored v s!"Replaced matches of {p} in {r.into}")
    (.replace ⟨source, p, replacement, r.into⟩)

def findAll (source p into : String) : Act Outcome := do
  let source ← rendered source
  let p ← rendered p
  let found := (← pattern p).findAll source
  let v := Json.strings found
  assign into v
  return Outcome.showing (stored v s!"Found {found.length} matches") (.findAll source p into)

def statusName : String := "api.status"
def headersName : String := "api.headers"
def lengthName : String := "api.length"
def bodyName : String := "api.body"

/-- A payload that is JSON, but not null, is sent as the body. -/
def payloadBody (payload : String) : Option Json :=
  match Json.parse payload with
  | some .null | none => none
  | some v => some v

def built (failed : HttpFault → NodeError) (method url : String) (headers : List KeyValue)
    (payload : String) : Act Http.Request := do
  match (← get).outside.build method url (headers.map fun h => (h.key, h.value))
      (payloadBody payload) with
  | some r => pure r
  | none => throw (failed .notBuilt)

def exchange (failed : HttpFault → NodeError) (r : Http.Request) : Act Http.Reply := do
  let (answer, outside) := (← get).outside.send r
  modify fun t => { t with outside := outside }
  match answer with
  | none => throw (failed .notAnswered)
  | some reply =>
    note statusName (.nat reply.status)
    note headersName (.object (reply.headers.map fun (k, v) => (k, .str v)))
    return reply

def bodyOf (failed : HttpFault → NodeError) (reply : Http.Reply) : Act Json := do
  match reply.body with
  | none => throw (failed .bodyCutShort)
  | some body =>
    note lengthName (.nat (reply.declared.getD body.size))
    match Json.ofBytes? body with
    | none => throw (failed .bodyNotJson)
    | some v =>
      note bodyName v
      return v

def api (c : ApiCall) : Act Outcome := do
  let url ← rendered c.url
  let payload ← rendered c.payload
  let method := Text.LetterCase.upperText (String.ofList (Text.trim c.method.toList))
  let failed := NodeError.http method url
  if !Http.isToken method then throw (failed (.invalidMethod c.method))
  let r ← built failed method url c.headers payload
  let reply ← exchange failed r
  let v ← bodyOf failed reply
  assign c.into v
  return Outcome.showing (stored v s!"API call returned status {reply.status}")
    (.api { c with url := url, payload := payload })

def execute (k : NodeKind) : Act Outcome :=
  match k with
  | .plain | .webhook | .events => return passed s!"{k.type} node passed"
  | .interval _ => return passed "Interval trigger fired"
  | .setVariable name v => setVariable name v
  | .text message into => text message into
  | .condition expression => condition expression
  | .list into l => list into l
  | .log message => log message
  | .getGuid into => getGuid into
  | .math expression into => math expression into
  | .count listVariable into => count listVariable into
  | .map listVariable template into => map listVariable template into
  | .replace r => replace r
  | .findAll source p into => findAll source p into
  | .api c => api c
  | .loop _ | .forEach _ | .whileHolds .. | .subprocess _ => throw (.notALeaf k.type)
  | .unknown type _ => throw (.unknownType type)

def perform (k : NodeKind) (t : Surroundings) : Except NodeError Outcome × Surroundings :=
  Id.run ((execute k).run t)

end Leaf

end FlowGraph
