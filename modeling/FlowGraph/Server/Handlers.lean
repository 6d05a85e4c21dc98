import FlowGraph.Server.Basic
import FlowGraph.Server.Message
import FlowGraph.Server.Route
import FlowGraph.Steps
/-!
How a server answers each kind of request. A handler reads and changes the state in steps, each a
single use of the store, the registry or the jobs, so that handlers of several requests can be
under way together.
-/

namespace FlowGraph.Server

/-- Ends with a reply; without one if a run was not followed to its end. -/
abbrev Handler := ExceptT (Option Reply) (Steps Server)

namespace Handler

variable {α : Type}

def step (act : Server → α × Server) : Handler α := ExceptT.lift (.atomically act)

def read (f : Server → α) : Handler α := ExceptT.lift (.reading f)

def change (f : Server → Server) : Handler Unit := ExceptT.lift (.changing f)

def refuse (r : Reply) : Handler α := throw (some r)

def orRefuse {ε : Type} (reply : ε → Reply) : Except ε α → Handler α
  | .ok a => pure a
  | .error e => refuse (reply e)

end Handler

open Handler

def pathText (raw : String) : Handler String :=
  match Text.Percent.decode? raw with
  | some s => pure s
  | none => refuse (.bare 400)

def queryText (r : Request) (name : String) : Handler (Option String) :=
  match Http.queryValue? r.query name with
  | some v => pure v
  | none => refuse (.bare 400)

def body {α : Type} (r : Request) (form : Wire.Form α) : Handler α :=
  orRefuse .bare (r.decoded form)

def workflowBody : Wire.Form Workflow :=
  .ofRecord "CreateWorkflowRequest" [(.required "workflow" Workflow.ofJson, Workflow.shape)]
    fun s => s.need "workflow" Workflow.ofJson

def variablesBody : Wire.Form (List (String × Json)) :=
  .ofRecord "RunRequest" [(.optionally "variables" Wire.map, .map)]
    fun s => s.getD "variables" Wire.map []

def quickRunBody : Wire.Form (Workflow × List (String × Json)) :=
  .ofRecord "QuickRunRequest" [(.required "workflow" Workflow.ofJson, Workflow.shape),
      (.optionally "variables" Wire.map, .map)]
    fun s => return (← s.need "workflow" Workflow.ofJson, ← s.getD "variables" Wire.map [])

def compiled (w : Workflow) : Handler Graph :=
  orRefuse (fun f => .problem 400 f.message) (Graph.compile w)

def notFound (id : String) : Reply := .problem 404 s!"workflow '{id}' not found"

def stored (id : String) : Handler (Option Workflow) := do
  orRefuse (fun _ => .problem 500 "storage error") (← read (·.store.definitions.find id))

def saveDefinition (H : Host) (w : Workflow) : Handler Unit :=
  change fun s =>
    let (t, s) := s.now H
    { s with store := { s.store with definitions := s.store.definitions.save w t } }

/-- Makes the newest registry that is known, with one more workflow, the one in use. -/
def publish (g : Graph) : Handler Unit := do
  let known ← read (·.registry)
  change fun s => { s with registry := known.publish g }

def withdraw (id : String) : Handler Unit := do
  let known ← read (·.registry)
  if known.contains id then change fun s => { s with registry := known.erase id }

def reload (id : String) : Handler Graph := do
  let failed := Reply.problem 500 "failed to load workflow"
  match ← orRefuse (fun _ => failed) (← read (·.store.definitions.find id)) with
  | none => refuse failed
  | some w =>
    let g ← orRefuse (fun _ => failed) (Graph.compile w)
    publish g
    return g

def unschedule (id : String) : Handler Unit := change fun s => { s with jobs := s.jobs.erase id }

def reschedule (g : Graph) : Handler Unit := do
  unschedule g.id
  if let some p := g.period? then change fun s => { s with jobs := s.jobs.put g.id p }

def activate (H : Host) (w : Workflow) : Handler Graph := do
  let _ ← compiled w
  saveDefinition H w
  let g ← reload w.id
  reschedule g
  return g

def activated (g : Graph) (verb : String) : Reply :=
  .ok (.object [("id", .str g.id),
    ("message", .str s!"Workflow '{g.workflow.name}' {verb} successfully")])

def createWorkflow (H : Host) (r : Request) : Handler Reply := do
  let w ← body r workflowBody
  if w.id = "" ∨ w.name = "" then refuse (.problem 400 "workflow id and name are required")
  if (← stored w.id).isSome then refuse (.problem 409 s!"workflow '{w.id}' already exists")
  return activated (← activate H w) "created"

def updateWorkflow (H : Host) (rawId : String) (r : Request) : Handler Reply := do
  let id ← pathText rawId
  let w := { ← body r workflowBody with id := id }
  if w.name = "" then refuse (.problem 400 "workflow name is required")
  if (← stored id).isNone then refuse (notFound id)
  return activated (← activate H w) "updated"

def listWorkflows : Handler Reply := do
  let rows ← read (·.store.definitions.newestFirst)
  return .ok (.object [("workflows", .arr (rows.map fun (id, d) =>
    .object [("id", .str id), ("name", .str d.name), ("created_at", .str d.createdAt.stamp),
      ("updated_at", .str d.updatedAt.stamp)]))])

def getWorkflow (rawId : String) : Handler Reply := do
  let id ← pathText rawId
  match ← orRefuse (fun _ => .bare 500) (← read (·.store.definitions.find id)) with
  | some w => return .ok w.toJson
  | none => refuse (.bare 404)

def deleteDefinition (id : String) : Handler Bool :=
  step fun s => (s.store.definitions.contains id,
    { s with store := { s.store with definitions := s.store.definitions.erase id } })

def clearMarker (id : String) : Handler Unit :=
  change fun s => { s with store := { s.store with markers := s.store.markers.clear id } }

def deleteWorkflow (rawId : String) : Handler Reply := do
  let id ← pathText rawId
  unschedule id
  withdraw id
  if ← deleteDefinition id then
    clearMarker id
    return .message "Workflow deleted successfully"
  else refuse (.bare 404)

def finished (H : Host) (g : Graph) (id : String) (trigger : Run.Trigger) (scope : Scope) :
    Handler Reply := do
  match ← step (Server.execute H g id trigger scope) with
  | some r => return ⟨if r.succeeded then 200 else 422, .json r.toJson⟩
  | none => throw none

/-- Without a content type the body does not count. -/
def runWorkflow (H : Host) (rawId : String) (r : Request) : Handler Reply := do
  let id ← pathText rawId
  let vars ← if r.contentType.isSome then body r variablesBody else pure []
  match ← read (·.registry.get? id) with
  | some g => finished H g id .manual (Scope.initial.bindAll vars)
  | none => refuse (notFound id)

def quickRun (H : Host) (r : Request) : Handler Reply := do
  let (w, vars) ← body r quickRunBody
  let g ← compiled w
  finished H g g.id .manual (Scope.initial.bindAll vars)

def payload (r : Request) : Handler Json :=
  if r.tooLong then refuse (.bare 413) else pure ((Json.parse r.body).getD (.str r.body))

def runWebhook (H : Host) (rawId : String) (r : Request) : Handler Reply := do
  let id ← pathText rawId
  let input ← payload r
  match ← read (·.registry.get? id) with
  | none => refuse (notFound id)
  | some g =>
    if g.isWebhook then finished H g id .webhook (.ofInput input)
    else refuse (.problem 404 s!"workflow '{id}' has no webhook trigger")

def listHistory (r : Request) : Handler Reply := do
  let workflowId ← queryText r "workflowId"
  let runs ← orRefuse (fun _ => .bare 500)
    (← read fun s => s.store.replay.history s.store.definitions workflowId)
  return .ok (.object [("runs", .arr (runs.map (·.toJson)))])

def getReplay (rawId : String) : Handler Reply := do
  let id ← pathText rawId
  match ← orRefuse (fun _ => .bare 500) (← read (·.store.replay.records id)) with
  | [] => refuse (.bare 404)
  | records => return .ok (.arr (records.map (·.toJson)))

def openFeed : Handler Reply := refuse (.bare 400)

def respondTo (H : Host) (r : Request) : Route → Handler Reply
  | .health => match r.method with
    | "GET" => return ⟨200, .text "ok"⟩
    | _ => refuse (.bare 405)
  | .workflows => match r.method with
    | "GET" => listWorkflows
    | "POST" => createWorkflow H r
    | _ => refuse (.bare 405)
  | .workflow id => match r.method with
    | "GET" => getWorkflow id
    | "PUT" => updateWorkflow H id r
    | "DELETE" => deleteWorkflow id
    | _ => refuse (.bare 405)
  | .runOf id => match r.method with
    | "POST" => runWorkflow H id r
    | _ => refuse (.bare 405)
  | .quickRun => match r.method with
    | "POST" => quickRun H r
    | _ => refuse (.bare 405)
  | .webhook id => match r.method with
    | "POST" => runWebhook H id r
    | _ => refuse (.bare 405)
  | .history => match r.method with
    | "GET" => listHistory r
    | _ => refuse (.bare 405)
  | .replay id => match r.method with
    | "GET" => getReplay id
    | _ => refuse (.bare 405)
  | .live => match r.method with
    | "GET" => openFeed
    | _ => refuse (.bare 405)

def Reply.withoutContent (r : Reply) : Reply := { r with content := .nothing }

def respond (H : Host) (r : Request) : Handler Reply :=
  match Route.ofPath? r.path with
  | none => refuse (.bare 404)
  | some route =>
    if r.method = "HEAD" ∧ route ≠ .live then
      ((·.withoutContent) <$> respondTo H { r with method := "GET" } route).adapt
        (·.map (·.withoutContent))
    else respondTo H r route

def handle (H : Host) (r : Request) (s : Server) : Option Reply × Server :=
  match (respond H r).run.run s with
  | (.ok reply, s) => (some reply, s)
  | (.error reply, s) => (reply, s)

end FlowGraph.Server
