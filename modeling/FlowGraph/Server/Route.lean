import FlowGraph.Http.Query

namespace FlowGraph.Server

inductive Route where
  | health
  | workflows
  | workflow (id : String)
  | runOf (id : String)
  | quickRun
  | webhook (id : String)
  | history
  | replay (processId : String)
  | live
deriving DecidableEq

namespace Route

def segments (path : String) : List String :=
  (Http.splitAt '/' path.toList).map String.ofList

def ofPath? (path : String) : Option Route :=
  match segments path with
  | ["", "healthz"] => some health
  | ["", "api", "workflows"] => some workflows
  | ["", "api", "workflows", id] => part id workflow
  | ["", "api", "workflows", id, "run"] => part id runOf
  | ["", "api", "run"] => some quickRun
  | ["", "api", "webhook", id] => part id webhook
  | ["", "api", "history"] => some history
  | ["", "api", "history", id] => part id replay
  | ["", "api", "runs", "live"] => some live
  | _ => none
where
  part (id : String) (f : String → Route) : Option Route := if id = "" then none else some (f id)

end Route

end FlowGraph.Server
