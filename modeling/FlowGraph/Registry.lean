import FlowGraph.Store.Definitions
import FlowGraph.Workflow.Graph

namespace FlowGraph

abbrev Registry := Keyed Graph

namespace Registry

def publish (r : Registry) (g : Graph) : Registry := r.put g.id g

def ofDefinitions (t : Store.Definitions) : Except Store.Fault Registry := do
  return (← t.workflows).filterMap fun w => (Graph.compile w).toOption

def withInterval (r : Registry) : Registry := r.filterMap fun g => g.interval?.map fun _ => g

end Registry

abbrev Jobs := Keyed Nat

def Graph.period? (g : Graph) : Option Nat := g.interval?.bind (·.period?)

namespace Jobs

def schedule (j : Jobs) (g : Graph) : Jobs :=
  match g.period? with
  | some p => (j.erase g.id).put g.id p
  | none => j.erase g.id

def scheduleAll (j : Jobs) (r : Registry) : Jobs :=
  (r.withInterval.entries.map (·.2)).foldl schedule j

end Jobs

end FlowGraph
