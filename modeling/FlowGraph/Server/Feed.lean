import FlowGraph.Run.Record

namespace FlowGraph

structure Feed where
  processId : Option String
  pending : List Run.Record
deriving DecidableEq

namespace Feed

def start (processId : Option String) : Feed := ⟨processId, []⟩

def wants (f : Feed) (r : Run.Record) : Bool := f.processId.all (· = r.processId)

def deliver (records : List Run.Record) (f : Feed) : Feed :=
  { f with pending := f.pending ++ records.filter f.wants }

def received (f : Feed) : Feed := { f with pending := [] }

end Feed

end FlowGraph
