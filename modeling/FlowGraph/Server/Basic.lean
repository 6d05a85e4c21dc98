import FlowGraph.Registry
import FlowGraph.Run.Engine
import FlowGraph.Server.Feed
import FlowGraph.Store.Basic

namespace FlowGraph

structure Host where
  clock : Nat → Instant
  processId : Nat → String
  /-- How far a run is followed. -/
  fuel : Nat

structure Server where
  store : Store
  registry : Registry
  jobs : Jobs
  feeds : Keyed Feed
  outside : Outside
  runs : Nat
  readings : Nat

namespace Server

def start (outside : Outside) : Server :=
  ⟨.empty, .empty, .empty, .empty, outside, 0, 0⟩

def now (H : Host) (s : Server) : Instant × Server :=
  (H.clock s.readings, { s with readings := s.readings + 1 })

def context (H : Host) (s : Server) (workflowId : String) (trigger : Run.Trigger)
    (scope : Scope) : Run.Context :=
  .start (H.processId s.runs) workflowId trigger scope s.outside (H.clock s.readings)

def engine (H : Host) (s : Server) : Run.Engine :=
  ⟨s.registry.get?, fun n => H.clock (s.readings + 1 + n)⟩

structure Finished where
  result : Run.Result
  records : List Run.Record

def perform (H : Host) (g : Graph) (workflowId : String) (trigger : Run.Trigger)
    (scope : Scope) (s : Server) : Option Finished × Server :=
  match (s.engine H).run H.fuel g (s.context H workflowId trigger scope) with
  | none => (none, s)
  | some (r, c) =>
    (some ⟨r, c.trace.toList⟩, { s with
      outside := c.outside
      runs := s.runs + 1
      readings := s.readings + c.trace.size + 2 })

def keep (records : List Run.Record) (s : Server) : Server :=
  { s with
    store := { s.store with replay := s.store.replay.insertAll records }
    feeds := s.feeds.map (·.deliver records) }

def execute (H : Host) (g : Graph) (workflowId : String) (trigger : Run.Trigger)
    (scope : Scope) (s : Server) : Option Run.Result × Server :=
  match s.perform H g workflowId trigger scope with
  | (some f, s) => (some f.result, s.keep f.records)
  | (none, s) => (none, s)

def subscribe (name : String) (processId : Option String) (s : Server) : Server :=
  { s with feeds := s.feeds.put name (.start processId) }

def receive (name : String) (s : Server) : Option (List Run.Record) × Server :=
  match s.feeds.get? name with
  | some f => (some f.pending, { s with feeds := s.feeds.put name f.received })
  | none => (none, s)

def unsubscribe (name : String) (s : Server) : Bool × Server :=
  (s.feeds.contains name, { s with feeds := s.feeds.erase name })

end Server

end FlowGraph
