import FlowGraph.Server.Basic

namespace FlowGraph

inductive Skip where
  | workflowMissing | notIntervalTriggered | weekdayDisabled | windowClaimed
deriving DecidableEq

/-- A claim ends a little before its window, so that the next tick may come early. -/
def markerSlack : Nat := 500

def claimTime (period : Nat) : Nat :=
  if markerSlack ≤ 1000 * period then 1000 * period - markerSlack else 1000 * period

namespace Server

def claim (id : String) (weekday : Nat) (now : Int) (s : Server) : Except Skip Graph × Server :=
  match s.registry.get? id with
  | none => (.error .workflowMissing, s)
  | some g =>
    match g.interval? with
    | none => (.error .notIntervalTriggered, s)
    | some t =>
      match t.period? with
      | none => (.error .notIntervalTriggered, s)
      | some p =>
        if t.runsOn weekday then
          let (won, markers) := s.store.markers.claim id now (claimTime p)
          let s := { s with store := { s.store with markers := markers } }
          (if won then .ok g else .error .windowClaimed, s)
        else (.error .weekdayDisabled, s)

def fire (H : Host) (id : String) (weekday : Nat) (now : Int) (s : Server) :
    Except Skip (Option Finished) × Server :=
  match s.claim id weekday now with
  | (.error why, s) => (.error why, s)
  | (.ok g, s) =>
    let (f, s) := s.perform H g id .interval .initial
    (.ok f, s)

def tick (H : Host) (id : String) (weekday : Nat) (now : Int) (s : Server) : Server :=
  match s.fire H id weekday now with
  | (.ok (some f), s) => s.keep f.records
  | (_, s) => s

end Server

end FlowGraph
