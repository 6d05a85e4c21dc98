import FlowGraph.Json.Reading
import FlowGraph.Json.Text
import FlowGraph.Run.Reading
import FlowGraph.Store.Column
import FlowGraph.Store.Fault

namespace FlowGraph.Store

structure ReplayRow where
  processId : String
  sequence : Int
  workflowId : String
  subprocessId : Option String
  nodeId : String
  nodeType : String
  status : String
  message : String
  data : Option String
  vars : Option String
  createdAt : String
deriving DecidableEq

def wordSize : Nat := Nat.pow 2 64

def signed (n : Nat) : Int := Int.bmod n wordSize

def unsigned (i : Int) : Nat := (i % wordSize).toNat

theorem unsigned_signed {n : Nat} (h : n < wordSize) : unsigned (signed n) = n := by
  rw [unsigned, signed, Int.bmod_emod, ← Int.natCast_emod, Int.toNat_natCast, Nat.mod_eq_of_lt h]

def textOf : Option String → Except Fault String
  | some s => .ok s
  | none => .error .notText

def jsonOf (s : String) : Except Fault Json :=
  match Json.parse s with
  | some v => .ok v
  | none => .error .badJson

def textsOf (s : String) : Except Fault (Keyed String) :=
  match (Json.asWritten? s).map Run.textMap with
  | some (.ok m) => .ok m
  | _ => .error .badJson

def statusOf (s : String) : Except Fault Run.Status :=
  match Run.Status.ofName? s with
  | some st => .ok st
  | none => .error (.unknownStatus s)

def instantOf (s : String) : Except Fault Instant :=
  match Instant.read? s with
  | some i => .ok i
  | none => .error .badTime

namespace ReplayRow

def ofRecord (r : Run.Record) : ReplayRow where
  processId := r.processId
  sequence := signed r.sequence
  workflowId := r.workflowId
  subprocessId := r.subprocessId
  nodeId := r.nodeId
  nodeType := r.nodeType
  status := r.status.name
  message := r.message
  data := textKept r.data.compact
  vars := textKept (Run.textsJson r.vars).compact
  createdAt := r.createdAt.kept

def record (r : ReplayRow) : Except Fault Run.Record := do
  let data ← textOf r.data
  let vars ← textOf r.vars
  return {
    processId := r.processId
    workflowId := r.workflowId
    subprocessId := r.subprocessId
    sequence := unsigned r.sequence
    nodeId := r.nodeId
    nodeType := r.nodeType
    status := ← statusOf r.status
    message := r.message
    data := ← jsonOf data
    vars := ← textsOf vars
    createdAt := ← instantOf r.createdAt }

def sameKey (a b : ReplayRow) : Bool := a.processId = b.processId && a.sequence = b.sequence

end ReplayRow

abbrev Replay := List ReplayRow

namespace Replay

def add (t : Replay) (r : ReplayRow) : Except Fault Replay :=
  if t.any r.sameKey then .error .taken else .ok (r :: t)

def insert (t : Replay) (r : Run.Record) : Except Fault Replay := t.add (.ofRecord r)

def insertAll (t : Replay) (rs : List Run.Record) : Replay :=
  rs.foldl (fun t r => ((t.insert r).toOption).getD t) t

def records (t : Replay) (processId : String) : Except Fault (List Run.Record) :=
  let rows := t.filter (·.processId = processId)
  (rows.mergeSort fun a b => a.sequence ≤ b.sequence).mapM ReplayRow.record

end Replay

end FlowGraph.Store
