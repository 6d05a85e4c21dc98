import FlowGraph.Json.Basic
import FlowGraph.Decimal.Nearest

namespace FlowGraph

structure Settings where
  host : String
  port : Nat
  databaseUrl : String
  schedules : Bool
  feedCapacity : Nat
  logFilter : String
deriving DecidableEq

namespace Settings

def natural? (bound : Nat) (s : String) : Option Nat :=
  let ds := match s.toList with
    | '+' :: r => r
    | r => r
  let n := Decimal.digitsValue ds
  if ds ≠ [] ∧ ds.all Char.isDigit ∧ n < bound then some n else none

def boolean? : String → Option Bool
  | "true" => some true
  | "false" => some false
  | _ => none

def ofEnvironment (env : String → Option String) : Settings where
  host := (env "HOST").getD "0.0.0.0"
  port := ((env "PORT").bind (natural? (Nat.pow 2 16))).getD 8081
  databaseUrl := (env "DATABASE_URL").getD "sqlite://data/floowsynk.db"
  schedules := ((env "SCHEDULER").bind boolean?).getD true
  feedCapacity := ((env "AUDIT_CAPACITY").bind (natural? (Nat.pow 2 64))).getD 1024
  logFilter := (env "LOG").getD "info"

def inMemory : Settings :=
  ⟨"127.0.0.1", 0, "sqlite::memory:", false, 64, "info"⟩

def toJson (s : Settings) : Json :=
  .object [
    ("server", .object [("host", .str s.host), ("port", .nat s.port)]),
    ("database", .object [("url", .str s.databaseUrl)]),
    ("scheduler", .object [("enabled", .bool s.schedules)]),
    ("audit", .object [("live_capacity", .nat s.feedCapacity)]),
    ("log_filter", .str s.logFilter)]

end Settings

end FlowGraph
