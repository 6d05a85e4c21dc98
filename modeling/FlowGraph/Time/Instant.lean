import FlowGraph.Time.Date
/-!
Points in time, to the nanosecond, and how they are written. A second that is added to a day is
held as the one before it with more than 10 ^ 9 nanoseconds.
-/

namespace FlowGraph

def nanosPerSecond : Nat := 1000000000

def secondsPerDay : Nat := 86400

structure TimeOfDay where
  hour : Nat
  minute : Nat
  second : Nat
  nanos : Nat
  legal : hour < 24 ∧ minute < 60 ∧ second < 60 ∧ nanos < 2 * nanosPerSecond
deriving DecidableEq

namespace TimeOfDay

def of? (hour minute second nanos : Nat) : Option TimeOfDay :=
  if second = 60 then build hour minute 59 (nanos + nanosPerSecond)
  else build hour minute second nanos
where
  build (hour minute second nanos : Nat) : Option TimeOfDay :=
    if h : hour < 24 ∧ minute < 60 ∧ second < 60 ∧ nanos < 2 * nanosPerSecond then
      some ⟨hour, minute, second, nanos, h⟩
    else none

def seconds (t : TimeOfDay) : Nat := 3600 * t.hour + 60 * t.minute + t.second

def moved (t : TimeOfDay) (seconds : Nat) : TimeOfDay :=
  ⟨seconds / 3600 % 24, seconds / 60 % 60, seconds % 60, t.nanos, by have := t.legal; omega⟩

end TimeOfDay

structure Instant where
  date : Date
  time : TimeOfDay
deriving DecidableEq

namespace Instant

def ofLocal (d : Date) (t : TimeOfDay) (offset : Int) : Instant :=
  let s : Int := t.seconds - offset
  if s < 0 then ⟨d.previous, t.moved (s + secondsPerDay).toNat⟩
  else if s < secondsPerDay then ⟨d, t.moved s.toNat⟩
  else ⟨d.next, t.moved (s - secondsPerDay).toNat⟩

def padded (width n : Nat) : String :=
  let ds := toString n
  "".pushn '0' (width - ds.length) ++ ds

def yearText (y : Int) : String :=
  if 0 ≤ y ∧ y ≤ 9999 then padded 4 y.toNat
  else (if y < 0 then "-" else "+") ++ padded 4 y.natAbs

def fractionText (nanos : Nat) : String :=
  if nanos = 0 then ""
  else if nanos % 1000000 = 0 then "." ++ padded 3 (nanos / 1000000)
  else if nanos % 1000 = 0 then "." ++ padded 6 (nanos / 1000)
  else "." ++ padded 9 nanos

def dateText (d : Date) : String :=
  yearText d.year ++ "-" ++ padded 2 d.month ++ "-" ++ padded 2 d.day

def timeText (t : TimeOfDay) : String :=
  padded 2 t.hour ++ ":" ++ padded 2 t.minute ++ ":" ++
    padded 2 (t.second + t.nanos / nanosPerSecond)

def text (zone : String) (i : Instant) : String :=
  dateText i.date ++ "T" ++ timeText i.time ++ fractionText (i.time.nanos % nanosPerSecond) ++ zone

def shown : Instant → String := text "Z"

def kept : Instant → String := text "+00:00"

def stamp (i : Instant) : String := dateText i.date ++ " " ++ timeText i.time

end Instant

end FlowGraph
