import FlowGraph.Decimal.Nearest
import FlowGraph.Text.Blank
import FlowGraph.Time.Instant

namespace FlowGraph.Instant.Reading

abbrev Scan := StateT (List Char) Option

def refuse {α : Type} : Scan α := fun _ => none

def take : Scan Char
  | [] => none
  | c :: r => some (c, r)

def exactly (c : Char) : Scan Unit := do if (← take) ≠ c then refuse

def skip (p : Char → Bool) : Scan Unit := fun cs => some ((), cs.dropWhile p)

def blanks : Scan Unit := skip Text.isBlank

def number (least most : Nat) : Scan Nat := fun cs =>
  let ds := (cs.takeWhile Char.isDigit).take most
  if least ≤ ds.length then some (Decimal.digitsValue ds, cs.drop ds.length) else none

def fraction : Scan Nat := fun cs =>
  match cs with
  | '.' :: r =>
    let ds := r.takeWhile Char.isDigit
    if ds = [] then none
    else
      let kept := ds.take 9
      some (Decimal.digitsValue kept * Nat.pow 10 (9 - kept.length), r.drop ds.length)
  | cs => some (0, cs)

def separator : Scan Unit := do
  let c ← take
  if c ≠ 'T' ∧ c ≠ 't' ∧ c ≠ ' ' then refuse

def pair (bound : Nat) : Scan Nat := do
  let n ← number 2 2
  if 10 * bound ≤ n then refuse
  return n

def offset (between : Scan Unit) : Scan Int := do
  let c ← take
  if c = 'Z' ∨ c = 'z' then return 0
  if c ≠ '+' ∧ c ≠ '-' ∧ c ≠ '\u2212' then refuse
  let hours ← pair 10
  between
  let minutes ← pair 6
  let s : Int := 3600 * hours + 60 * minutes
  if secondsPerDay ≤ s then refuse
  return if c = '+' then s else -s

def ofOption {α : Type} : Option α → Scan α
  | some a => pure a
  | none => refuse

def strict : Scan Instant := do
  let y ← number 4 4
  exactly '-'
  let m ← number 2 2
  exactly '-'
  let d ← number 2 2
  separator
  let hour ← number 2 2
  exactly ':'
  let minute ← number 2 2
  exactly ':'
  let second ← number 2 2
  let nanos ← fraction
  let zone ← offset (exactly ':')
  let date ← ofOption (Date.of? y m d)
  let time ← ofOption (TimeOfDay.of? hour minute second nanos)
  return .ofLocal date time zone

def looseYear : Scan Int := do
  blanks
  match (← get).head? with
  | some '-' => do
    let _ ← take
    return -(← signed)
  | some '+' => do
    let _ ← take
    signed
  | _ => do
    let n ← number 1 4
    return n
where
  signed : Scan Int := do
    let n ← number 1 (← get).length
    return n

def loosePart : Scan Nat := do
  blanks
  number 1 2

def looseSign (c : Char) : Scan Unit := do
  blanks
  exactly c

def looseZone : Scan Int := do
  blanks
  match ← get with
  | a :: b :: c :: r =>
    if [a.toLower, b.toLower, c.toLower] = ['u', 't', 'c'] then
      set r
      return 0
    else offset (skip fun c => c = ':' || Text.isBlank c)
  | _ => offset (skip fun c => c = ':' || Text.isBlank c)

def earliestYear : Int := -262143
def latestYear : Int := 262142

def inRange (d : Date) : Bool := earliestYear ≤ d.year && d.year ≤ latestYear

def loose : Scan Instant := do
  let y ← looseYear
  looseSign '-'
  let m ← loosePart
  looseSign '-'
  let d ← loosePart
  separator
  let hour ← loosePart
  looseSign ':'
  let minute ← loosePart
  looseSign ':'
  let second ← loosePart
  let nanos ← fraction
  let zone ← looseZone
  blanks
  let d ← ofOption (Date.of? y m d)
  let i := Instant.ofLocal d (← ofOption (TimeOfDay.of? hour minute second nanos)) zone
  if inRange d && inRange i.date then return i else refuse

def whole {α : Type} (p : Scan α) (s : String) : Option α :=
  match p s.toList with
  | some (a, []) => some a
  | _ => none

end Reading

def read? (s : String) : Option Instant := Reading.whole Reading.strict s

def readLoosely? (s : String) : Option Instant := Reading.whole Reading.loose s

end FlowGraph.Instant
