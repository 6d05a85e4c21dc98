import FlowGraph.Json.Passing
import FlowGraph.Wire.Decode
/-!
Decoding a text as it is read. What a form has no field for is passed over, and a value of another
form is refused where it begins, whatever comes after it.
-/

namespace FlowGraph.Wire

open Json.Reading (skip)

inductive Refusal where
  | notJson
  | otherForm
deriving DecidableEq

inductive Shape where
  | value
  | text
  | map
  | list (item : Shape)
  | record (fields : List (Field × Shape)) (accepts : Json → Bool)

def Shape.ofRecord {α : Type} (fields : List Field) (shapes : List Shape)
    (decode : Json → Decoded α) : Shape :=
  .record (fields.zip shapes) fun v => (decode v).toBool

namespace Shape

def orNotJson {α : Type} : Option α → Except Refusal α
  | some a => .ok a
  | none => .error .notJson

def fuel (cs : List Char) : Nat := 2 * cs.length + 2

def whole (room : Nat) (cs : List Char) : Except Refusal (Json × List Char) :=
  orNotJson (Json.Reading.value room (fuel cs) cs)

def passed (cs : List Char) : Except Refusal (List Char) :=
  orNotJson (Json.Passing.value (fuel cs) cs)

def refused (room : Nat) : List Char → Except Refusal (Json × List Char)
  | '[' :: _ | '{' :: _ => .error .otherForm
  | cs => do
    let _ ← whole room cs
    .error .otherForm

def opened {α : Type} (close : Char) (last more : List Char → Except Refusal (α × List Char))
    (cs : List Char) : Except Refusal (α × List Char) :=
  match skip cs with
  | c :: r => if c = close then last r else more (c :: r)
  | [] => more []

def continued {α : Type} (close : Char) (last more : List Char → Except Refusal (α × List Char))
    (cs : List Char) : Except Refusal (α × List Char) :=
  match skip cs with
  | ',' :: r => more r
  | c :: r => if c = close then last r else .error .notJson
  | [] => .error .notJson

def nothing {α : Type} (r : List Char) : Except Refusal (List α × List Char) := .ok ([], r)

/-- The last fields of a record that is written by places may be missing if they are optional. -/
def complete (fields : List (Field × Shape)) (r : List Char) :
    Except Refusal (List Json × List Char) :=
  if fields.all (·.1.optional) then .ok ([], r) else .error .otherForm

def entry (k : String) (known : Option Shape)
    (readAs : Shape → List Char → Except Refusal (Json × List Char)) (cs : List Char) :
    Except Refusal (List (String × Json) × List Char) :=
  match skip cs, known with
  | ':' :: r, some shape => do
    let (x, r) ← readAs shape r
    return ([(k, x)], r)
  | ':' :: r, none => do
    let r ← passed r
    return ([], r)
  | _, _ => .error .notJson

mutual

def read : (fuel room : Nat) → Shape → List Char → Except Refusal (Json × List Char)
  | 0, _, _, _ => .error .notJson
  | fuel + 1, room, shape, cs =>
    match shape, skip cs with
    | .value, cs => whole room cs
    | .text, '"' :: r => whole room ('"' :: r)
    | .map, '{' :: r => whole room ('{' :: r)
    | .list item, '[' :: r =>
      match room with
      | 0 => .error .notJson
      | room + 1 => do
        let (xs, r) ← opened ']' nothing (readItems fuel room item) r
        return (.arr xs, r)
    | .record fields accepts, '[' :: r =>
      match room with
      | 0 => .error .notJson
      | room + 1 => do
        let (xs, r) ← opened ']' (complete fields) (readPlaced fuel room fields) r
        if accepts (.arr xs) then .ok (.arr xs, r) else .error .otherForm
    | .record fields accepts, '{' :: r =>
      match room with
      | 0 => .error .notJson
      | room + 1 => do
        let (xs, r) ← opened '}' nothing (readFields fuel room fields []) r
        if accepts (.obj xs) then .ok (.obj xs, r) else .error .otherForm
    | _, cs => refused room cs
termination_by structural fuel => fuel

def readItems : (fuel room : Nat) → Shape → List Char →
    Except Refusal (List Json × List Char)
  | 0, _, _, _ => .error .notJson
  | fuel + 1, room, item, cs => do
    let (x, r) ← read fuel room item cs
    let (xs, r) ← continued ']' nothing (readItems fuel room item) r
    return (x :: xs, r)

def readPlaced : (fuel room : Nat) → List (Field × Shape) → List Char →
    Except Refusal (List Json × List Char)
  | 0, _, _, _ => .error .notJson
  | _ + 1, _, [], _ => .error .notJson
  | fuel + 1, room, (_, shape) :: fields, cs => do
    let (x, r) ← read fuel room shape cs
    let (xs, r) ← continued ']' (complete fields) (readPlaced fuel room fields) r
    return (x :: xs, r)

def readFields : (fuel room : Nat) → List (Field × Shape) → (seen : List String) →
    List Char → Except Refusal (List (String × Json) × List Char)
  | 0, _, _, _, _ => .error .notJson
  | fuel + 1, room, fields, seen, cs =>
    match skip cs with
    | '"' :: r => do
      let (k, r) ← orNotJson (Json.Reading.string [] r)
      let known := fields.find? (·.1.answersTo k)
      if known.any (·.1.name ∈ seen) then .error .otherForm
      else do
        let (x, r) ← entry k (known.map (·.2)) (read fuel room) r
        let seen := (known.map (·.1.name)).toList ++ seen
        let (xs, r) ← continued '}' nothing (readFields fuel room fields seen) r
        return (x ++ xs, r)
    | _ => .error .notJson

end

end Shape

structure Form (α : Type) where
  shape : Shape
  decode : Json → Decoded α

namespace Form

def ofRecord {α : Type} (title : String) (fields : List (Field × Shape))
    (decode : Slots → Decoded α) : Form α where
  shape := .record fields fun _ => true
  decode v := slots title (fields.map (·.1)) v >>= decode

def read {α : Type} (F : Form α) (s : String) : Except Refusal α := do
  let cs := s.toList
  let (v, r) ← Shape.read (Shape.fuel cs) Json.maxNesting F.shape cs
  match F.decode v, skip r with
  | .error _, _ => .error .otherForm
  | .ok a, [] => .ok a
  | .ok _, _ => .error .notJson

end Form

end FlowGraph.Wire
