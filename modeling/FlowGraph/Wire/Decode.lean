import FlowGraph.Wire.Error
/-!
Decoding JSON values. A record is an object, whose fields may come under other names and may be
left out if optional, or an array with the fields by position. `slots` checks the fields in the
order in which they stand and files their values under the proper names.
-/

namespace FlowGraph.Wire

abbrev Decoded (α : Type) := Except Error α

def json (v : Json) : Decoded Json := .ok v.settled

def text : Json → Decoded String
  | .str s => .ok s
  | v => .error (.invalidType v "a string")

def boolean : Json → Decoded Bool
  | .bool b => .ok b
  | v => .error (.invalidType v "a boolean")

def integer (name : String) (lo hi : Int) : Json → Decoded Int
  | .num (.int i) =>
    if lo ≤ i ∧ i ≤ hi then .ok i else .error (.invalidValue (.int i) name)
  | v => .error (.invalidType v name)

def natural (name : String) (bits : Nat) (v : Json) : Decoded Nat :=
  (integer name 0 (Nat.pow 2 bits - 1) v).map Int.toNat

def unsigned32 : Json → Decoded Nat := natural "u32" 32
def unsigned64 : Json → Decoded Nat := natural "u64" 64
def signed64 : Json → Decoded Int := integer "i64" (-Nat.pow 2 63) (Nat.pow 2 63 - 1)

def list {α : Type} (item : Json → Decoded α) : Json → Decoded (List α)
  | .arr vs => vs.mapM item
  | v => .error (.invalidType v "a sequence")

def choice {α : Type} (known : List (String × α)) : Json → Decoded α
  | .str s => find s
  | .obj [(s, v)] => do
    let a ← find s
    match v with
    | .null => return a
    | v => .error (.invalidType v "unit")
  | .obj fields => .error (.invalidValue (.obj fields) "map with a single key")
  | v => .error (.invalidType v "string or map")
where
  find (s : String) : Decoded α :=
    match known.lookup s with
    | some a => .ok a
    | none => .error (.unknownVariant s (known.map (·.1)))

def map : Json → Decoded (List (String × Json))
  | .obj fields => .ok (Entries.ofList (Json.settledFields fields))
  | v => .error (.invalidType v "a map")

structure Field where
  name : String
  aliases : List String
  optional : Bool
  check : Json → Option Error

namespace Field

def problem {α : Type} (decode : Json → Decoded α) (v : Json) : Option Error :=
  match decode v with
  | .ok _ => none
  | .error e => some e

def required {α : Type} (name : String) (decode : Json → Decoded α) : Field :=
  ⟨name, [], false, problem decode⟩

def optionally {α : Type} (name : String) (decode : Json → Decoded α) : Field :=
  ⟨name, [], true, problem decode⟩

def known (f : Field) (also : String) : Field := { f with aliases := also :: f.aliases }

def answersTo (f : Field) (k : String) : Bool := f.name = k || f.aliases.contains k

end Field

abbrev Slots := List (String × Json)

def keyedSlots (fs : List Field) : (acc : Slots) → List (String × Json) → Decoded Slots
  | acc, [] => .ok acc
  | acc, (k, v) :: rest =>
    match fs.find? (·.answersTo k) with
    | none => keyedSlots fs acc rest
    | some f =>
      if (acc.lookup f.name).isSome then .error (.duplicateField f.name)
      else match f.check v with
        | some e => .error e
        | none => keyedSlots fs ((f.name, v) :: acc) rest

def plural (n : Nat) : String := if n = 1 then "1 element" else s!"{n} elements"

def placedSlots (title : String) (size total : Nat) : (place : Nat) → List Field → List Json →
    Decoded Slots
  | _, [], [] => .ok []
  | _, [], _ :: _ => .error (.invalidLength total "fewer elements in array")
  | i, f :: fs, [] =>
    if f.optional then placedSlots title size total (i + 1) fs []
    else .error (.invalidLength i s!"struct {title} with {plural size}")
  | i, f :: fs, v :: vs =>
    match f.check v with
    | some e => .error e
    | none => (placedSlots title size total (i + 1) fs vs).map ((f.name, v) :: ·)

def slots (title : String) (fs : List Field) : Json → Decoded Slots
  | .obj entries => keyedSlots fs [] entries
  | .arr vs => placedSlots title fs.length vs.length 0 fs vs
  | v => .error (.invalidType v ("struct " ++ title))

def Slots.need {α : Type} (s : Slots) (name : String) (decode : Json → Decoded α) : Decoded α :=
  match s.lookup name with
  | some v => decode v
  | none => .error (.missingField name)

def Slots.getD {α : Type} (s : Slots) (name : String) (decode : Json → Decoded α) (other : α) :
    Decoded α :=
  match s.lookup name with
  | some v => decode v
  | none => .ok other

end FlowGraph.Wire
