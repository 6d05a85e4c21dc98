import FlowGraph.Json.Basic
import FlowGraph.Decimal.Binary
import FlowGraph.Decimal.Nearest
import FlowGraph.Text.Hexadecimal
/-!
Reading JSON text. Objects come with their fields in the order of the text, repeated ones too, and
are settled when all is read. `room` is how many more containers may be opened, `fuel` bounds the
length of a chain of calls; `parse` gives enough of it for every text.
-/

namespace FlowGraph.Json.Reading

open Text (hexValue?)

def isBlank (c : Char) : Bool := c = ' ' || c = '\n' || c = '\t' || c = '\r'

def skip (cs : List Char) : List Char := cs.dropWhile isBlank

def hex4 (a b c d : Char) : Option Nat := do
  return 4096 * (← hexValue? a) + 256 * (← hexValue? b) + 16 * (← hexValue? c) +
    (← hexValue? d)

def unescape : Char → Option Char
  | '"' => some '"'
  | '\\' => some '\\'
  | '/' => some '/'
  | 'b' => some '\x08'
  | 'f' => some '\x0c'
  | 'n' => some '\n'
  | 'r' => some '\r'
  | 't' => some '\t'
  | _ => none

def string (acc : List Char) : List Char → Option (String × List Char)
  | '"' :: r => some (String.ofList acc.reverse, r)
  | '\\' :: 'u' :: a :: b :: c :: d :: r =>
    match hex4 a b c d with
    | none => none
    | some n =>
      if 0xD800 ≤ n ∧ n < 0xDC00 then
        match r with
        | '\\' :: 'u' :: e :: f :: g :: h :: r' =>
          match hex4 e f g h with
          | some m =>
            if 0xDC00 ≤ m ∧ m < 0xE000 then
              string (Char.ofNat (0x10000 + 1024 * (n - 0xD800) + (m - 0xDC00)) :: acc) r'
            else none
          | none => none
        | _ => none
      else if 0xDC00 ≤ n ∧ n < 0xE000 then none
      else string (Char.ofNat n :: acc) r
  | '\\' :: c :: r =>
    match unescape c with
    | some d => string (d :: acc) r
    | none => none
  | c :: r => if c.toNat < 32 ∨ c = '\\' then none else string (c :: acc) r
  | [] => none

def digits (cs : List Char) : List Char × List Char :=
  (cs.takeWhile Char.isDigit, cs.dropWhile Char.isDigit)

def fraction : List Char → Option (List Char × List Char)
  | '.' :: r => match digits r with
    | ([], _) => none
    | p => some p
  | cs => some ([], cs)

def exponent : List Char → Option (Option Int × List Char)
  | e :: r =>
    if e = 'e' ∨ e = 'E' then
      let (negative, r) := match r with
        | '-' :: r => (true, r)
        | '+' :: r => (false, r)
        | r => (false, r)
      match digits r with
      | ([], _) => none
      | (ds, r) =>
        let n : Int := Decimal.digitsValue ds
        some (some (if negative then -n else n), r)
    else some (none, e :: r)
  | [] => some (none, [])

def wholeNumber (negative : Bool) (n : Nat) : Number :=
  if negative then
    if n = 0 then .float (-0.0) else if n ≤ Nat.pow 2 63 then .int (-n) else .float (-(Float.ofNat n))
  else .int n

def gather (n : Nat) : List Char → Nat × List Char
  | [] => (n, [])
  | c :: cs =>
    let m := 10 * n + Decimal.digitsValue [c]
    if m < Nat.pow 2 64 then gather m cs else (n, c :: cs)

def powerOfTen (k : Nat) : Float := Float.ofScientific 1 false k

def lowered : (k r : Nat) → Float → Float
  | 0, r, x => x / powerOfTen r
  | k + 1, r, x => if x == 0 then x else lowered k r (x / powerOfTen 308)

def scaled (x : Float) (e : Int) : Option Float :=
  if e < 0 then some (lowered ((e.natAbs - 1) / 308) ((e.natAbs - 1) % 308 + 1) x)
  else if e ≤ 308 then
    let y := x * powerOfTen e.toNat
    if Decimal.isFinite y then some y else none
  else if x == 0 then some x else none

/-- Only as many digits count as fit in 64 bits. -/
def decimal (whole fraction : List Char) (e : Int) : Option Float :=
  let (n, beyond) := gather 0 whole
  let (m, rest) := gather n fraction
  scaled (Float.ofNat m) (beyond.length - (fraction.length - rest.length : Nat) + e)

def numberOf (negative : Bool) (whole fraction : List Char) (e : Option Int) : Option Number :=
  if fraction = [] ∧ e = none ∧ Decimal.digitsValue whole < Nat.pow 2 64 then
    some (wholeNumber negative (Decimal.digitsValue whole))
  else
    (decimal whole fraction (e.getD 0)).map fun x => .float (if negative then -x else x)

def unsigned (negative : Bool) (cs : List Char) : Option (Number × List Char) :=
  match digits cs with
  | ([], _) => none
  | ('0' :: _ :: _, _) => none
  | (ds, r) => do
    let (fs, r') ← fraction r
    let (e, r'') ← exponent r'
    return (← numberOf negative ds fs e, r'')

def number : List Char → Option (Number × List Char)
  | '-' :: r => unsigned true r
  | cs => unsigned false cs

mutual

def value (room : Nat) : Nat → List Char → Option (Json × List Char)
  | 0, _ => none
  | fuel + 1, cs =>
    match skip cs with
    | 'n' :: 'u' :: 'l' :: 'l' :: r => some (null, r)
    | 't' :: 'r' :: 'u' :: 'e' :: r => some (bool true, r)
    | 'f' :: 'a' :: 'l' :: 's' :: 'e' :: r => some (bool false, r)
    | '"' :: r => (string [] r).map fun (s, r) => (str s, r)
    | '[' :: r =>
      match room with
      | 0 => none
      | room + 1 =>
        match skip r with
        | ']' :: r => some (arr [], r)
        | r => (items room fuel r).map fun (xs, r) => (arr xs, r)
    | '{' :: r =>
      match room with
      | 0 => none
      | room + 1 =>
        match skip r with
        | '}' :: r => some (obj [], r)
        | r => (fields room fuel r).map fun (xs, r) => (obj xs, r)
    | cs => (number cs).map fun (n, r) => (num n, r)

def items (room : Nat) : Nat → List Char → Option (List Json × List Char)
  | 0, _ => none
  | fuel + 1, cs =>
    match value room fuel cs with
    | none => none
    | some (x, r) =>
      match skip r with
      | ',' :: r => (items room fuel r).map fun (xs, r) => (x :: xs, r)
      | ']' :: r => some ([x], r)
      | _ => none

def fields (room : Nat) : Nat → List Char → Option (List (String × Json) × List Char)
  | 0, _ => none
  | fuel + 1, cs =>
    match skip cs with
    | '"' :: r =>
      match string [] r with
      | none => none
      | some (k, r) =>
        match skip r with
        | ':' :: r =>
          match value room fuel r with
          | none => none
          | some (x, r) =>
            match skip r with
            | ',' :: r => (fields room fuel r).map fun (xs, r) => ((k, x) :: xs, r)
            | '}' :: r => some ([(k, x)], r)
            | _ => none
        | _ => none
    | _ => none

end

end Reading

def maxNesting : Nat := 127

def leading? (s : String) : Option (Json × List Char) :=
  let cs := s.toList
  (Reading.value maxNesting (2 * cs.length + 2) cs).map fun (v, r) => (v, Reading.skip r)

/-- The value that a text holds, with the fields of objects as they are written. -/
def asWritten? (s : String) : Option Json :=
  match leading? s with
  | some (v, []) => some v
  | _ => none

def parse (s : String) : Option Json := (asWritten? s).map settled

def ofBytes? (b : ByteArray) : Option Json := (String.fromUTF8? b).bind parse

end FlowGraph.Json
