import FlowGraph.Decimal.Binary
/-!
The fewest decimal digits that read back as a given binary64 number: of all decimals in the
interval that rounds to `m · 2 ^ q`, one on the coarsest decimal grid, and of two the nearer.
Where both are as near, the writer of the number says which.
-/

namespace FlowGraph.Decimal

structure Scaled where
  digits : Nat
  exponent : Int
deriving DecidableEq

inductive Tie where
  | up
  | toEven
deriving DecidableEq

def Tie.staysAt : Tie → (c : Nat) → Bool
  | .up, _ => false
  | .toEven, c => c % 2 = 0

namespace Binary

def quarters (b : Binary) (k : Nat) : Nat :=
  k * Nat.pow 2 (b.exponent - 2).toNat

def denominator (b : Binary) : Nat :=
  Nat.pow 2 (2 - b.exponent).toNat

def value (b : Binary) : Nat := b.quarters (4 * b.significand)

def low (b : Binary) : Nat :=
  b.quarters (4 * b.significand - if b.halfBelow then 1 else 2)

def high (b : Binary) : Nat := b.quarters (4 * b.significand + 2)

/-- `c · 10 ^ k` reads back as `b`; the ends count iff the significand is even. -/
def Holds (b : Binary) (c : Nat) (k : Int) : Prop :=
  let a := c * (b.denominator * Nat.pow 10 k.toNat)
  let t := Nat.pow 10 (-k).toNat
  if b.significand % 2 = 0 then b.low * t ≤ a ∧ a ≤ b.high * t
  else b.low * t < a ∧ a < b.high * t

instance (b : Binary) (c : Nat) (k : Int) : Decidable (b.Holds c k) := by
  unfold Holds
  infer_instance

def digitCount (n : Nat) : Nat := (Nat.toDigits 10 n).length

def magnitude (b : Binary) : Int :=
  if b.denominator ≤ b.value then digitCount (b.value / b.denominator) - 1
  else
    let l := digitCount (b.denominator / b.value)
    if b.denominator ≤ b.value * Nat.pow 10 (l - 1) then 1 - (l : Int) else -(l : Int)

def onGrid (tie : Tie) (b : Binary) (k : Int) : Option Nat :=
  let step := b.denominator * Nat.pow 10 k.toNat
  let v := b.value * Nat.pow 10 (-k).toNat
  let c := v / step
  match decide (b.Holds c k), decide (b.Holds (c + 1) k) with
  | true, true =>
    let twice := 2 * (v - c * step)
    if twice < step ∨ (twice = step ∧ tie.staysAt c) then some c else some (c + 1)
  | true, false => some c
  | false, true => some (c + 1)
  | false, false => none

end Binary

def Scaled.trim : Nat → Scaled → Scaled
  | 0, s => s
  | n + 1, s =>
    if s.digits ≠ 0 ∧ s.digits % 10 = 0 then trim n ⟨s.digits / 10, s.exponent + 1⟩ else s

def shortest (tie : Tie) (b : Binary) : Scaled :=
  let e := b.magnitude
  let ks := (List.range 18).map fun (n : Nat) => e - (n : Int)
  match ks.findSome? fun k => (b.onGrid tie k).map (Scaled.mk · k) with
  | some s => s.trim 20
  | none => ⟨b.significand, b.exponent⟩

def positional (ds : List Char) (p : Int) : List Char :=
  if (ds.length : Int) ≤ p then ds ++ List.replicate (p - ds.length).toNat '0'
  else if 0 < p then ds.take p.toNat ++ '.' :: ds.drop p.toNat
  else '0' :: '.' :: (List.replicate (-p).toNat '0' ++ ds)

def Scaled.chars (s : Scaled) : List Char := Nat.toDigits 10 s.digits

def Scaled.point (s : Scaled) : Int := s.chars.length + s.exponent

def plain (x : Float) : String :=
  match parts x with
  | .notANumber => "NaN"
  | .infinite true => "-inf"
  | .infinite false => "inf"
  | .zero true => "-0"
  | .zero false => "0"
  | .finite sign b =>
    let s := shortest .up b
    String.ofList ((if sign then ['-'] else []) ++ positional s.chars s.point)

end FlowGraph.Decimal
