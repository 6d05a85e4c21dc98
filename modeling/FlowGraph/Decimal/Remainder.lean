import FlowGraph.Decimal.Binary

namespace FlowGraph.Decimal

def ofBinary (m : Nat) (q : Int) : Float :=
  let s := min (52 - m.log2) (q + 1074).toNat
  let n := m * Nat.pow 2 s
  if m = 0 then 0
  else if n < Nat.pow 2 52 then Float.ofBits n.toUInt64
  else Float.ofBits ((q - s + 1075).toNat * Nat.pow 2 52 + (n - Nat.pow 2 52)).toUInt64

def remainder (x y : Float) : Float :=
  match parts x, parts y with
  | .notANumber, _ | _, .notANumber | .infinite _, _ | _, .zero _ => 0 / 0
  | .zero _, _ | _, .infinite _ => x
  | .finite sign a, .finite _ b =>
    let q := min a.exponent b.exponent
    let m := a.significand * Nat.pow 2 (a.exponent - q).toNat
    let n := b.significand * Nat.pow 2 (b.exponent - q).toNat
    let r := ofBinary (m % n) q
    if sign then -r else r

end FlowGraph.Decimal
