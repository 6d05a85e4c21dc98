
namespace FlowGraph.Decimal

/-- The number nearest to `m · 10 ^ e`. Beyond `10 ^ ±400` the answer is known without the power. -/
def nearest (m : Nat) (e : Int) : Float :=
  let top := (Nat.toDigits 10 m).length + e
  if m = 0 ∨ top < -400 then 0
  else if 400 < top then Float.ofBits 0x7FF0000000000000
  else if e < 0 then Float.ofScientific m true e.natAbs
  else Float.ofScientific m false e.natAbs

def digitsValue (ds : List Char) : Nat :=
  ds.foldl (fun n c => 10 * n + (c.toNat - '0'.toNat)) 0

def ofParts (whole fraction : List Char) (e : Int) : Float :=
  nearest (digitsValue (whole ++ fraction)) (e - fraction.length)

end FlowGraph.Decimal
