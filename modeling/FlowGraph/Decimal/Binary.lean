
namespace FlowGraph.Decimal

structure Binary where
  significand : Nat
  exponent : Int
  halfBelow : Bool
deriving DecidableEq

inductive Parts where
  | notANumber
  | infinite (negative : Bool)
  | zero (negative : Bool)
  | finite (negative : Bool) (b : Binary)

def parts (x : Float) : Parts :=
  let n : Nat := x.toBits.toNat
  let sign := decide (Nat.pow 2 63 ≤ n)
  let e : Nat := n / Nat.pow 2 52 % 2048
  let f : Nat := n % Nat.pow 2 52
  if e = 2047 then if f = 0 then .infinite sign else .notANumber
  else if e = 0 then if f = 0 then .zero sign else .finite sign ⟨f, -1074, false⟩
  else .finite sign ⟨Nat.pow 2 52 + f, (e : Int) - 1075, decide (f = 0 ∧ 1 < e)⟩

def isFinite (x : Float) : Bool :=
  match parts x with
  | .notANumber | .infinite _ => false
  | .zero _ | .finite _ _ => true

end FlowGraph.Decimal
