import FlowGraph.Expression.Lexer
import FlowGraph.Expression.Tree
import FlowGraph.Decimal.Binary
import FlowGraph.Decimal.Remainder

namespace FlowGraph.Expression

inductive Value where
  | number (x : Float)
  | str (s : String)
deriving DecidableEq

def Value.kind : Value → Kind
  | .number _ => .number
  | .str _ => .string

def constant? : String → Option Float
  | "pi" => some 3.141592653589793
  | "e" => some 2.718281828459045
  | _ => none

def nameValue (name : String) : Value :=
  match constant? name with
  | some x => .number x
  | none => .str name

def order (x y : Float) : Option Ordering :=
  if x < y then some .lt else if y < x then some .gt else if x == y then some .eq else none

def textOrder (x y : String) : Ordering :=
  if x < y then .lt else if y < x then .gt else .eq

def Operator.holds : Operator → Option Ordering → Bool
  | .eq, some o => o = .eq
  | .ne, some o => o ≠ .eq
  | .lt, some o => o = .lt
  | .gt, some o => o = .gt
  | .le, some o => o ≠ .gt
  | .ge, some o => o ≠ .lt
  | .ne, none => true
  | _, _ => false

def truth (b : Bool) : Value := .number (if b then 1 else 0)

def compare (op : Operator) : Value → Value → Except Error Value
  | .number x, .number y => .ok (truth (op.holds (order x y)))
  | .str x, .str y => .ok (truth (op.holds (some (textOrder x y))))
  | x, y => .error (.mixedComparison x.kind y.kind)

def arithmetic (op : Operator) : Value → Value → Except Error Value
  | .number x, .number y =>
    match op with
    | .add => .ok (.number (x + y))
    | .sub => .ok (.number (x - y))
    | .mul => .ok (.number (x * y))
    | .div => if y == 0 then .error .divisionByZero else .ok (.number (x / y))
    | .rem => if y == 0 then .error .moduloByZero else .ok (.number (Decimal.remainder x y))
    | op => compare op (.number x) (.number y)
  | _, _ => .error (.nonNumericOperand .arithmetic)

def Operator.apply (op : Operator) (x y : Value) : Except Error Value :=
  if op.isComparison then compare op x y else arithmetic op x y

def negate : Value → Except Error Value
  | .number x => .ok (.number (-x))
  | .str _ => .error (.nonNumericOperand .unaryMinus)

def Tree.eval : Tree → Except Error Value
  | .number x => .ok (.number x)
  | .str s => .ok (.str s)
  | .ident name => .ok (nameValue name)
  | .group inner => inner.eval
  | .neg operand => do negate (← operand.eval)
  | .binary op lhs rhs => do
    let x ← lhs.eval
    let y ← rhs.eval
    op.apply x y

def Tree.numeric (t : Tree) : Except Error Float :=
  if t.isComparison then .error .expectedNumeric
  else do
    match ← t.eval with
    | .number x => if Decimal.isFinite x then .ok x else .error .nonFinite
    | .str _ => .error .nonNumericResult

def Tree.boolean (t : Tree) : Except Error Bool :=
  if t.isComparison then do
    match ← t.eval with
    | .number x => return x == 1
    | .str _ => .error .nonNumericResult
  else .error .expectedBoolean

def read (s : String) : Except Error Tree := do parse (← tokenize s)

def evaluateNumeric (s : String) : Except Error Float := do (← read s).numeric

def evaluateBoolean (s : String) : Except Error Bool := do (← read s).boolean

end FlowGraph.Expression
