import FlowGraph.Expression.Token

namespace FlowGraph.Expression

inductive Kind where
  | number | string
deriving DecidableEq

def Kind.name : Kind → String
  | .number => "number"
  | .string => "string"

inductive Use where
  | unaryMinus | arithmetic
deriving DecidableEq

def Use.name : Use → String
  | .unaryMinus => "unary minus"
  | .arithmetic => "arithmetic expression"

inductive Error where
  | empty
  | unexpectedChar (c : Char) (offset : Nat)
  | unterminatedString (offset : Nat)
  | invalidNumber (literal : String)
  | unexpectedToken (found : Token) (offset : Nat)
  | unexpectedEnd
  | tooDeep (offset : Nat)
  | tooLarge (offset : Nat)
  | nonNumericOperand (use : Use)
  | mixedComparison (left right : Kind)
  | divisionByZero
  | moduloByZero
  | expectedNumeric
  | expectedBoolean
  | nonNumericResult
  | nonFinite
deriving DecidableEq

def Error.message : Error → String
  | .empty => "empty expression"
  | .unexpectedChar c o => s!"unexpected character '{c}' at offset {o}"
  | .unterminatedString o => s!"unterminated string literal starting at offset {o}"
  | .invalidNumber l => s!"invalid number literal '{l}'"
  | .unexpectedToken t o => s!"unexpected {t.describe} at offset {o}"
  | .unexpectedEnd => "unexpected end of expression"
  | .tooDeep o => s!"expression nested too deeply at offset {o}"
  | .tooLarge o => s!"expression too large at offset {o}"
  | .nonNumericOperand u => s!"non-numeric operand for {u.name}"
  | .mixedComparison l r => s!"cannot compare {l.name} with {r.name}"
  | .divisionByZero => "division by zero"
  | .moduloByZero => "modulo by zero"
  | .expectedNumeric => "boolean expression provided where a numeric expression was expected"
  | .expectedBoolean => "numeric expression provided where a boolean expression was expected"
  | .nonNumericResult => "non-numeric result"
  | .nonFinite => "result is not a finite number"

end FlowGraph.Expression
