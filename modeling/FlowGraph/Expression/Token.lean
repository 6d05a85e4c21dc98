import FlowGraph.Decimal.Shortest

namespace FlowGraph.Expression

inductive Operator where
  | add | sub | mul | div | rem
  | eq | ne | lt | gt | le | ge
deriving DecidableEq

inductive Level where
  | comparison | additive | multiplicative
deriving DecidableEq

def Operator.level : Operator → Level
  | .mul | .div | .rem => .multiplicative
  | .add | .sub => .additive
  | .eq | .ne | .lt | .gt | .le | .ge => .comparison

def Operator.isComparison (o : Operator) : Bool := o.level = .comparison

def Operator.symbol : Operator → String
  | .add => "+"
  | .sub => "-"
  | .mul => "*"
  | .div => "/"
  | .rem => "%"
  | .eq => "=="
  | .ne => "!="
  | .lt => "<"
  | .gt => ">"
  | .le => "<="
  | .ge => ">="

inductive Token where
  | number (x : Float)
  | str (s : String)
  | ident (name : String)
  | op (o : Operator)
  | lparen
  | rparen
deriving DecidableEq

def Token.describe : Token → String
  | .number x => "number " ++ Decimal.plain x
  | .str s => "string \"" ++ s ++ "\""
  | .ident name => "identifier '" ++ name ++ "'"
  | .op o => "'" ++ o.symbol ++ "'"
  | .lparen => "'('"
  | .rparen => "')'"

structure Placed where
  token : Token
  offset : Nat
deriving DecidableEq

end FlowGraph.Expression
