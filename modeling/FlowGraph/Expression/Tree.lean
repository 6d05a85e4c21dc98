import FlowGraph.Expression.Error
/-!
Expression trees and the parser. Operators of one level associate to the left; comparison binds
loosest and unary minus tightest. `room` is how many more parentheses and negations may be
opened; the nodes made so far are counted in the state.
-/

namespace FlowGraph.Expression

inductive Tree where
  | number (x : Float)
  | str (s : String)
  | ident (name : String)
  | neg (operand : Tree)
  | group (inner : Tree)
  | binary (op : Operator) (lhs rhs : Tree)
deriving DecidableEq

namespace Tree

def topOperator : Tree → Option Operator
  | group inner => inner.topOperator
  | binary op _ _ => some op
  | number _ | str _ | ident _ | neg _ => none

def isComparison (t : Tree) : Bool := t.topOperator.any Operator.isComparison

end Tree

def maxNesting : Nat := 256
def maxNodes : Nat := 1024

namespace Parser

structure State where
  tokens : List Placed
  nodes : Nat

abbrev Result := Except Error (Tree × State)

def count (offset : Nat) (tokens : List Placed) (nodes : Nat) : Except Error State :=
  if nodes + 1 > maxNodes then .error (.tooLarge offset) else .ok ⟨tokens, nodes + 1⟩

def chainRest (operand : State → Result) (level : Level) : Nat → Tree → State → Result
  | 0, lhs, s => .ok (lhs, s)
  | fuel + 1, lhs, s =>
    match s.tokens with
    | ⟨.op o, offset⟩ :: r =>
      if o.level = level then do
        let s ← count offset r s.nodes
        let (rhs, s) ← operand s
        chainRest operand level fuel (.binary o lhs rhs) s
      else .ok (lhs, s)
    | _ => .ok (lhs, s)

def chain (operand : State → Result) (level : Level) (s : State) : Result := do
  let (lhs, s) ← operand s
  chainRest operand level s.tokens.length lhs s

def comparison (operand : State → Result) : State → Result :=
  chain (chain (chain operand .multiplicative) .additive) .comparison

def closeGroup (inner : Tree) (s : State) : Result :=
  match s.tokens with
  | ⟨.rparen, _⟩ :: r => .ok (.group inner, ⟨r, s.nodes⟩)
  | ⟨t, offset⟩ :: _ => .error (.unexpectedToken t offset)
  | [] => .error .unexpectedEnd

def operand : (room : Nat) → State → Result
  | room, s =>
    match s.tokens with
    | [] => .error .unexpectedEnd
    | ⟨.number x, offset⟩ :: r => do return (.number x, ← count offset r s.nodes)
    | ⟨.str x, offset⟩ :: r => do return (.str x, ← count offset r s.nodes)
    | ⟨.ident x, offset⟩ :: r => do return (.ident x, ← count offset r s.nodes)
    | ⟨.op .sub, offset⟩ :: r =>
      match room with
      | 0 => .error (.tooDeep offset)
      | room + 1 => do
        let s ← count offset r s.nodes
        let (t, s) ← operand room s
        return (.neg t, s)
    | ⟨.lparen, offset⟩ :: r =>
      match room with
      | 0 => .error (.tooDeep offset)
      | room + 1 => do
        let s ← count offset r s.nodes
        let (t, s) ← comparison (operand room) s
        closeGroup t s
    | ⟨t, offset⟩ :: r => do
      let _ ← count offset r s.nodes
      .error (.unexpectedToken t offset)

end Parser

def parse (tokens : List Placed) : Except Error Tree :=
  match tokens with
  | [] => .error .empty
  | _ => do
    let (t, s) ← Parser.comparison (Parser.operand maxNesting) ⟨tokens, 0⟩
    match s.tokens with
    | [] => return t
    | extra :: _ => .error (.unexpectedToken extra.token extra.offset)

end FlowGraph.Expression
