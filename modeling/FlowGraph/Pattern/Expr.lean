import FlowGraph.Text.Ranges

namespace FlowGraph.Pattern

inductive Look where
  | start | stop
  | lineStart | lineEnd
  | anyLineStart | anyLineEnd
  | wordBoundary (ascii : Bool)
  | noWordBoundary (ascii : Bool)
  | wordStart (ascii : Bool)
  | wordEnd (ascii : Bool)
  | wordStartHalf (ascii : Bool)
  | wordEndHalf (ascii : Bool)
deriving DecidableEq

inductive Expr where
  | empty
  | chars (set : Text.CharSet)
  | look (l : Look)
  | cat (first second : Expr)
  | alt (first second : Expr)
  | rep (min : Nat) (max : Option Nat) (greedy : Bool) (body : Expr)
  | group (index : Nat) (body : Expr)

namespace Expr

def minLength : Expr → Nat
  | empty | look _ => 0
  | chars _ => 1
  | cat a b => a.minLength + b.minLength
  | alt a b => min a.minLength b.minLength
  | rep n _ _ a => n * a.minLength
  | group _ a => a.minLength

end Expr

end FlowGraph.Pattern
