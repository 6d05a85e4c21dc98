import FlowGraph.Json.Reading
/-!
Values that are passed over unread. They have to be well-formed, but may be as deep as they like,
and neither the range of numbers nor the halves of surrogate pairs are looked at.
-/

namespace FlowGraph.Json.Passing

open Reading (skip digits fraction exponent hex4 unescape)

def string : List Char → Option (List Char)
  | '"' :: r => some r
  | '\\' :: 'u' :: a :: b :: c :: d :: r => if (hex4 a b c d).isSome then string r else none
  | '\\' :: c :: r => if (unescape c).isSome then string r else none
  | c :: r => if c.toNat < 32 ∨ c = '\\' then none else string r
  | [] => none

def unsigned (cs : List Char) : Option (List Char) :=
  match digits cs with
  | ([], _) => none
  | ('0' :: _ :: _, _) => none
  | (_, r) => do
    let (_, r) ← fraction r
    let (_, r) ← exponent r
    return r

def number : List Char → Option (List Char)
  | '-' :: r => unsigned r
  | cs => unsigned cs

mutual

def value : Nat → List Char → Option (List Char)
  | 0, _ => none
  | fuel + 1, cs =>
    match skip cs with
    | 'n' :: 'u' :: 'l' :: 'l' :: r => some r
    | 't' :: 'r' :: 'u' :: 'e' :: r => some r
    | 'f' :: 'a' :: 'l' :: 's' :: 'e' :: r => some r
    | '"' :: r => string r
    | '[' :: r =>
      match skip r with
      | ']' :: r => some r
      | r => items fuel r
    | '{' :: r =>
      match skip r with
      | '}' :: r => some r
      | r => fields fuel r
    | cs => number cs

def items : Nat → List Char → Option (List Char)
  | 0, _ => none
  | fuel + 1, cs => do
    match skip (← value fuel cs) with
    | ',' :: r => items fuel r
    | ']' :: r => some r
    | _ => none

def fields : Nat → List Char → Option (List Char)
  | 0, _ => none
  | fuel + 1, cs =>
    match skip cs with
    | '"' :: r => do
      match skip (← string r) with
      | ':' :: r =>
        match skip (← value fuel r) with
        | ',' :: r => fields fuel r
        | '}' :: r => some r
        | _ => none
      | _ => none
    | _ => none

end

end FlowGraph.Json.Passing
