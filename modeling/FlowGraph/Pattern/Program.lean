import FlowGraph.Pattern.Expr

namespace FlowGraph.Pattern

inductive Step where
  | take (set : Text.CharSet) (next : Nat)
  | look (l : Look) (next : Nat)
  | save (slot next : Nat)
  | split (targets : List Nat)
  | done
deriving Inhabited

structure Program where
  steps : Array Step
  start : Nat

namespace Program

def either (greedy : Bool) (first second : Nat) : Step :=
  if greedy then .split [first, second] else .split [second, first]

def times (layout : Array Step → Nat → Array Step × Nat) : Nat → Array Step → Nat →
    Array Step × Nat
  | 0, steps, next => (steps, next)
  | n + 1, steps, next =>
    let (steps, next) := layout steps next
    times layout n steps next

def lay : Expr → Array Step → (next : Nat) → Array Step × Nat
  | .empty, steps, next => (steps, next)
  | .chars set, steps, next => (steps.push (.take set next), steps.size)
  | .look l, steps, next => (steps.push (.look l next), steps.size)
  | .group i e, steps, next =>
    let steps := steps.push (.save (2 * i + 1) next)
    let (steps, s) := lay e steps (steps.size - 1)
    (steps.push (.save (2 * i) s), steps.size)
  | .cat a b, steps, next =>
    let (steps, s) := lay b steps next
    lay a steps s
  | .alt a b, steps, next =>
    let (steps, s) := lay b steps next
    let (steps, r) := lay a steps next
    (steps.push (.split [r, s]), steps.size)
  | .rep min max greedy e, steps, next =>
    match max with
    | some max =>
      let optional (steps : Array Step) (exit : Nat) : Array Step × Nat :=
        let (steps, s) := lay e steps exit
        (steps.push (either greedy s next), steps.size)
      let (steps, s) := times optional (max - min) steps next
      times (lay e) min steps s
    | none =>
      let again := steps.size
      let (steps, s) := lay e (steps.push .done) again
      let steps := steps.setIfInBounds again (either greedy s next)
      if min = 0 then
        if 0 < e.minLength then (steps, again)
        else (steps.push (either greedy s next), steps.size)
      else times (lay e) (min - 1) steps s

def ofExpr (e : Expr) : Program :=
  let (steps, s) := lay (.group 0 e) #[.done] 0
  ⟨steps, s⟩

end Program

namespace Size

def step : Nat := 32
def edge : Nat := 8

def limit : Nat := 10 * Nat.pow 2 20

def ofRange (r : Text.Range) : Nat :=
  if r.hi < 0x80 then edge else step + edge

def ofSet (s : Text.CharSet) : Nat :=
  match s.ranges.toList with
  | [r] =>
    if r.hi < 0x80 then step
    else if r.lo = r.hi then if r.hi < 0x800 then 2 * step else if r.hi < 0x10000 then 3 * step
      else 4 * step
    else 4 * step
  | rs => rs.foldl (fun n r => n + ofRange r) step

def ofExpr : Expr → Nat
  | .empty => step
  | .chars s => ofSet s
  | .look _ => step
  | .cat a b => ofExpr a + ofExpr b
  | .alt a b => ofExpr a + ofExpr b + step + edge
  | .group _ e => ofExpr e + 2 * step
  | .rep min max _ e =>
    match max with
    | some max => max * ofExpr e + (max - min) * (step + edge)
    | none => Nat.max min 1 * ofExpr e + step + edge

end Size

end FlowGraph.Pattern
