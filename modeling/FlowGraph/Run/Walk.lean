import FlowGraph.Run.Context
/-!
Computations on the context of a run. One that runs out of fuel has no result at all, so an answer
never depends on how much fuel there was.
-/

namespace FlowGraph.Run

abbrev Walk (ε : Type) := ExceptT ε (StateT Context Option)

namespace Walk

variable {ε δ α : Type}

def outOfFuel : Walk ε α := fun _ => none

def attempt (w : Walk ε α) : Walk δ (Except ε α) := fun c =>
  match w c with
  | some (r, c) => some (.ok r, c)
  | none => none

def failing (f : ε → δ) (w : Walk ε α) : Walk δ α := ExceptT.adapt f w

/-- Inside of one more call; the depth is restored whatever the outcome. -/
def inCall (w : Walk ε α) : Walk ε α := fun c =>
  match w { c with depth := c.depth + 1 } with
  | some (r, c) => some (r, { c with depth := c.depth - 1 })
  | none => none

def scope : Walk ε Scope := do return (← get).scope

def mapScope (f : Scope → Scope) : Walk ε Unit := modify fun c => { c with scope := f c.scope }

def depth : Walk ε Nat := do return (← get).depth

def leaf (a : Surroundings → Except NodeError α × Surroundings) : Walk NodeError α := fun c =>
  let (r, t) := a c.toSurroundings
  some (r, { c with toSurroundings := t })

end Walk

end FlowGraph.Run
