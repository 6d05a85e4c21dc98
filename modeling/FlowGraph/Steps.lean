/-!
Computations on a shared state in steps between which other computations may take theirs.
`run` takes all steps in one go.
-/

namespace FlowGraph

inductive Steps (σ α : Type) : Type 1 where
  | done (a : α)
  | step {β : Type} (act : σ → β × σ) (next : β → Steps σ α)

namespace Steps

variable {σ α β : Type}

def bind : Steps σ α → (α → Steps σ β) → Steps σ β
  | done a, f => f a
  | step act next, f => step act fun b => bind (next b) f

instance : Monad (Steps σ) where
  pure := done
  bind := bind

def atomically (act : σ → α × σ) : Steps σ α := step act done

def reading (f : σ → α) : Steps σ α := atomically fun s => (f s, s)

def changing (f : σ → σ) : Steps σ Unit := atomically fun s => ((), f s)

def run : Steps σ α → σ → α × σ
  | done a, s => (a, s)
  | step act next, s => run (next (act s).1) (act s).2

@[simp] theorem run_pure (a : α) (s : σ) : run (pure a : Steps σ α) s = (a, s) := rfl

@[simp] theorem run_atomically (act : σ → α × σ) (s : σ) : run (atomically act) s = act s := rfl

@[simp] theorem run_bind (p : Steps σ α) (f : α → Steps σ β) (s : σ) :
    run (p >>= f) s = run (f (run p s).1) (run p s).2 := by
  change run (bind p f) s = _
  induction p generalizing s with
  | done a => rfl
  | step act next ih => exact ih _ _

end Steps

end FlowGraph
