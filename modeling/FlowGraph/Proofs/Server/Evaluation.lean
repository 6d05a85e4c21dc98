import FlowGraph.Server.Handlers

namespace FlowGraph

theorem Steps.run_map {σ α β : Type} (f : α → β) (p : Steps σ α) (s : σ) :
    run (f <$> p) s = (f (run p s).1, (run p s).2) :=
  run_bind p (fun a => done (f a)) s

namespace Server

namespace Handler

variable {α β τ : Type}

def eval (h : Handler α) (s : Server) : Except (Option Reply) α × Server := h.run.run s

@[simp] theorem eval_pure (a : α) (s : Server) : eval (pure a) s = (.ok a, s) := rfl

@[simp] theorem eval_refuse (r : Reply) (s : Server) :
    eval (refuse r : Handler α) s = (.error (some r), s) := rfl

@[simp] theorem eval_step (act : Server → α × Server) (s : Server) :
    eval (step act) s = (.ok (act s).1, (act s).2) := by
  rw [eval, step, ExceptT.run_lift, Steps.run_map, Steps.run_atomically]

@[simp] theorem eval_read (f : Server → α) (s : Server) : eval (read f) s = (.ok (f s), s) :=
  eval_step (fun s => (f s, s)) s

@[simp] theorem eval_change (f : Server → Server) (s : Server) :
    eval (change f) s = (.ok (), f s) :=
  eval_step (fun s => ((), f s)) s

@[simp] theorem eval_orRefuse_ok {ε : Type} (reply : ε → Reply) (a : α) (s : Server) :
    eval (orRefuse reply (.ok a)) s = (.ok a, s) := rfl

@[simp] theorem eval_orRefuse_error {ε : Type} (reply : ε → Reply) (e : ε) (s : Server) :
    eval (orRefuse reply (.error e) : Handler α) s = (.error (some (reply e)), s) := rfl

theorem eval_bind (h : Handler α) (f : α → Handler β) (s : Server) :
    eval (h >>= f) s = match eval h s with
      | (.ok a, s') => eval (f a) s'
      | (.error e, s') => (.error e, s') := by
  rw [eval, ExceptT.run_bind, Steps.run_bind, eval]
  rcases h.run.run s with ⟨a | e, s'⟩ <;> rfl

theorem eval_bind_ok {h : Handler α} {f : α → Handler β} {a : α} {s s' : Server}
    (hh : eval h s = (.ok a, s')) : eval (h >>= f) s = eval (f a) s' := by
  rw [eval_bind, hh]

theorem eval_bind_error {h : Handler α} {f : α → Handler β} {e : Option Reply} {s s' : Server}
    (hh : eval h s = (.error e, s')) : eval (h >>= f) s = (.error e, s') := by
  rw [eval_bind, hh]

theorem eval_map (h : Handler α) (f : α → β) (s : Server) :
    eval (f <$> h) s = ((eval h s).1.map f, (eval h s).2) := by
  have hmap : f <$> h = h >>= fun a => pure (f a) := rfl
  rw [hmap, eval_bind]
  rcases eval h s with ⟨a | e, s'⟩ <;> rfl

theorem eval_adapt (h : Handler α) (f : Option Reply → Option Reply) (s : Server) :
    eval (h.adapt f) s = ((eval h s).1.mapError f, (eval h s).2) := by
  exact Steps.run_map (Except.mapError f) h.run s

def reply : Except (Option Reply) Reply → Option Reply
  | .ok r => some r
  | .error r => r

def Keeps (view : Server → τ) (h : Handler α) : Prop := ∀ s, view (eval h s).2 = view s

section

variable {view : Server → τ}

theorem Keeps.pure (a : α) : Keeps view (Pure.pure a) := fun _ => rfl

theorem Keeps.throw (e : Option Reply) : Keeps view (MonadExcept.throw e : Handler α) := fun _ => rfl

theorem Keeps.refuse (r : Reply) : Keeps view (refuse r : Handler α) := fun _ => rfl

theorem Keeps.refuse_bind (r : Reply) (f : α → Handler β) :
    Keeps view (Handler.refuse r >>= f) := fun s => by rw [eval_bind_error (eval_refuse r s)]

theorem Keeps.read (f : Server → α) : Keeps view (read f) := fun s => by rw [eval_read]

theorem Keeps.step {act : Server → α × Server} (h : ∀ s, view (act s).2 = view s) :
    Keeps view (step act) := fun s => by rw [eval_step, h]

theorem Keeps.orRefuse {ε : Type} (reply : ε → Reply) (x : Except ε α) :
    Keeps view (orRefuse reply x) := by
  cases x <;> exact fun _ => rfl

theorem Keeps.bind {h : Handler α} {f : α → Handler β} (hh : Keeps view h)
    (hf : ∀ a, Keeps view (f a)) : Keeps view (h >>= f) := by
  intro s
  rw [eval_bind]
  have := hh s
  split
  · next a s' heq =>
    rw [hf a s', ← this, heq]
  · next e s' heq => rw [← this, heq]

end

end Handler

theorem handle_eq (H : Host) (r : Request) (s : Server) :
    handle H r s =
      (Handler.reply (Handler.eval (respond H r) s).1, (Handler.eval (respond H r) s).2) := by
  rw [handle]
  split <;> rename_i heq <;> simp [Handler.eval, heq, Handler.reply]

end Server

end FlowGraph
