import FlowGraph.Run.Engine

namespace FlowGraph.Run

variable {ε δ α β : Type}

def Engine.noted (E : Engine) (g : Graph) (n : Node) (status : Status) (message : String)
    (data : Json) (c : Context) : Context :=
  c.noted (E.record g n status message data c)

namespace Walk

theorem bind_eq (w : Walk ε α) (f : α → Walk ε β) (c : Context) :
    (w >>= f) c = (w c).bind fun p => (ExceptT.bindCont f p.1) p.2 := rfl

theorem failing_eq (f : ε → δ) (w : Walk ε α) (c : Context) :
    failing f w c = (w c).bind fun p => some (p.1.mapError f, p.2) := rfl

theorem bind_eq_some {w : Walk ε α} {f : α → Walk ε β} {c c' : Context} {r : Except ε β} :
    (w >>= f) c = some (r, c') ↔
      (∃ a c₁, w c = some (.ok a, c₁) ∧ f a c₁ = some (r, c')) ∨
        ∃ e, w c = some (.error e, c') ∧ r = .error e := by
  rw [bind_eq]
  cases w c with
  | none => simp
  | some p =>
    obtain ⟨s, c₁⟩ := p
    cases s with
    | ok a => simp [ExceptT.bindCont, and_assoc]
    | error e =>
      change some (Except.error e, c₁) = _ ↔ _
      constructor
      · intro h
        cases h
        exact .inr ⟨e, rfl, rfl⟩
      · rintro (⟨_, _, h, -⟩ | ⟨_, h, rfl⟩)
        · cases h
        · cases h
          rfl

theorem failing_eq_some {f : ε → δ} {w : Walk ε α} {c c' : Context} {r : Except δ α} :
    failing f w c = some (r, c') ↔ ∃ s, w c = some (s, c') ∧ r = s.mapError f := by
  rw [failing_eq]
  cases w c with
  | none => simp
  | some p => simp [Prod.ext_iff, and_assoc, eq_comm, and_comm]

theorem attempt_eq_some {w : Walk ε α} {c c' : Context} {r : Except δ (Except ε α)} :
    attempt w c = some (r, c') ↔ ∃ s, w c = some (s, c') ∧ r = .ok s := by
  simp only [attempt]
  cases w c with
  | none => simp
  | some p => simp [Prod.ext_iff, and_assoc, eq_comm, and_comm]

theorem inCall_eq (w : Walk ε α) (c : Context) :
    inCall w c = (w { c with depth := c.depth + 1 }).bind fun p =>
      some (p.1, { p.2 with depth := p.2.depth - 1 }) := by
  unfold inCall
  cases w { c with depth := c.depth + 1 } <;> rfl

theorem inCall_eq_some {w : Walk ε α} {c c' : Context} {r : Except ε α} :
    inCall w c = some (r, c') ↔ ∃ c₁, w { c with depth := c.depth + 1 } = some (r, c₁) ∧
      c' = { c₁ with depth := c₁.depth - 1 } := by
  rw [inCall_eq]
  cases w { c with depth := c.depth + 1 } with
  | none => simp
  | some p => simp [Prod.ext_iff, and_assoc, eq_comm]

theorem scope_bind (f : Scope → Walk ε α) (c : Context) : (scope >>= f) c = f c.scope c := rfl

theorem depth_bind (f : Nat → Walk ε α) (c : Context) : (depth >>= f) c = f c.depth c := rfl

theorem mapScope_bind (f : Scope → Scope) (w : Unit → Walk ε α) (c : Context) :
    (mapScope f >>= w) c = w () { c with scope := f c.scope } := rfl

theorem emit_bind (E : Engine) (g : Graph) (n : Node) (status : Status) (message : String)
    (data : Json) (w : Unit → Walk ε α) (c : Context) :
    (E.emit g n status message data >>= w) c = w () (E.noted g n status message data c) := rfl

theorem attempt_bind (w : Walk ε α) (f : Except ε α → Walk δ β) (c : Context) :
    (attempt w >>= f) c = (w c).bind fun p => f p.1 p.2 := by
  rw [bind_eq, attempt]
  cases w c <;> rfl

theorem attempt_bind_eq_some {w : Walk ε α} {f : Except ε α → Walk δ β} {c c' : Context}
    {r : Except δ β} :
    (attempt w >>= f) c = some (r, c') ↔ ∃ s c₁, w c = some (s, c₁) ∧ f s c₁ = some (r, c') := by
  rw [attempt_bind, Option.bind_eq_some_iff, Prod.exists]

end Walk

end FlowGraph.Run
