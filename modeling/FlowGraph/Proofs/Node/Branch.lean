import FlowGraph.Node.Leaf

namespace FlowGraph

namespace Leaf

variable {α β : Type}

def Yields (a : Act α) (P : α → Prop) : Prop := ∀ s x s', a s = (.ok x, s') → P x

theorem Yields.pure {P : α → Prop} {x : α} (h : P x) : Yields (Pure.pure x : Act α) P := by
  intro s y s' hy
  cases hy
  exact h

theorem Yields.throw {P : α → Prop} (e : NodeError) : Yields (throw e : Act α) P := by
  intro s y s' hy
  cases hy

theorem bind_eq_ok {a : Act α} {f : α → Act β} {s s' : Surroundings} {y : β}
    (h : (a >>= f) s = (.ok y, s')) : ∃ x s₁, a s = (.ok x, s₁) ∧ f x s₁ = (.ok y, s') := by
  change ExceptT.bindCont f (a s).1 (a s).2 = _ at h
  cases ha : a s with
  | mk r s₁ =>
    rw [ha] at h
    cases r with
    | ok x => exact ⟨x, s₁, rfl, h⟩
    | error e => cases h

theorem Yields.bind {P : β → Prop} {a : Act α} {f : α → Act β} (h : ∀ x, Yields (f x) P) :
    Yields (a >>= f) P := by
  intro s y s' hy
  obtain ⟨x, s₁, -, hx⟩ := bind_eq_ok hy
  exact h x s₁ y s' hx

theorem Yields.throw_bind {P : β → Prop} (e : NodeError) (f : α → Act β) :
    Yields (MonadExcept.throw e >>= f) P := by
  intro s y s' hy
  cases hy

theorem rendered_eq (t : String) (s : Surroundings) :
    rendered t s = (.ok (Template.render t s.scope []), s) := rfl

def Goes (b : Branch) (o : Outcome) : Prop := o.branch = b

theorem math_goes (expression into : String) : Yields (math expression into) (Goes .all) := by
  refine .bind fun t => ?_
  cases Expression.evaluateNumeric t with
  | error e => exact .throw _
  | ok x => exact .bind fun _ => .pure rfl

theorem api_goes (c : ApiCall) : Yields (api c) (Goes .all) := by
  refine .bind fun url => .bind fun payload => ?_
  dsimp only
  split
  · exact .throw_bind _ _
  · exact .bind fun _ => .bind fun _ => .bind fun _ => .bind fun _ => .pure rfl

theorem execute_goes {k : NodeKind} (hk : ∀ expression, k ≠ .condition expression) :
    Yields (execute k) (Goes .all) := by
  cases k with
  | plain | interval | webhook | events => exact .pure rfl
  | setVariable | list | log => exact .bind fun _ => .pure rfl
  | text | count => exact .bind fun _ => .bind fun _ => .pure rfl
  | condition expression => exact absurd rfl (hk expression)
  | getGuid | map => exact .bind fun _ => .bind fun _ => .bind fun _ => .pure rfl
  | math expression into => exact math_goes expression into
  | findAll => exact .bind fun _ => .bind fun _ => .bind fun _ => .bind fun _ => .pure rfl
  | replace =>
    exact .bind fun _ => .bind fun _ => .bind fun _ => .bind fun _ => .bind fun _ => .pure rfl
  | api c => exact api_goes c
  | loop | forEach | whileHolds | subprocess | unknown => exact .throw _

def side (expression : String) (s : Scope) : Branch :=
  match Expression.evaluateBoolean (Template.render expression s []) with
  | .ok true => .onTrue
  | _ => .onFalse

theorem condition_goes {expression : String} {s s' : Surroundings} {o : Outcome}
    (h : condition expression s = (.ok o, s')) : o.branch = side expression s.scope := by
  obtain ⟨t, s₁, ht, h⟩ := bind_eq_ok h
  rw [rendered_eq] at ht
  cases ht
  dsimp only at h
  split at h
  · cases h
  cases h
  unfold side
  cases Expression.evaluateBoolean (Template.render expression s.scope []) with
  | error e => rfl
  | ok b => cases b <;> rfl

end Leaf

def NodeKind.branch (k : NodeKind) (s : Scope) : Branch :=
  match k with
  | .condition expression => Leaf.side expression s
  | .loop _ | .forEach _ | .whileHolds .. => .default
  | _ => .all

theorem Leaf.perform_branch {k : NodeKind} {s s' : Surroundings} {o : Outcome}
    (h : perform k s = (.ok o, s')) : o.branch = k.branch s.scope := by
  by_cases hk : ∃ expression, k = .condition expression
  · obtain ⟨expression, rfl⟩ := hk
    exact condition_goes h
  · have ho : o.branch = .all := execute_goes (fun e he => hk ⟨e, he⟩) s o s' h
    cases k with
    | condition expression => exact absurd ⟨expression, rfl⟩ hk
    | loop | forEach | whileHolds => cases h
    | _ => exact ho

end FlowGraph
