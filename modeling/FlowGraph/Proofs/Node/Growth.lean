import FlowGraph.Proofs.Node.Atomic

namespace FlowGraph

namespace Scope

variable {s s' s'' : Scope}

def Extends (s s' : Scope) : Prop := ∃ es, s' = s.bindAll es

theorem Extends.refl (s : Scope) : s.Extends s := ⟨[], rfl⟩

theorem Extends.trans (h : s.Extends s') (h' : s'.Extends s'') : s.Extends s'' := by
  obtain ⟨es, rfl⟩ := h
  obtain ⟨fs, rfl⟩ := h'
  exact ⟨es ++ fs, (List.foldl_append ..).symm⟩

theorem extends_bind (s : Scope) (name : String) (v : Json) : s.Extends (s.bind name v) :=
  ⟨[(name, v)], rfl⟩

theorem extends_promote (s : Scope) : s.Extends s.promote :=
  (extends_bind ..).trans (extends_bind ..)

theorem extends_elim_setOutput (s : Scope) (v : Option Json) : s.Extends (v.elim s s.setOutput) := by
  cases v with
  | none => exact .refl s
  | some v => exact extends_bind ..

theorem isSome_get?_bindAll {name : String} (h : (s.get? name).isSome = true)
    (es : List (String × Json)) : ((s.bindAll es).get? name).isSome = true := by
  induction es generalizing s with
  | nil => exact h
  | cons e es ih =>
    apply ih
    rw [get?_bind]
    split
    · rfl
    · exact h

theorem Extends.isSome {name : String} (h : s.Extends s') (hs : (s.get? name).isSome = true) :
    (s'.get? name).isSome = true := by
  obtain ⟨es, rfl⟩ := h
  exact isSome_get?_bindAll hs es

end Scope

namespace Leaf

variable {α β : Type}

def Extends (a : Act α) : Prop := ∀ t : Surroundings, t.scope.Extends (a t).2.scope

theorem Reads.extends {a : Act α} (h : Reads a) : Extends a := fun t => h t ▸ .refl _

namespace Extends

theorem pure (x : α) : Extends (Pure.pure x : Act α) := (Reads.pure x).extends

theorem throw (e : NodeError) : Extends (MonadExcept.throw e : Act α) := (Reads.throw e).extends

theorem throw_bind (e : NodeError) (f : α → Act β) : Extends (MonadExcept.throw e >>= f) :=
  fun t => .refl t.scope

theorem bind {a : Act α} {f : α → Act β} (ha : Extends a) (hf : ∀ x, Extends (f x)) :
    Extends (a >>= f) := by
  intro t
  have hscope := ha t
  rw [bind_apply]
  rcases hr : a t with ⟨x | x, t'⟩ <;> rw [hr] at hscope
  · exact hscope
  · exact hscope.trans (hf x t')

theorem rendered (text : String) : Extends (rendered text) := (Reads.rendered text).extends

theorem note (name : String) (v : Json) : Extends (note name v) :=
  fun t => t.scope.extends_bind name v

theorem assign (name : String) (v : Json) : Extends (assign name v) := by
  intro t
  rw [assign_apply, Scope.set]
  split
  · next s hs =>
    split at hs
    · cases hs
    · cases hs
      exact t.scope.extends_bind name v
  · exact .refl _

end Extends

theorem leaves_extend : HoldsOfLeaves Extends where
  reads := Reads.extends
  bind ha := .bind ha.extends
  store name v o := .bind (.assign name v) fun _ => .pure o

theorem exchange_extends (failed : HttpFault → NodeError) (r : Http.Request) :
    Extends (exchange failed r) := by
  intro t
  rw [exchange_apply]
  cases (t.outside.send r).1 with
  | none => exact .refl _
  | some reply => exact ⟨headNotes reply, rfl⟩

theorem bodyOf_extends (failed : HttpFault → NodeError) (reply : Http.Reply) :
    Extends (bodyOf failed reply) := by
  unfold bodyOf
  cases reply.body with
  | none => exact .throw _
  | some body =>
    refine .bind (.note lengthName _) fun _ => ?_
    cases Json.ofBytes? body with
    | none => exact .throw _
    | some v => exact .bind (.note bodyName v) fun _ => .pure v

theorem api_extends (c : ApiCall) : Extends (api c) := by
  refine .bind (.rendered c.url) fun url => .bind (.rendered c.payload) fun payload => ?_
  dsimp only
  split
  · exact .throw_bind _ _
  · refine .bind (Reads.built _ _ _ _ _).extends fun r => ?_
    refine .bind (exchange_extends _ r) fun reply => ?_
    exact .bind (bodyOf_extends _ reply) fun v => leaves_extend.store c.into _ _

theorem execute_extends (k : NodeKind) : Extends (execute k) := by
  by_cases hk : ∃ c, k = .api c
  · obtain ⟨c, rfl⟩ := hk
    exact api_extends c
  · exact leaves_extend.execute fun c hc => hk ⟨c, hc⟩

theorem perform_extends (k : NodeKind) (t : Surroundings) :
    t.scope.Extends (perform k t).2.scope :=
  execute_extends k t

end Leaf

end FlowGraph
