import FlowGraph.Proofs.Node.Growth

namespace FlowGraph

namespace NodeKind

/-- The variable that is bound to the output. -/
def target? : NodeKind → Option String
  | .setVariable name _ => some name
  | .text _ into | .list into _ | .getGuid into | .math _ into | .count _ into | .map _ _ into
  | .findAll _ _ into => some into
  | .replace r => some r.into
  | .api c => some c.into
  | _ => none

def noted : NodeKind → List String
  | .api _ => [Leaf.statusName, Leaf.headersName, Leaf.lengthName, Leaf.bodyName]
  | _ => []

end NodeKind

namespace Leaf

variable {α β : Type} {k : NodeKind} {s s' : Scope} {o : Outcome} {t t' : Surroundings}

/-- A leaf of kind `k` that succeeds with `o` turns the variables `s` into `s'`. -/
structure Writes (k : NodeKind) (s : Scope) (o : Outcome) (s' : Scope) : Prop where
  others : ∀ name, k.target? ≠ some name → name ∉ k.noted → s'.get? name = s.get? name
  target : ∀ name, k.target? = some name → ∃ v, o.output = some v ∧ s'.get? name = some v
  kept : ∀ name, (s.get? name).isSome = true → (s'.get? name).isSome = true
  blank : ∀ name, Text.blank name = true → s'.get? name = s.get? name

inductive Binds (names : List String) (s : Scope) (o : Outcome) : Option String → Scope → Prop
  | nothing : Binds names s o none s
  | target {into : String} {notes : List (String × Json)} {v : Json} :
    notes.map (·.1) = names → Text.blank into = false → o.output = some v →
    Binds names s o (some into) ((s.bindAll notes).bind into v)

theorem store_eq_ok {into : String} {v : Json} {r : Outcome} (h : (do
      assign into v
      return r : Act Outcome) t = (.ok o, t')) :
    o = r ∧ Text.blank into = false ∧ t'.scope = t.scope.bind into v := by
  obtain ⟨⟨⟩, t₁, hassign, hreturn⟩ := bind_eq_ok h
  cases hreturn
  rw [assign_apply, Scope.set] at hassign
  cases hblank : Text.blank into with
  | true =>
    rw [if_pos hblank] at hassign
    cases hassign
  | false =>
    rw [if_neg (by simp [hblank])] at hassign
    cases hassign
    exact ⟨rfl, rfl, rfl⟩

def Succeeds (a : Act α) (t : Surroundings) (Q : α → Scope → Prop) : Prop :=
  ∀ x t', a t = (.ok x, t') → Q x t'.scope

theorem Succeeds.bind {a : Act α} {f : α → Act β} {Q : β → Scope → Prop}
    (h : ∀ x t₁, a t = (.ok x, t₁) → Succeeds (f x) t₁ Q) : Succeeds (a >>= f) t Q := by
  intro y t' hy
  obtain ⟨x, t₁, hx, hrest⟩ := bind_eq_ok hy
  exact h x t₁ hx y t' hrest

def Stores (target : Option String) (a : Act Outcome) : Prop :=
  ∀ t, Succeeds a t fun o s => Binds [] t.scope o target s

namespace Stores

variable {target : Option String}

theorem of_reads {a : Act Outcome} (h : Reads a) : Stores none a := by
  intro t o t' ht
  rw [h.scope_eq ht]
  exact .nothing

theorem bind {a : Act α} {f : α → Act Outcome} (ha : Reads a) (hf : ∀ x, Stores target (f x)) :
    Stores target (a >>= f) := by
  intro t
  refine .bind fun x t₁ hx => ?_
  rw [← ha.scope_eq hx]
  exact hf x t₁

theorem store {into : String} {v : Json} {r : Outcome} (hr : r.output = some v) :
    Stores (some into) (do
      assign into v
      return r) := by
  intro t o t' ht
  obtain ⟨rfl, hblank, hscope⟩ := store_eq_ok ht
  rw [hscope]
  change Binds [] t.scope o (some into) ((t.scope.bindAll []).bind into v)
  exact .target rfl hblank hr

theorem math (expression into : String) : Stores (some into) (math expression into) := by
  refine bind (.rendered expression) fun text => ?_
  cases Expression.evaluateNumeric text with
  | error e => nofun
  | ok x => exact store rfl

theorem replace (r : Replacement) : Stores (some r.into) (replace r) := by
  refine bind (.rendered r.source) fun source => bind (.rendered r.pattern) fun p => ?_
  exact bind (.rendered r.replacement) fun replacement => bind (.pattern p) fun c => store rfl

theorem execute (hk : ∀ c, k ≠ .api c) : Stores k.target? (execute k) := by
  cases k with
  | plain | interval | webhook | events => exact of_reads (.pure _)
  | setVariable name v => exact store rfl
  | text message into => exact bind (.rendered message) fun _ => store rfl
  | condition expression => exact of_reads (condition_reads expression)
  | list into l => exact store rfl
  | log message => exact of_reads (.bind (.rendered message) fun _ => .pure _)
  | getGuid into => exact bind .get fun _ => bind (.outside _) fun _ => store rfl
  | math expression into => exact math expression into
  | count listVariable into => exact bind (.listNamed listVariable) fun _ => store rfl
  | map listVariable template into =>
    exact bind (.listNamed listVariable) fun _ => bind .scopeNow fun _ => store rfl
  | replace r => exact replace r
  | findAll source p into =>
    refine bind (.rendered source) fun source => bind (.rendered p) fun p => ?_
    exact bind (.pattern p) fun c => store rfl
  | api c => exact absurd rfl (hk c)
  | loop | forEach | whileHolds | subprocess | unknown => exact of_reads (.throw _)

end Stores

theorem exchange_eq_ok {failed : HttpFault → NodeError} {r : Http.Request} {reply : Http.Reply}
    (h : exchange failed r t = (.ok reply, t')) :
    t'.scope = t.scope.bindAll (headNotes reply) := by
  rw [exchange_apply] at h
  cases hsend : (t.outside.send r).1 with
  | none =>
    simp only [hsend] at h
    cases h
  | some reply =>
    simp only [hsend] at h
    cases h
    rfl

theorem bodyOf_eq_ok {failed : HttpFault → NodeError} {reply : Http.Reply} {v : Json}
    (h : bodyOf failed reply t = (.ok v, t')) : ∃ body : ByteArray,
    t'.scope = (t.scope.bind lengthName (.nat (reply.declared.getD body.size))).bind
      bodyName v := by
  rw [bodyOf_apply] at h
  cases hbody : reply.body with
  | none =>
    simp only [hbody] at h
    cases h
  | some body =>
    cases hjson : Json.ofBytes? body with
    | none =>
      simp only [hbody, hjson] at h
      cases h
    | some v =>
      simp only [hbody, hjson] at h
      cases h
      exact ⟨body, rfl⟩

theorem api_binds (c : ApiCall) (t : Surroundings) :
    Succeeds (api c) t fun o s => Binds (NodeKind.api c).noted t.scope o (some c.into) s := by
  refine .bind fun url t₁ hurl => .bind fun payload t₂ hpayload => ?_
  cases hurl
  cases hpayload
  dsimp only
  split
  · nofun
  · refine .bind fun r t₃ hr => .bind fun reply t₄ hreply => .bind fun v t₅ hv => ?_
    have hsame : t₃.scope = t.scope := (Reads.built _ _ _ _ _).scope_eq hr
    intro o t' h
    obtain ⟨rfl, hblank, hscope⟩ := store_eq_ok h
    obtain ⟨body, hbody⟩ := bodyOf_eq_ok hv
    rw [hscope, hbody, exchange_eq_ok hreply, hsame]
    change Binds _ _ _ _ ((t.scope.bindAll (bodyNotes reply body v)).bind c.into v)
    exact .target rfl hblank rfl

theorem perform_binds (h : perform k t = (.ok o, t')) :
    Binds k.noted t.scope o k.target? t'.scope := by
  -- only a request notes anything besides
  by_cases hk : ∃ c, k = .api c
  · obtain ⟨c, rfl⟩ := hk
    exact api_binds c t o t' h
  · have hnone : k.noted = [] := by
      cases k with
      | api c => exact absurd ⟨c, rfl⟩ hk
      | _ => rfl
    rw [hnone]
    exact Stores.execute (fun c hc => hk ⟨c, hc⟩) t o t' h

theorem nodup_noted (k : NodeKind) : k.noted.Nodup := by
  cases k with
  | api c =>
    show [statusName, headersName, lengthName, bodyName].Nodup
    decide
  | _ => exact List.nodup_nil

theorem not_blank_of_noted {name : String} (h : name ∈ k.noted) : Text.blank name = false := by
  have hnames : ∀ name ∈ [statusName, headersName, lengthName, bodyName],
      Text.blank name = false := by
    decide
  cases k with
  | api c => exact hnames name h
  | _ => cases h

theorem Binds.others {names : List String} {target : Option String}
    (h : Binds names s o target s') (hnames : names.Nodup) {name : String}
    (htarget : target ≠ some name) (hname : name ∉ names) : s'.get? name = s.get? name := by
  cases h with
  | nothing => rfl
  | @target into notes v hnotes =>
    subst hnotes
    have hinto : into ≠ name := fun heq => htarget (congrArg some heq)
    rw [Scope.get?_bind, if_neg hinto, Scope.get?_bindAll hnames, Entries.get?_of_not_mem hname,
      Option.none_or]

theorem Binds.not_blank {names : List String} {into : String}
    (h : Binds names s o (some into) s') : Text.blank into = false := by
  cases h with
  | target _ hblank => exact hblank

theorem perform_writes (h : perform k t = (.ok o, t')) : Writes k t.scope o t'.scope := by
  have hbinds := perform_binds h
  have hothers : ∀ name, k.target? ≠ some name → name ∉ k.noted →
      t'.scope.get? name = t.scope.get? name :=
    fun name htarget hname => hbinds.others (nodup_noted k) htarget hname
  refine ⟨hothers, fun name hname => ?_, fun name hname => ?_, fun name hblank => ?_⟩
  · rw [hname] at hbinds
    generalize t'.scope = s' at hbinds
    cases hbinds with
    | target _ _ hv => exact ⟨_, hv, by rw [Scope.get?_bind, if_pos rfl]⟩
  · have hgrown := perform_extends k t
    rw [h] at hgrown
    exact hgrown.isSome hname
  · apply hothers name
    · intro htarget
      rw [htarget] at hbinds
      rw [hbinds.not_blank] at hblank
      cases hblank
    · intro hnoted
      rw [not_blank_of_noted hnoted] at hblank
      cases hblank

end Leaf

end FlowGraph
