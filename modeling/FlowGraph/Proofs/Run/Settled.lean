import FlowGraph.Proofs.Node.Settled
import FlowGraph.Proofs.Run.Walk
import FlowGraph.Proofs.Workflow.Compiled

namespace FlowGraph

def Workflow.Settled (w : Workflow) : Prop := ∀ n ∈ w.nodes, n.data.Settled

instance (w : Workflow) : Decidable w.Settled :=
  inferInstanceAs (Decidable (∀ n ∈ w.nodes, n.data.Settled))

theorem Workflow.From.settled {w : Workflow} {P : Json → Prop} (h : w.From P) : w.Settled := by
  intro n hn
  obtain ⟨data, hdata, -, hfrom⟩ := h n hn
  exact NodeKind.settled_data hfrom hdata

namespace Run

def Engine.Settled (E : Engine) : Prop := ∀ id g, E.library id = some g → g.workflow.Settled

structure Context.Settled (c : Context) : Prop where
  scope : c.scope.Settled
  trace : ∀ x ∈ c.trace.toList, x.data.Settled

variable {ε δ α β : Type} {E : Engine} {visit : Visit} {g : Graph} {n : Node}

def Keeps (w : Walk ε α) (P : α → Prop) : Prop :=
  ∀ c r c', Context.Settled c → w c = some (r, c') → c'.Settled ∧ ∀ a, r = .ok a → P a

namespace Keeps

theorem pure {P : α → Prop} {a : α} (h : P a) : Keeps (Pure.pure a : Walk ε α) P := by
  intro c r c' hc hw
  cases hw
  refine ⟨hc, fun b hb => ?_⟩
  cases hb
  exact h

theorem throw {P : α → Prop} (e : ε) : Keeps (throw e : Walk ε α) P := by
  intro c r c' hc hw
  cases hw
  exact ⟨hc, nofun⟩

theorem throw_bind {P : β → Prop} (e : ε) (f : α → Walk ε β) :
    Keeps (MonadExcept.throw e >>= f) P := by
  intro c r c' hc h
  cases h
  exact ⟨hc, nofun⟩

theorem bind {P : α → Prop} {Q : β → Prop} {w : Walk ε α} {f : α → Walk ε β} (hw : Keeps w P)
    (hf : ∀ a, P a → Keeps (f a) Q) : Keeps (w >>= f) Q := by
  intro c r c' hc h
  rcases Walk.bind_eq_some.1 h with ⟨a, c₁, h₁, h₂⟩ | ⟨e, h₁, rfl⟩
  · obtain ⟨hc₁, ha⟩ := hw c _ c₁ hc h₁
    exact hf a (ha a rfl) c₁ r c' hc₁ h₂
  · exact ⟨(hw c _ c' hc h₁).1, nofun⟩

theorem failing {P : α → Prop} {f : ε → δ} {w : Walk ε α} (hw : Keeps w P) :
    Keeps (w.failing f) P := by
  intro c r c' hc h
  obtain ⟨s, hs, rfl⟩ := Walk.failing_eq_some.1 h
  obtain ⟨hc', ha⟩ := hw c s c' hc hs
  refine ⟨hc', fun a h => ?_⟩
  cases s with
  | ok b =>
    cases h
    exact ha a rfl
  | error e => cases h

theorem attempt {P : α → Prop} {w : Walk ε α} (hw : Keeps w P) :
    Keeps (w.attempt : Walk δ _) fun s => ∀ a, s = .ok a → P a := by
  intro c r c' hc h
  obtain ⟨s, hs, rfl⟩ := Walk.attempt_eq_some.1 h
  obtain ⟨hc', ha⟩ := hw c s c' hc hs
  refine ⟨hc', fun t ht => ?_⟩
  cases ht
  exact ha

theorem inCall {P : α → Prop} {w : Walk ε α} (hw : Keeps w P) : Keeps w.inCall P := by
  intro c r c' hc h
  obtain ⟨c₁, h₁, rfl⟩ := Walk.inCall_eq_some.1 h
  obtain ⟨hc₁, ha⟩ := hw { c with depth := c.depth + 1 } r c₁ ⟨hc.scope, hc.trace⟩ h₁
  exact ⟨⟨hc₁.scope, hc₁.trace⟩, ha⟩

theorem scope : Keeps (Walk.scope : Walk ε Scope) Scope.Settled := by
  intro c r c' hc h
  cases h
  refine ⟨hc, fun s hs => ?_⟩
  cases hs
  exact hc.scope

theorem depth : Keeps (Walk.depth : Walk ε Nat) fun _ => True := by
  intro c r c' hc h
  cases h
  exact ⟨hc, fun _ _ => trivial⟩

theorem mapScope {f : Scope → Scope} (hf : ∀ s : Scope, s.Settled → (f s).Settled) :
    Keeps (Walk.mapScope f : Walk ε Unit) fun _ => True := by
  intro c r c' hc h
  cases h
  exact ⟨⟨hf _ hc.scope, hc.trace⟩, fun _ _ => trivial⟩

theorem leaf {k : NodeKind} (hk : k.data.Settled) : Keeps (Walk.leaf (Leaf.perform k)) Outcome.Settled := by
  intro c r c' hc h
  cases h
  obtain ⟨hscope, ho⟩ := Leaf.perform_settled hk hc.scope
  exact ⟨⟨hscope, hc.trace⟩, ho⟩

theorem emit {data : Json} (hdata : data.Settled) (status : Status) (message : String) :
    Keeps (E.emit g n status message data : Walk ε Unit) fun _ => True := by
  intro c r c' hc h
  cases h
  refine ⟨⟨hc.scope, fun x hx => ?_⟩, fun _ _ => trivial⟩
  rw [Context.noted_trace, Array.toList_push] at hx
  rcases List.mem_append.1 hx with hx | hx
  · exact hc.trace x hx
  · rw [List.mem_singleton.1 hx]
    exact hdata

abbrev KeepsAll (w : Walk ε Unit) : Prop := Keeps w fun _ => True

theorem visitAll {ns : List Node} (h : ∀ m ∈ ns, KeepsAll (visit g m.id)) :
    KeepsAll (Engine.visitAll visit g ns) := by
  induction ns with
  | nil => exact pure trivial
  | cons m ns ih =>
    obtain ⟨hm, hns⟩ := List.forall_mem_cons.1 h
    exact bind hm fun _ _ => ih hns

theorem settled_counts (name : String) (i : Nat) : (Json.object [(name, .nat i)]).Settled :=
  Json.settled_object (by simp [Json.settled, Json.nat, Json.int])

section Body

variable (hbody : ∀ m ∈ g.next n.id .body, KeepsAll (visit g m.id))
include hbody

theorem pass {data : Json} (hdata : data.Settled) (message : String) :
    KeepsAll (E.pass visit g n message data) :=
  bind (emit hdata _ _) fun _ _ => failing (visitAll hbody)

theorem countedPasses (total done left : Nat) :
    KeepsAll (E.countedPasses visit g n total done left) := by
  induction left generalizing done with
  | zero => exact pure trivial
  | succ left ih => exact bind (pass hbody (settled_counts _ _) _) fun _ _ => ih (done + 1)

theorem itemPasses (itemName : String) (total done : Nat) {items : List Json}
    (h : ∀ x ∈ items, x.Settled) : KeepsAll (E.itemPasses visit g n itemName total done items) := by
  induction items generalizing done with
  | nil => exact pure trivial
  | cons item items ih =>
    obtain ⟨hitem, hitems⟩ := List.forall_mem_cons.1 h
    have hdata : (Json.object [("index", .nat done), ("item", item)]).Settled := by
      apply Json.settled_object
      simp only [List.map_cons, List.map_nil, List.forall_mem_cons]
      exact ⟨rfl, hitem, List.forall_mem_nil _⟩
    refine bind (mapScope fun s hs => (hs.bind hitem _).bind hitem _) fun _ _ => ?_
    exact bind (pass hbody hdata _) fun _ _ => ih (done + 1) hitems

omit hbody in
theorem condition (expression : String) : Keeps (Engine.condition expression) fun _ => True := by
  refine bind scope fun s _ => ?_
  dsimp only
  cases Expression.evaluateBoolean (Template.render expression s []) with
  | ok holds => exact pure trivial
  | error e => exact throw _

theorem conditionPasses (expression : String) (limit done left : Nat) :
    Keeps (E.conditionPasses visit g n expression limit done left) fun _ => True := by
  induction left generalizing done with
  | zero => exact bind (condition expression) fun _ _ => pure trivial
  | succ left ih =>
    refine bind (condition expression) fun ⟨text, holds⟩ _ => ?_
    have hdata : (Json.object [("iteration", .nat done), ("expression", .str text)]).Settled :=
      Json.settled_object (by simp [Json.settled, Json.nat, Json.int])
    cases holds with
    | true => exact bind (pass hbody hdata _) fun _ _ => ih (done + 1)
    | false => exact pure trivial

omit hbody in
theorem outcome_settled (b : Branch) (message : String) :
    Outcome.Settled ⟨b, none, message, none⟩ := ⟨nofun, nofun⟩

theorem forEach (listVariable : String) :
    Keeps (E.forEach visit g n listVariable) Outcome.Settled := by
  refine bind scope fun s hs => ?_
  cases hitems : s.list listVariable with
  | error fault => exact throw _
  | ok items =>
    exact bind (itemPasses hbody _ _ _ (hs.list hitems)) fun _ _ => pure (outcome_settled _ _)

omit hbody in
theorem call {id : String} (h : ∀ callee, E.library id = some callee → KeepsAll (visit callee entryId)) :
    Keeps (E.call visit g n id) Outcome.Settled := by
  have hdata : (Json.object [("subProcessId", .str id)]).Settled :=
    Json.settled_object (by simp [Json.settled])
  refine bind depth fun d _ => ?_
  dsimp only
  split
  · exact throw_bind _ _
  · cases hl : E.library id with
    | none => exact throw _
    | some callee =>
      refine bind (emit hdata _ _) fun _ _ => bind (failing (inCall (h callee hl))) fun _ _ => ?_
      exact pure (outcome_settled _ _)

theorem dispatch (hn : n.data.Settled)
    (hcall : ∀ id callee, E.library id = some callee → KeepsAll (visit callee entryId)) :
    Keeps (E.dispatch visit g n) Outcome.Settled := by
  unfold Engine.dispatch
  split
  · exact bind (countedPasses hbody _ _ _) fun _ _ => pure (outcome_settled _ _)
  · exact forEach hbody _
  · exact bind (conditionPasses hbody _ _ _ _) fun _ _ => pure (outcome_settled _ _)
  · exact call (hcall _)
  · exact failing (leaf hn)

end Body

theorem fail (hn : n.data.Settled) (f : Failure) : KeepsAll (E.fail g n f) := by
  cases f with
  | own cause => exact bind (emit hn _ _) fun _ _ => throw _
  | below a => exact bind (emit hn _ _) fun _ _ => throw _

theorem visitNode (hn : n.data.Settled) (hnext : ∀ b, ∀ m ∈ g.next n.id b, KeepsAll (visit g m.id))
    (hcall : ∀ id callee, E.library id = some callee → KeepsAll (visit callee entryId)) :
    KeepsAll (E.visitNode visit g n) := by
  refine bind (mapScope fun s hs => hs.promote) fun _ _ => bind (emit hn _ _) fun _ _ => ?_
  refine bind (attempt (dispatch (hnext .body) hn hcall)) fun s hs => ?_
  cases s with
  | ok o =>
    have ho := hs o rfl
    refine bind (bind (mapScope fun s hscope => ?_) fun _ _ => emit ?_ _ _) fun _ _ => visitAll (hnext _)
    · cases hout : o.output with
      | none => exact hscope
      | some v => exact hscope.bind (ho.output v hout) _
    · cases hsnap : o.snapshot with
      | none => exact hn
      | some v => exact ho.snapshot v hsnap
  | error f => exact fail hn f

end Keeps

theorem keeps_visit (hE : E.Settled) (hg : g.workflow.Settled) (fuel : Nat) (id : String) :
    Keeps (E.visit fuel g id) fun _ => True := by
  induction fuel generalizing g id with
  | zero => exact fun _ _ _ _ h => nomatch h
  | succ fuel ih =>
    unfold Engine.visit
    cases hn : g.node? id with
    | none => exact .pure trivial
    | some n =>
      obtain ⟨j, -, hj⟩ := Option.bind_eq_some_iff.1 hn
      exact .visitNode (hg n (List.mem_of_getElem? hj)) (fun _ m _ => ih hg m.id)
        fun name callee hl => ih (hE name callee hl) entryId

theorem run_settled (hE : E.Settled) (hg : g.workflow.Settled) {c c' : Context} {fuel : Nat}
    {r : Result} (hc : c.Settled) (h : E.run fuel g c = some (r, c')) : c'.Settled := by
  simp only [Engine.run] at h
  split at h
  · cases h
  · next s c₁ hvisit =>
    cases h
    exact (keeps_visit hE hg fuel entryId c s _ hc hvisit).1

end Run

end FlowGraph
