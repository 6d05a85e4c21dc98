import FlowGraph.Node.Leaf
import FlowGraph.Proofs.Workflow.RoundTrip

namespace FlowGraph

open Json (settled_object)

theorem Json.Settled.of_parse {s : String} {v : Json} (h : parse s = some v) : v.Settled := by
  obtain ⟨w, -, rfl⟩ := Option.map_eq_some_iff.1 h
  exact w.settled_settled

theorem Json.Settled.of_ofBytes {b : ByteArray} {v : Json} (h : ofBytes? b = some v) :
    v.Settled := by
  obtain ⟨s, -, h⟩ := Option.bind_eq_some_iff.1 h
  exact .of_parse h

namespace Scope

def Settled (s : Scope) : Prop := ∀ name v, s.get? name = some v → v.Settled

theorem Settled.bind {s : Scope} {v : Json} (h : s.Settled) (hv : v.Settled) (name : String) :
    (s.bind name v).Settled := by
  intro other w hw
  rw [get?_bind] at hw
  split at hw
  · cases hw
    exact hv
  · exact h other w hw

theorem settled_initial : initial.Settled := by
  have hempty : Settled ⟨.empty⟩ := nofun
  have hblank : (Json.str "").Settled := rfl
  exact (hempty.bind hblank inputName).bind hblank outputName

theorem Settled.set {s t : Scope} {v : Json} {name : String} (h : s.Settled) (hv : v.Settled)
    (ht : s.set name v = .ok t) : t.Settled := by
  unfold Scope.set at ht
  split at ht
  · cases ht
  · cases ht
    exact h.bind hv name

theorem Settled.promote {s : Scope} (h : s.Settled) : s.promote.Settled := by
  have hv : (s.output.getD (.str "")).Settled := by
    cases ho : s.output with
    | none => rfl
    | some v => exact h outputName v ho
  exact (h.bind hv inputName).bind hv currentName

theorem Settled.list {s : Scope} {name : String} {items : List Json} (h : s.Settled)
    (hitems : s.list name = .ok items) : ∀ x ∈ items, x.Settled := by
  unfold Scope.list at hitems
  split at hitems
  · next heq =>
    cases hitems
    exact fun x hx => (h name _ heq).member hx
  · cases hitems
  · cases hitems

end Scope

structure Outcome.Settled (o : Outcome) : Prop where
  output : ∀ v, o.output = some v → v.Settled
  snapshot : ∀ v, o.snapshot = some v → v.Settled

namespace Leaf

variable {α β : Type}

def Keeps (a : Act α) (P : α → Prop) : Prop :=
  ∀ t, t.scope.Settled → (a t).2.scope.Settled ∧ ∀ x, (a t).1 = .ok x → P x

theorem Keeps.pure {P : α → Prop} {x : α} (h : P x) : Keeps (Pure.pure x : Act α) P := by
  intro t ht
  refine ⟨ht, fun y hy => ?_⟩
  cases hy
  exact h

theorem Keeps.throw {P : α → Prop} (e : NodeError) : Keeps (throw e : Act α) P :=
  fun _ ht => ⟨ht, nofun⟩

theorem Keeps.bind {P : α → Prop} {Q : β → Prop} {a : Act α} {f : α → Act β} (ha : Keeps a P)
    (hf : ∀ x, P x → Keeps (f x) Q) : Keeps (a >>= f) Q := by
  intro t ht
  obtain ⟨hscope, hx⟩ := ha t ht
  change (ExceptT.bindCont f (a t).1 (a t).2).2.scope.Settled ∧
    ∀ y, (ExceptT.bindCont f (a t).1 (a t).2).1 = .ok y → Q y
  cases hr : (a t).1 with
  | ok x => exact hf x (hx x hr) _ hscope
  | error e => exact ⟨hscope, nofun⟩

theorem Keeps.throw_bind {Q : β → Prop} (e : NodeError) (f : α → Act β) :
    Keeps (MonadExcept.throw e >>= f) Q :=
  fun _ ht => ⟨ht, nofun⟩

theorem scopeNow_keeps : Keeps scopeNow Scope.Settled := by
  intro t ht
  refine ⟨ht, fun s hs => ?_⟩
  cases hs
  exact ht

theorem rendered_keeps (t : String) : Keeps (rendered t) fun _ => True :=
  scopeNow_keeps.bind fun _ _ => .pure trivial

theorem ofScope_keeps {r : Except Scope.Fault α} {P : α → Prop} (h : ∀ x, r = .ok x → P x) :
    Keeps (ofScope r) P := by
  cases r with
  | ok x => exact .pure (h x rfl)
  | error f => exact .throw _

theorem assign_keeps {v : Json} (hv : v.Settled) (name : String) :
    Keeps (assign name v) fun _ => True := by
  refine scopeNow_keeps.bind fun s hs => ?_
  refine (ofScope_keeps fun t ht => hs.set hv ht).bind fun t ht => ?_
  exact fun u _ => ⟨ht, fun _ _ => trivial⟩

theorem note_keeps {v : Json} (hv : v.Settled) (name : String) :
    Keeps (note name v) fun _ => True :=
  fun _ ht => ⟨ht.bind hv name, fun _ _ => trivial⟩

theorem listNamed_keeps (name : String) : Keeps (listNamed name) fun items => ∀ x ∈ items, x.Settled :=
  scopeNow_keeps.bind fun _ hs => ofScope_keeps fun _ hitems => hs.list hitems

theorem passed_settled (message : String) : (passed message).Settled := ⟨nofun, nofun⟩

theorem stored_settled {v : Json} (hv : v.Settled) (message : String) : (stored v message).Settled := by
  refine ⟨fun w hw => ?_, nofun⟩
  cases hw
  exact hv

theorem showing_settled {o : Outcome} {k : NodeKind} (ho : o.Settled) (hk : k.data.Settled) :
    (Outcome.showing o k).Settled := by
  refine ⟨ho.output, fun w hw => ?_⟩
  cases hw
  exact hk

theorem mapItem_settled (template : String) (s : Scope) (item : Json) :
    (mapItem template s item).Settled := by
  unfold mapItem
  dsimp only
  cases hp : Json.parse (Template.render template s (itemFields item)) with
  | none => rfl
  | some v => exact .of_parse hp

theorem settled_str (s : String) : (Json.str s).Settled := rfl

theorem settled_nat (n : Nat) : (Json.nat n).Settled := rfl

theorem settled_float (x : Float) : (Json.float x).Settled := rfl

theorem settled_data {k : NodeKind} (h : k.From .null) : k.data.Settled := NodeKind.settled_data h rfl

theorem settled_items (l : TypedList) : (Json.arr l.items).Settled := by
  apply Json.Settled.arr
  unfold TypedList.items
  split <;> simp only [List.forall_mem_map]
  · exact fun s _ => rfl
  · exact fun i _ => rfl
  · exact fun b _ => rfl
  · exact fun kv _ => kv.settled_toJson

theorem store_keeps {v : Json} (hv : v.Settled) (into message : String) {k : NodeKind}
    (hk : k.data.Settled) : Keeps (do
      assign into v
      return Outcome.showing (stored v message) k) Outcome.Settled :=
  (assign_keeps hv into).bind fun _ _ => .pure (showing_settled (stored_settled hv message) hk)

theorem setVariable_keeps {name : String} {v : Json} (h : (NodeKind.setVariable name v).data.Settled) :
    Keeps (setVariable name v) Outcome.Settled := by
  have hfields : Entries.ofList [("name", Json.str name), ("value", v)] =
      [("name", .str name), ("value", v)] :=
    Entries.ofList_of_ascending (List.pairwise_pair.2 (show "name" < "value" by decide))
  have hv : v.Settled := by
    apply h.member
    change v ∈ (Entries.ofList _).map (·.2)
    rw [hfields]
    simp
  exact (assign_keeps hv name).bind fun _ _ => .pure (stored_settled hv _)

theorem condition_keeps (expression : String) : Keeps (condition expression) Outcome.Settled := by
  refine (rendered_keeps expression).bind fun t _ => ?_
  have hsnapshot : (NodeKind.condition t).data.Settled := settled_data trivial
  have hdone : ∀ holds message (b : Branch),
      Keeps (Pure.pure ⟨b, some (.bool holds), message, some (NodeKind.condition t).data⟩)
        Outcome.Settled := by
    intro holds message b
    refine .pure ⟨fun v hv => ?_, fun v hv => ?_⟩
    · cases hv
      rfl
    · cases hv
      exact hsnapshot
  dsimp only
  split
  · exact .throw_bind _ _
  · exact hdone _ _ _

theorem get_keeps : Keeps (get : Act Surroundings) fun _ => True := fun _ ht => ⟨ht, fun _ _ => trivial⟩

theorem outside_keeps (o : Outside) :
    Keeps (modify fun t => { t with outside := o } : Act Unit) fun _ => True :=
  fun _ ht => ⟨ht, fun _ _ => trivial⟩

theorem getGuid_keeps (into : String) : Keeps (getGuid into) Outcome.Settled := by
  refine get_keeps.bind fun t _ => (outside_keeps _).bind fun _ _ => ?_
  exact (assign_keeps (settled_str _) into).bind fun _ _ => .pure (stored_settled (settled_str _) _)

theorem math_keeps (expression into : String) : Keeps (math expression into) Outcome.Settled := by
  refine (rendered_keeps expression).bind fun t _ => ?_
  cases Expression.evaluateNumeric t with
  | error e => exact .throw _
  | ok x => exact store_keeps (settled_float x) _ _ (settled_data trivial)

theorem count_keeps (listVariable into : String) :
    Keeps (count listVariable into) Outcome.Settled := by
  refine (listNamed_keeps listVariable).bind fun items _ => ?_
  have hn := settled_nat items.length
  exact (assign_keeps hn into).bind fun _ _ => .pure (stored_settled hn _)

theorem map_keeps (listVariable template into : String) :
    Keeps (map listVariable template into) Outcome.Settled := by
  refine (listNamed_keeps listVariable).bind fun items _ => scopeNow_keeps.bind fun s _ => ?_
  have hv : (Json.arr (items.map (mapItem template s))).Settled :=
    .arr (List.forall_mem_map.2 fun item _ => mapItem_settled template s item)
  exact (assign_keeps hv into).bind fun _ _ => .pure (stored_settled hv _)

theorem pattern_keeps (p : String) : Keeps (pattern p) fun _ => True := by
  refine get_keeps.bind fun t _ => ?_
  cases t.outside.compile p with
  | none => exact .throw _
  | some c => exact .pure trivial

theorem replace_keeps (r : Replacement) : Keeps (replace r) Outcome.Settled := by
  refine (rendered_keeps r.source).bind fun source _ => ?_
  refine (rendered_keeps r.pattern).bind fun p _ => ?_
  refine (rendered_keeps r.replacement).bind fun replacement _ => ?_
  refine (pattern_keeps p).bind fun c _ => ?_
  exact store_keeps (settled_str _) _ _ (settled_data trivial)

theorem findAll_keeps (source p into : String) : Keeps (findAll source p into) Outcome.Settled := by
  refine (rendered_keeps source).bind fun source _ => (rendered_keeps p).bind fun p _ => ?_
  refine (pattern_keeps p).bind fun c _ => ?_
  have hv : (Json.strings (c.findAll source)).Settled :=
    .arr (List.forall_mem_map.2 fun s _ => settled_str s)
  exact store_keeps hv _ _ (settled_data trivial)

theorem built_keeps (failed : HttpFault → NodeError) (method url : String)
    (headers : List KeyValue) (payload : String) :
    Keeps (built failed method url headers payload) fun _ => True := by
  refine get_keeps.bind fun t _ => ?_
  generalize t.outside.build method url _ _ = r
  cases r with
  | none => exact .throw _
  | some r => exact .pure trivial

theorem exchange_keeps (failed : HttpFault → NodeError) (r : Http.Request) :
    Keeps (exchange failed r) fun _ => True := by
  refine get_keeps.bind fun t _ => ?_
  generalize t.outside.send r = sent
  obtain ⟨answer, outside⟩ := sent
  refine (outside_keeps outside).bind fun _ _ => ?_
  cases answer with
  | none => exact .throw _
  | some reply =>
    refine (note_keeps (settled_nat _) statusName).bind fun _ _ => ?_
    have hheaders : (Json.object (reply.headers.map fun e => (e.1, .str e.2))).Settled := by
      apply settled_object
      rw [List.map_map, List.forall_mem_map]
      exact fun h _ => settled_str h.2
    exact (note_keeps hheaders headersName).bind fun _ _ => .pure trivial

theorem bodyOf_keeps (failed : HttpFault → NodeError) (reply : Http.Reply) :
    Keeps (bodyOf failed reply) Json.Settled := by
  unfold bodyOf
  cases reply.body with
  | none => exact .throw _
  | some body =>
    refine (note_keeps (settled_nat _) lengthName).bind fun _ _ => ?_
    cases hp : Json.ofBytes? body with
    | none => exact .throw _
    | some v => exact (note_keeps (.of_ofBytes hp) bodyName).bind fun _ _ => .pure (.of_ofBytes hp)

theorem api_keeps (c : ApiCall) : Keeps (api c) Outcome.Settled := by
  refine (rendered_keeps c.url).bind fun url _ => (rendered_keeps c.payload).bind fun payload _ => ?_
  dsimp only
  split
  · exact .throw_bind _ _
  · refine (built_keeps _ _ _ _ _).bind fun r _ => (exchange_keeps _ r).bind fun reply _ => ?_
    refine (bodyOf_keeps _ reply).bind fun v hv => ?_
    exact store_keeps hv _ _ (settled_data trivial)

theorem execute_keeps {k : NodeKind} (hk : k.data.Settled) : Keeps (execute k) Outcome.Settled := by
  cases k with
  | plain | interval | webhook | events => exact .pure (passed_settled _)
  | setVariable name v => exact setVariable_keeps hk
  | text message into =>
    exact (rendered_keeps message).bind fun _ _ => store_keeps (settled_str _) _ _ (settled_data trivial)
  | condition expression => exact condition_keeps expression
  | list into l =>
    exact (assign_keeps (settled_items l) into).bind fun _ _ => .pure (stored_settled (settled_items l) _)
  | log message =>
    exact (rendered_keeps message).bind fun _ _ =>
      .pure (showing_settled (passed_settled _) (settled_data trivial))
  | getGuid into => exact getGuid_keeps into
  | math expression into => exact math_keeps expression into
  | count listVariable into => exact count_keeps listVariable into
  | map listVariable template into => exact map_keeps listVariable template into
  | replace r => exact replace_keeps r
  | findAll source pattern into => exact findAll_keeps source pattern into
  | api c => exact api_keeps c
  | loop | forEach | whileHolds | subprocess | unknown => exact .throw _

theorem perform_settled {k : NodeKind} (hk : k.data.Settled) {t : Surroundings}
    (ht : t.scope.Settled) :
    (perform k t).2.scope.Settled ∧ ∀ o, (perform k t).1 = .ok o → o.Settled :=
  execute_keeps hk t ht

end Leaf

end FlowGraph
