import FlowGraph.Proofs.Run.Tour
/-!
What every stretch of a run does to a context. A property of stretches that holds of one record, of
a change of the scope and of a change of the depth, and that carries over from parts to the whole,
holds of every lawful tour.
-/

namespace FlowGraph.Run

namespace Chain

variable {κ α : Type} {R : κ → Context → α → Except Abort Unit → Context → Prop} {ks : List κ}
  {as : List α} {c c' : Context} {r : Except Abort Unit}

theorem length_le (h : Chain R ks c as r c') : as.length ≤ ks.length := by
  induction h with
  | done c => exact Nat.le_refl 0
  | next hR h ih => exact Nat.succ_le_succ ih
  | cut hR => exact Nat.succ_le_succ (Nat.zero_le _)

theorem length_eq (h : Chain R ks c as (.ok ()) c') : as.length = ks.length := by
  generalize hr : Except.ok () = r at h
  induction h with
  | done c => rfl
  | next hR h ih => rw [List.length_cons, List.length_cons, ih hr]
  | cut hR => cases hr

end Chain

structure Stepwise (E : Engine) (P : Context → List Record → Context → Prop) : Prop where
  none (c : Context) : P c [] c
  append {c c₁ c₂ : Context} {rs rs' : List Record} : P c rs c₁ → P c₁ rs' c₂ → P c (rs ++ rs') c₂
  note (g : Graph) (n : Node) (status : Status) (message : String) (data : Json) (c : Context) :
    P c [E.record g n status message data c] (E.noted g n status message data c)
  surround (c : Context) (s : Surroundings) : P c [] { c with toSurroundings := s }
  deepen (c : Context) (depth : Nat) : P c [] { c with depth := depth }

namespace Stepwise

variable {E : Engine} {P : Context → List Record → Context → Prop} {g : Graph} {n : Node}
  {c c' : Context} {r : Except Abort Unit}

theorem entered (hP : Stepwise E P) (g : Graph) (n : Node) (c : Context) :
    P c [E.opening g n c] (E.entered g n c) :=
  hP.append (hP.surround c { c.toSurroundings with scope := c.scope.promote }) (hP.note ..)

theorem closed (hP : Stepwise E P) (g : Graph) (n : Node) (ending : Except Failure Outcome)
    (c : Context) : P c [E.closing g n ending c] (E.closed g n ending c) := by
  cases ending with
  | ok o => exact hP.append (hP.surround c
      { c.toSurroundings with scope := o.output.elim c.scope c.scope.setOutput }) (hP.note ..)
  | error e => exact hP.note ..

theorem tours (hP : Stepwise E P) {ns : List Node} {ts : List Tour}
    (h : Chain (Tour.Goes g) ns c ts r c') (hts : ∀ t ∈ ts, P t.start (t.records E) t.finish) :
    P c (tourRecords E ts) c' := by
  induction h with
  | done c => exact hP.none c
  | next ht h ih =>
    obtain ⟨hfirst, hrest⟩ := List.forall_mem_cons.1 hts
    rw [ht.start, ht.finish] at hfirst
    exact hP.append hfirst (ih hrest)
  | cut ht =>
    have hfirst := hts _ List.mem_cons_self
    rw [ht.start, ht.finish] at hfirst
    exact hP.append hfirst (hP.none _)

theorem passes (hP : Stepwise E P) {text : String} {v : Json} {p : Round}
    (h : p.Passes E g n c text v r c') (hp : ∀ t ∈ p.visits, P t.start (t.records E) t.finish) :
    P c (p.records E g n) c' := by
  rw [Round.records_eq, h.begun, h.message, h.data]
  exact hP.append (hP.note g n .info text v c) (hP.tours h.visits hp)

theorem calls (hP : Stepwise E P) {id : String} {callee : Graph} {p : Round}
    (h : p.Calls E g n id callee c) (hp : ∀ t ∈ p.visits, P t.start (t.records E) t.finish) :
    P c (p.records E g n) p.finish := by
  obtain ⟨hbegun, -, -, t, entry, hvisits, -, ht, hfinish⟩ := h
  have hvisit := hp t (by simp [hvisits])
  rw [ht.start] at hvisit
  rw [Round.records_eq, hbegun, hvisits, hfinish]
  refine hP.append (hP.note g n .info p.message p.data c) ?_
  have := hP.append (hP.append (hP.deepen _ _) hvisit) (hP.deepen t.finish (t.finish.depth - 1))
  simpa [tourRecords] using this

theorem isPass (hP : Stepwise E P) {p : Round} (h : p.IsPass E g n c r c')
    (hp : ∀ t ∈ p.visits, P t.start (t.records E) t.finish) : P c (p.records E g n) c' := by
  obtain ⟨s, text, v, h⟩ := h
  exact hP.append (hP.surround c s) (hP.passes h hp)

theorem rounds (hP : Stepwise E P) {κ : Type} {ks : List κ} {ps : List Round}
    (h : Chain (fun _ => Round.IsPass E g n) ks c ps r c')
    (hps : ∀ p ∈ ps, ∀ t ∈ p.visits, P t.start (t.records E) t.finish) :
    P c (roundRecords E g n ps) c' := by
  induction h with
  | done c => exact hP.none c
  | next hp h ih =>
    obtain ⟨hfirst, hrest⟩ := List.forall_mem_cons.1 hps
    exact hP.append (hP.isPass hp hfirst) (ih hrest)
  | cut hp => exact hP.append (hP.isPass hp (hps _ List.mem_cons_self)) (hP.none _)

theorem works (hP : Stepwise E P) {k : NodeKind} {ps : List Round}
    {ending : Except Failure Outcome} (h : Shape E g n k c ps ending c')
    (hps : ∀ p ∈ ps, ∀ t ∈ p.visits, P t.start (t.records E) t.finish) :
    P c (roundRecords E g n ps) c' := by
  cases h with
  | alone s => exact hP.surround c s
  | passes _ h => exact hP.rounds h hps
  | call _ h =>
    have := hP.calls h (hps _ List.mem_cons_self)
    simpa [roundRecords] using this

theorem starts (hP : Stepwise E P) {ns : List Node} {ts : List Tour}
    (h : Chain (Tour.Goes g) ns c ts r c') (hts : ∀ t ∈ ts, P t.start (t.records E) t.finish) :
    ∀ t ∈ ts, ∃ rs, P c rs t.start := by
  induction h with
  | done c => simp
  | next ht h ih =>
    obtain ⟨hfirst, hrest⟩ := List.forall_mem_cons.1 hts
    rw [ht.start, ht.finish] at hfirst
    refine List.forall_mem_cons.2 ⟨⟨[], ht.start ▸ hP.none _⟩, fun u hu => ?_⟩
    obtain ⟨rs, hrs⟩ := ih hrest u hu
    exact ⟨_, hP.append hfirst hrs⟩
  | cut ht => simpa using ⟨[], ht.start ▸ hP.none _⟩

theorem isPass_inside (hP : Stepwise E P) {p : Round} (h : p.IsPass E g n c r c')
    (hp : ∀ t ∈ p.visits, P t.start (t.records E) t.finish) :
    (∃ rs, P c rs p.begun) ∧ ∀ t ∈ p.visits, ∃ rs, P c rs t.start := by
  obtain ⟨s, text, v, h⟩ := h
  refine ⟨⟨[], h.begun ▸ hP.surround c s⟩, fun t ht => ?_⟩
  obtain ⟨rs, hrs⟩ := hP.starts h.visits hp t ht
  exact ⟨_, hP.append (hP.surround c s) (hP.append (hP.note ..) hrs)⟩

theorem calls_inside (hP : Stepwise E P) {id : String} {callee : Graph} {p : Round}
    (h : p.Calls E g n id callee c) :
    (∃ rs, P c rs p.begun) ∧ ∀ t ∈ p.visits, ∃ rs, P c rs t.start := by
  obtain ⟨hbegun, -, -, t, entry, hvisits, -, ht, -⟩ := h
  refine ⟨⟨[], hbegun ▸ hP.none _⟩, fun u hu => ?_⟩
  obtain rfl : u = t := by simpa [hvisits] using hu
  rw [ht.start]
  exact ⟨_, hP.append (hP.note g n .info p.message p.data c) (hP.deepen _ _)⟩

theorem works_inside (hP : Stepwise E P) {k : NodeKind} {ps : List Round}
    {ending : Except Failure Outcome} (h : Shape E g n k c ps ending c')
    (hps : ∀ p ∈ ps, ∀ t ∈ p.visits, P t.start (t.records E) t.finish) :
    ∀ p ∈ ps, (∃ rs, P c rs p.begun) ∧ ∀ t ∈ p.visits, ∃ rs, P c rs t.start := by
  cases h with
  | alone s => simp
  | passes _ h hends =>
    clear hends
    induction h with
    | done c => simp
    | next hp h ih =>
      obtain ⟨hfirst, hrest⟩ := List.forall_mem_cons.1 hps
      refine List.forall_mem_cons.2 ⟨hP.isPass_inside hp hfirst, fun q hq => ?_⟩
      have hto := hP.isPass hp hfirst
      obtain ⟨⟨rs, hrs⟩, hvisits⟩ := ih hrest q hq
      refine ⟨⟨_, hP.append hto hrs⟩, fun t ht => ?_⟩
      obtain ⟨rs, hrs⟩ := hvisits t ht
      exact ⟨_, hP.append hto hrs⟩
    | cut hp => simpa using hP.isPass_inside hp (hps _ List.mem_cons_self)
  | call _ h => simpa using hP.calls_inside h

end Stepwise

theorem Tour.Lawful.stepwise {E : Engine} {P : Context → List Record → Context → Prop}
    (hP : Stepwise E P) {t : Tour} (h : t.Lawful E) : P t.start (t.records E) t.finish := by
  induction h with
  | @intro t hworks hcont _ _ ihrounds ihonward =>
    rw [Tour.records_eq]
    refine hP.append (hP.entered t.graph t.node t.start) (hP.append (hP.works hworks.shape ihrounds)
      (hP.append (hP.closed t.graph t.node t.ending t.worked) ?_))
    unfold Tour.Continues at hcont
    split at hcont
    · exact hP.tours hcont ihonward
    · obtain ⟨honward, -, hfinish⟩ := hcont
      rw [honward, hfinish]
      exact hP.none _

structure Adds (c : Context) (rs : List Record) (c' : Context) : Prop where
  trace : c'.trace.toList = c.trace.toList ++ rs
  processId : c'.processId = c.processId
  workflowId : c'.workflowId = c.workflowId
  numbered : rs.map (·.sequence) = List.range' c.trace.size rs.length
  named : ∀ r ∈ rs, r.processId = c.processId ∧ r.workflowId = c.workflowId

theorem Adds.same {c c' : Context} (ht : c'.trace = c.trace) (hp : c'.processId = c.processId)
    (hw : c'.workflowId = c.workflowId) : Adds c [] c' :=
  ⟨by rw [ht, List.append_nil], hp, hw, rfl, by simp⟩

theorem stepwise_adds (E : Engine) : Stepwise E Adds where
  none c := .same rfl rfl rfl
  append {c c₁ c₂ rs rs'} h h' := by
    have hsize : c₁.trace.size = c.trace.size + rs.length := by
      rw [← Array.length_toList, h.trace, List.length_append, Array.length_toList]
    refine ⟨?_, h'.processId.trans h.processId, h'.workflowId.trans h.workflowId, ?_, fun r hr => ?_⟩
    · rw [h'.trace, h.trace, List.append_assoc]
    · rw [List.map_append, h.numbered, h'.numbered, hsize, List.length_append, List.range'_append_1]
    · rcases List.mem_append.1 hr with hr | hr
      · exact h.named r hr
      · rw [← h.processId, ← h.workflowId]
        exact h'.named r hr
  note g n status message data c :=
    ⟨by simp [Engine.noted], rfl, rfl, by simp [Engine.record, c.numbered], by simp [Engine.record]⟩
  surround c s := .same rfl rfl rfl
  deepen c depth := .same rfl rfl rfl

theorem Tour.Lawful.trace {E : Engine} {t : Tour} (h : t.Lawful E) (hstart : t.start.trace = #[]) :
    t.finish.trace.toList = t.records E := by
  have hadds := (h.stepwise (stepwise_adds E)).trace
  rw [hstart] at hadds
  exact hadds

theorem Tour.Lawful.trace_of_goes {E : Engine} {g : Graph} {n : Node} {t : Tour} (h : t.Lawful E)
    {processId workflowId : String} {trigger : Trigger} {scope : Scope} {outside : Outside}
    {moment : Instant} {r : Except Abort Unit} {c : Context}
    (ht : t.Goes g n (.start processId workflowId trigger scope outside moment) r c) :
    c.trace.toList = t.records E := by
  have htrace := h.trace (by rw [ht.start]; rfl)
  rw [ht.finish] at htrace
  exact htrace

end FlowGraph.Run
