import FlowGraph.Proofs.Run.Tour

namespace FlowGraph.Run

def Halts {α : Type} (H : α → Except Abort Unit → Prop) (as : List α) : Except Abort Unit → Prop
  | .ok _ => ∀ a ∈ as, H a (.ok ())
  | .error e => ∃ before last, as = before ++ [last] ∧ (∀ a ∈ before, H a (.ok ())) ∧ H last (.error e)

theorem Chain.halts {κ α : Type} {R : κ → Context → α → Except Abort Unit → Context → Prop}
    {H : α → Except Abort Unit → Prop} {ks : List κ} {as : List α} {c c' : Context}
    {r : Except Abort Unit} (h : Chain R ks c as r c')
    (hR : ∀ {k c a r c'}, R k c a r c' → H a r) : Halts H as r := by
  induction h with
  | done c => exact fun a ha => absurd ha List.not_mem_nil
  | @next k ks c c₁ c₂ a as r ha _ ih =>
    cases r with
    | ok u => exact List.forall_mem_cons.2 ⟨hR ha, ih⟩
    | error e =>
      obtain ⟨before, last, rfl, hbefore, hlast⟩ := ih
      exact ⟨a :: before, last, rfl, List.forall_mem_cons.2 ⟨hR ha, hbefore⟩, hlast⟩
  | @cut k ks c c₁ a e ha => exact ⟨[], a, rfl, by simp, hR ha⟩

theorem Halts.forall_ok_iff {α : Type} {f : α → Except Abort Unit} {as : List α}
    {r : Except Abort Unit} (h : Halts (fun a r => f a = r) as r) :
    (∀ a ∈ as, f a = .ok ()) ↔ r = .ok () := by
  cases r with
  | ok u => exact ⟨fun _ => rfl, fun _ => h⟩
  | error e =>
    obtain ⟨before, last, rfl, -, hlast⟩ := h
    refine ⟨fun hall => ?_, nofun⟩
    cases hlast.symm.trans (hall last (by simp))

theorem Halts.exists_error_iff {α : Type} {f : α → Except Abort Unit} {as : List α}
    {r : Except Abort Unit} (h : Halts (fun a r => f a = r) as r) {e : Abort} :
    (∃ a ∈ as, f a = .error e) ↔ r = .error e := by
  cases r with
  | ok u =>
    refine ⟨?_, nofun⟩
    rintro ⟨a, ha, hfails⟩
    cases hfails.symm.trans (h a ha)
  | error e' =>
    obtain ⟨before, last, rfl, hbefore, hlast⟩ := h
    constructor
    · rintro ⟨a, ha, hfails⟩
      rcases List.mem_append.1 ha with ha | ha
      · cases hfails.symm.trans (hbefore a ha)
      · rw [← hlast, ← List.mem_singleton.1 ha, hfails]
    · intro he
      exact ⟨last, by simp, hlast.trans he⟩

abbrev VisitsHalt : List Tour → Except Abort Unit → Prop := Halts fun t r => t.result = r

abbrev RoundsHalt : List Round → Except Abort Unit → Prop := Halts fun p r => VisitsHalt p.visits r

variable {E : Engine} {g : Graph} {n : Node} {c c' : Context}

theorem visitsHalt {ns : List Node} {ts : List Tour} {r : Except Abort Unit}
    (h : Chain (Tour.Goes g) ns c ts r c') : VisitsHalt ts r :=
  h.halts fun ht => ht.result

theorem Round.IsPass.halts {p : Round} {r : Except Abort Unit} (h : p.IsPass E g n c r c') :
    VisitsHalt p.visits r := by
  obtain ⟨s, text, v, hp⟩ := h
  exact visitsHalt hp.visits

theorem Round.Calls.halts {id : String} {callee : Graph} {p : Round}
    (h : p.Calls E g n id callee c) : VisitsHalt p.visits p.result := by
  obtain ⟨-, -, -, t, entry, hvisits, -, ht, -⟩ := h
  rw [hvisits, ← ht.result]
  cases hr : t.result with
  | ok u => exact fun v hv => by simp_all
  | error a => exact ⟨[], t, rfl, by simp, hr⟩

theorem Shape.halts {k : NodeKind} {ps : List Round} {ending : Except Failure Outcome}
    (h : Shape E g n k c ps ending c') : ∃ r, Ends r ending ∧ RoundsHalt ps r := by
  cases h with
  | alone s hends => exact ⟨.ok (), hends, by simp [Halts]⟩
  | passes _ h hends => exact ⟨_, hends, h.halts fun hp => hp.halts⟩
  | @call _ _ p _ _ hp hends =>
    refine ⟨p.result, hends, ?_⟩
    have := hp.halts
    cases hr : p.result with
    | ok u => simpa [Halts, hr] using this
    | error a =>
      rw [hr] at this
      exact ⟨[], p, rfl, by simp, this⟩

inductive Tour.Stops (t : Tour) : Prop
  | onward (o : Outcome) : t.ending = .ok o → RoundsHalt t.rounds (.ok ()) →
    VisitsHalt t.onward t.result → Stops t
  | own (cause : NodeError) : t.ending = .error (.own cause) → RoundsHalt t.rounds (.ok ()) →
    t.onward = [] → t.result = .error ⟨t.graph.id, t.node.id, cause⟩ → Stops t
  | below (a : Abort) : t.ending = .error (.below a) → RoundsHalt t.rounds (.error a) →
    t.onward = [] → t.result = .error a → Stops t

theorem Tour.Lawful.stops {t : Tour} (h : t.Lawful E) : t.Stops := by
  obtain ⟨r, hends, hrounds⟩ := h.works.shape.halts
  have hcont := h.continues
  unfold Tour.Continues at hcont
  cases hending : t.ending with
  | ok o =>
    simp only [hending] at hcont hends
    cases r with
    | ok u => exact .onward o hending hrounds (visitsHalt hcont)
    | error a => cases hends
  | error e =>
    simp only [hending] at hcont hends
    obtain ⟨honward, hresult, -⟩ := hcont
    cases e with
    | own cause =>
      cases r with
      | ok u => exact .own cause hending hrounds honward hresult
      | error a => cases hends
    | below a =>
      cases r with
      | ok u => exact absurd rfl (hends a)
      | error b =>
        cases hends
        exact .below a hending hrounds honward hresult

end FlowGraph.Run
