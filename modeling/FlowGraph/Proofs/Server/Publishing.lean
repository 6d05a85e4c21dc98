import FlowGraph.Platform
import FlowGraph.Proofs.Keyed
import FlowGraph.Proofs.Workflow.Compiled
import FlowGraph.Server.Handlers
import Mathlib.Data.List.Nodup
import Mathlib.Logic.Function.Basic
import Mathlib.Logic.Relation
/-!
Calls that publish a registry, in any interleaving of their steps. A call publishes what it has
computed from the registry that it has read, and with it drops whatever others have published since.
-/

namespace FlowGraph

open Relation

/-- One of several computations takes its next step. -/
inductive Steps.Move {σ α ι : Type} [DecidableEq ι] (i : ι) :
    (ι → Steps σ α) × σ → (ι → Steps σ α) × σ → Prop
  | step {x : (ι → Steps σ α) × σ} {β : Type} {act : σ → β × σ} {next : β → Steps σ α}
      (h : x.1 i = .step act next) :
      Move i x (Function.update x.1 i (next (act x.2).1), (act x.2).2)

namespace Server

abbrev Call := Steps Server (Except (Option Reply) Unit)

inductive Update where
  | insert (g : Graph)
  | remove (id : String)

namespace Update

def call : Update → Call
  | insert g => (publish g).run
  | remove id => (withdraw id).run

def perform (r : Registry) : Update → Registry
  | insert g => r.publish g
  | remove id => r.erase id

def afterRead (u : Update) (known : Registry) : Call :=
  let publishing : Call :=
    .step (fun s => ((), { s with registry := u.perform known })) fun _ => .done (.ok ())
  match u with
  | insert _ => publishing
  | remove id => if known.contains id then publishing else .done (.ok ())

theorem call_eq (u : Update) : u.call = .step (fun s => (s.registry, s)) u.afterRead := by
  cases u <;> rfl

theorem afterRead_eq (u : Update) (known : Registry) :
    (u.afterRead known = .done (.ok ()) ∧ u.perform known = known) ∨
      u.afterRead known =
        .step (fun s => ((), { s with registry := u.perform known })) fun _ => .done (.ok ()) := by
  cases u with
  | insert g => exact .inr rfl
  | remove id =>
    rw [afterRead]
    split
    · exact .inr rfl
    · next h => exact .inl ⟨rfl, Keyed.erase_of_not_contains (eq_false_of_ne_true h)⟩

end Update

variable {ι : Type} [DecidableEq ι] {u : ι → Update} {ps : ι → Call} {s : Server}
  {r known : Registry} {i : ι} {x y : (ι → Call) × Server}

def Returned (p : Call) : Prop := ∃ a, p = .done a

def performAll (u : ι → Update) (order : List ι) (r : Registry) : Registry :=
  order.foldl (fun r i => (u i).perform r) r

/-- A registry that some of the calls that have returned lead to, one after another. -/
def Serial (u : ι → Update) (r₀ : Registry) (ps : ι → Call) (r : Registry) : Prop :=
  ∃ order : List ι, order.Nodup ∧ (∀ i ∈ order, Returned (ps i)) ∧ r = performAll u order r₀

theorem Serial.update {r₀ : Registry} (h : Serial u r₀ ps r) (hi : ¬ Returned (ps i)) (p : Call) :
    Serial u r₀ (Function.update ps i p) r := by
  obtain ⟨order, hnodup, hreturned, rfl⟩ := h
  refine ⟨order, hnodup, fun j hj => ?_, rfl⟩
  have hne : j ≠ i := by
    rintro rfl
    exact hi (hreturned j hj)
  rw [Function.update_of_ne hne]
  exact hreturned j hj

theorem Serial.publish {r₀ : Registry} (h : Serial u r₀ ps known) (hi : ¬ Returned (ps i)) :
    Serial u r₀ (Function.update ps i (.done (.ok ()))) ((u i).perform known) := by
  -- the call that publishes comes last
  obtain ⟨order, hnodup, hreturned, rfl⟩ := h
  have hfresh : i ∉ order := fun hmem => hi (hreturned i hmem)
  refine ⟨order ++ [i], ?_, ?_, ?_⟩
  · exact hnodup.append (List.nodup_singleton i) (by simpa using hfresh)
  · intro j hj
    by_cases hji : j = i
    · subst hji
      exact ⟨_, Function.update_self ..⟩
    · rw [Function.update_of_ne hji]
      refine hreturned j ((List.mem_append.1 hj).resolve_right ?_)
      simpa using hji
  · simp [performAll]

structure Accounted (u : ι → Update) (s : Server) (x : (ι → Call) × Server) : Prop where
  registry : ∃ r, Serial u s.registry x.1 r ∧ x.2 = { s with registry := r }
  calls : ∀ i, x.1 i = (u i).call ∨
    (∃ known, Serial u s.registry x.1 known ∧ x.1 i = (u i).afterRead known) ∨ Returned (x.1 i)

omit [DecidableEq ι] in
theorem Accounted.start (u : ι → Update) (s : Server) : Accounted u s (fun i => (u i).call, s) :=
  ⟨⟨s.registry, ⟨[], .nil, nofun, rfl⟩, rfl⟩, fun _ => .inl rfl⟩

theorem not_returned_of_move (h : Steps.Move i x y) : ¬ Returned (x.1 i) := by
  cases h with
  | step hi =>
    rintro ⟨a, ha⟩
    rw [hi] at ha
    cases ha

theorem move_of_call (hi : x.1 i = (u i).call) (h : Steps.Move i x y) :
    y = (Function.update x.1 i ((u i).afterRead x.2.registry), x.2) := by
  cases h with
  | step hstep =>
    rw [hi, Update.call_eq] at hstep
    cases hstep
    rfl

theorem move_of_afterRead (hi : x.1 i = (u i).afterRead known) (h : Steps.Move i x y) :
    y = (Function.update x.1 i (.done (.ok ())),
      { x.2 with registry := (u i).perform known }) := by
  cases h with
  | step hstep =>
    rw [hi] at hstep
    rcases (u i).afterRead_eq known with ⟨heq, -⟩ | heq
    · rw [heq] at hstep
      cases hstep
    · rw [heq] at hstep
      cases hstep
      rfl

theorem Accounted.update {p : Call} {r : Registry} (h : Accounted u s x) (hi : ¬ Returned (x.1 i))
    (hr : Serial u s.registry (Function.update x.1 i p) r)
    (hp : (∃ known, Serial u s.registry (Function.update x.1 i p) known ∧ p = (u i).afterRead known) ∨
      Returned p) :
    Accounted u s (Function.update x.1 i p, { s with registry := r }) := by
  refine ⟨⟨r, hr, rfl⟩, fun j => ?_⟩
  by_cases hj : j = i
  · subst hj
    dsimp only
    rw [Function.update_self]
    exact .inr hp
  · dsimp only
    rw [Function.update_of_ne hj]
    rcases h.calls j with hcall | ⟨known, hknown, hread⟩ | hreturned
    · exact .inl hcall
    · exact .inr (.inl ⟨known, hknown.update hi p, hread⟩)
    · exact .inr (.inr hreturned)

theorem Accounted.move (h : Accounted u s x) (hmove : Steps.Move i x y) : Accounted u s y := by
  have hi := not_returned_of_move hmove
  obtain ⟨r, hr, hs⟩ := h.registry
  rcases h.calls i with hcall | ⟨known, hknown, hread⟩ | hreturned
  · rw [move_of_call hcall hmove, hs]
    exact h.update hi (hr.update hi _) (.inl ⟨r, hr.update hi _, rfl⟩)
  · rw [move_of_afterRead hread hmove, hs]
    exact h.update hi (hknown.publish hi) (.inr ⟨_, rfl⟩)
  · exact absurd hreturned hi

/-- A step that publishes only on what the call has read, as comparing before the exchange would
ensure. -/
def Guarded (u : ι → Update) (x y : (ι → Call) × Server) : Prop :=
  ∃ i, Steps.Move i x y ∧ (x.1 i = (u i).call ∨ x.1 i = (u i).afterRead x.2.registry)

def Complete (u : ι → Update) (s : Server) (x : (ι → Call) × Server) : Prop :=
  ∃ order : List ι, order.Nodup ∧ (∀ i, i ∈ order ↔ Returned (x.1 i)) ∧
    x.2.registry = performAll u order s.registry

theorem Complete.returns {p : Call} (h : Complete u s x) (hi : ¬ Returned (x.1 i)) (hp : Returned p) :
    Complete u s (Function.update x.1 i p,
      { x.2 with registry := (u i).perform x.2.registry }) := by
  obtain ⟨order, hnodup, hreturned, hregistry⟩ := h
  have hfresh : i ∉ order := fun hmem => hi ((hreturned i).1 hmem)
  refine ⟨order ++ [i], ?_, fun j => ?_, ?_⟩
  · exact hnodup.append (List.nodup_singleton i) (by simpa using hfresh)
  · by_cases hji : j = i
    · simp [hji, hp]
    · simp [hji, hreturned]
  · simp [performAll, hregistry]

theorem Complete.guarded (h : Complete u s x) (hstep : Guarded u x y) : Complete u s y := by
  obtain ⟨i, hmove, hcall | hread⟩ := hstep
  · have hi := not_returned_of_move hmove
    rw [move_of_call hcall hmove]
    rcases (u i).afterRead_eq x.2.registry with ⟨heq, hsame⟩ | heq
    · have hdone := h.returns hi ⟨_, heq⟩
      rwa [hsame] at hdone
    · obtain ⟨order, hnodup, hreturned, hregistry⟩ := h
      have hreading : ¬ Returned ((u i).afterRead x.2.registry) := by
        rintro ⟨a, ha⟩
        rw [heq] at ha
        cases ha
      refine ⟨order, hnodup, fun j => ?_, hregistry⟩
      by_cases hji : j = i
      · simp [hji, hreturned, hi, hreading]
      · simp [hji, hreturned]
  · rw [move_of_afterRead hread hmove]
    exact h.returns (not_returned_of_move hmove) ⟨_, rfl⟩

theorem registry_of_moves (u : ι → Update) (s : Server) :
    (∀ x, ReflTransGen (fun x y => ∃ i, Steps.Move i x y) (fun i => (u i).call, s) x →
      ∃ order : List ι, order.Nodup ∧ (∀ i ∈ order, Returned (x.1 i)) ∧
        x.2 = { s with registry := performAll u order s.registry }) ∧
    ∀ x, ReflTransGen (Guarded u) (fun i => (u i).call, s) x →
      ∃ order : List ι, order.Nodup ∧ (∀ i, i ∈ order ↔ Returned (x.1 i)) ∧
        x.2.registry = performAll u order s.registry := by
  constructor
  · intro x hx
    have hx : Accounted u s x := by
      induction hx with
      | refl => exact .start u s
      | tail _ hmove ih =>
        obtain ⟨i, hmove⟩ := hmove
        exact ih.move hmove
    obtain ⟨r, ⟨order, hnodup, hreturned, rfl⟩, hs⟩ := hx.registry
    exact ⟨order, hnodup, hreturned, hs⟩
  · intro x hx
    induction hx with
    | refl =>
      refine ⟨[], .nil, fun i => ?_, rfl⟩
      simp [Returned, Update.call_eq]
    | tail _ hstep ih => exact Complete.guarded ih hstep

namespace Sample

def blank (id : String) : Workflow := ⟨id, "Blank", "", [⟨entryId, "", .plain⟩], []⟩

def one : Graph := .ofWorkflow (blank "one") (by decide)

def two : Graph := .ofWorkflow (blank "two") (by decide)

def both (i : Bool) : Update := .insert (if i then two else one)

def idle : Server := .start (Platform.alone fun _ => some 0)

end Sample

theorem registry_of_moves_both : ∃ x : (Bool → Call) × Server,
    ReflTransGen (Guarded Sample.both) (fun i => (Sample.both i).call, Sample.idle) x ∧
    (∀ i, Returned (x.1 i)) ∧
    ∃ order : List Bool, order.Nodup ∧ (∀ i, i ∈ order ↔ Returned (x.1 i)) ∧
      x.2.registry = performAll Sample.both order Sample.idle.registry := by
  have hrun : ∃ x : (Bool → Call) × Server,
      ReflTransGen (Guarded Sample.both) (fun i => (Sample.both i).call, Sample.idle) x ∧
      ∀ i, Returned (x.1 i) := by
    refine ⟨_, .head ⟨false, .step rfl, .inl rfl⟩ <| .head ⟨false, .step rfl, .inr rfl⟩ <|
      .head ⟨true, .step rfl, .inl rfl⟩ <| .single ⟨true, .step rfl, .inr rfl⟩, ?_⟩
    rintro (_ | _) <;> exact ⟨_, rfl⟩
  obtain ⟨x, hx, hreturned⟩ := hrun
  exact ⟨x, hx, hreturned, (registry_of_moves Sample.both Sample.idle).2 x hx⟩

/-- Both calls read before either publishes. -/
theorem publish_lost : ∃ x : (Bool → Call) × Server,
    ReflTransGen (fun x y => ∃ i, Steps.Move i x y) (fun i => (Sample.both i).call, Sample.idle) x ∧
    (∀ i, Returned (x.1 i)) ∧ x.2.registry.get? "one" = none ∧
    ∀ order : List Bool, order.Nodup → (∀ i, i ∈ order) →
      x.2.registry ≠ performAll Sample.both order Sample.idle.registry := by
  refine ⟨_, .head ⟨false, .step rfl⟩ <| .head ⟨true, .step rfl⟩ <| .head ⟨false, .step rfl⟩ <|
    .single ⟨true, .step rfl⟩, ?_, rfl, ?_⟩
  · rintro (_ | _) <;> exact ⟨_, rfl⟩
  · intro order hnodup hall h
    have hperm : order.Perm [false, true] :=
      (List.perm_ext_iff_of_nodup hnodup (by decide)).2 (by simp [hall])
    obtain ⟨i, j, rfl⟩ := List.length_eq_two.1 hperm.length_eq
    have hboth : (performAll Sample.both [i, j] Sample.idle.registry).get? "one" ≠ none := by
      cases i <;> cases j <;> first | decide | simp at hnodup
    rw [← h] at hboth
    exact hboth rfl

end Server

end FlowGraph
