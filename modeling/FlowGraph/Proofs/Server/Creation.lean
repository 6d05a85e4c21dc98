import FlowGraph.Proofs.Server.Agreement
import FlowGraph.Proofs.Server.Publishing
/-!
Requests to create a workflow under one id, in any interleaving of their steps. Each looks whether
there is one before it stores its own, so all those that look before the first is stored succeed,
and the last one to be stored stays. One at most succeeds if none looks while another that has
found nothing is still to store its own.
-/

namespace FlowGraph

theorem Store.Definitions.find_of_not_contains {t : Definitions} {id : String}
    (h : t.contains id = false) : t.find id = .ok none := by
  simp [find, Keyed.get?_of_not_contains h]

namespace Server

open Handler Relation

abbrev Answering := Steps Server (Except (Option Reply) Reply)

section

variable {H : Host} {r : Request} {w v : Workflow} {g : Graph} {f : Workflow.Fault}

def whenFound (H : Host) (w : Workflow) (found : Except Store.Fault (Option Workflow)) :
    Handler Reply := do
  if (← orRefuse (fun _ => .problem 500 "storage error") found).isSome then
    refuse (.problem 409 s!"workflow '{w.id}' already exists")
  return activated (← activate H w) "created"

def lookingUp (H : Host) (w : Workflow) : Answering :=
  .step (fun s => (s.store.definitions.find w.id, s)) fun found => (whenFound H w found).run

def whenRead (found : Except Store.Fault (Option Workflow)) : Handler Graph := do
  let failed := Reply.problem 500 "failed to load workflow"
  match ← orRefuse (fun _ => failed) found with
  | none => refuse failed
  | some w =>
    let g ← orRefuse (fun _ => failed) (Graph.compile w)
    publish g
    return g

def telling (found : Except Store.Fault (Option Workflow)) : Handler Reply := do
  let g ← (do
    let g ← whenRead found
    reschedule g
    return g)
  return activated g "created"

def readingBack (w : Workflow) : Answering :=
  .step (fun s => (s.store.definitions.find w.id, s)) fun found => (telling found).run

def saved (H : Host) (w : Workflow) (s : Server) : Server :=
  { (s.now H).2 with
    store := { s.store with definitions := s.store.definitions.save w (s.now H).1 } }

def saving (H : Host) (w : Workflow) : Answering :=
  .step (fun s => ((), saved H w s)) fun _ => readingBack w

theorem createWorkflow_of_decoded (hr : r.decoded workflowBody = .ok w) : createWorkflow H r = (do
    if w.id = "" ∨ w.name = "" then refuse (.problem 400 "workflow id and name are required")
    if (← stored w.id).isSome then refuse (.problem 409 s!"workflow '{w.id}' already exists")
    return activated (← activate H w) "created") := by
  rw [createWorkflow, body, hr]
  rfl

theorem run_createWorkflow (hr : r.decoded workflowBody = .ok w) (hw : ¬ (w.id = "" ∨ w.name = "")) :
    (createWorkflow H r).run = lookingUp H w := by
  rw [createWorkflow_of_decoded hr, if_neg hw]
  rfl

theorem run_createWorkflow_blank (hr : r.decoded workflowBody = .ok w) (hw : w.id = "" ∨ w.name = "") :
    (createWorkflow H r).run =
      .done (.error (some (.problem 400 "workflow id and name are required"))) := by
  rw [createWorkflow_of_decoded hr, if_pos hw]
  rfl

theorem run_whenFound_some : (whenFound H w (.ok (some v))).run =
    .done (.error (some (.problem 409 s!"workflow '{w.id}' already exists"))) := rfl

theorem run_whenFound_none : (whenFound H w (.ok none)).run =
    (do return activated (← activate H w) "created" : Handler Reply).run := rfl

theorem run_activate (hg : Graph.compile w = .ok g) :
    (do return activated (← activate H w) "created" : Handler Reply).run = saving H w := by
  rw [activate, compiled, hg]
  rfl

theorem run_activate_error (hf : Graph.compile w = .error f) :
    (do return activated (← activate H w) "created" : Handler Reply).run =
      .done (.error (some (.problem 400 f.message))) := by
  rw [activate, compiled, hf]
  rfl

inductive Succeeds : Answering → Prop
  | done {reply : Reply} (h : reply.status = 200) : Succeeds (.done (.ok reply))
  | step {α : Type} {act : Server → α × Server} {next : α → Answering}
      (hact : ∀ s, (act s).2.store = s.store) (hnext : ∀ a, Succeeds (next a)) :
      Succeeds (.step act next)

theorem succeeds_telling (hg : Graph.compile w = .ok g) : Succeeds (telling (.ok (some w))).run := by
  have hread : whenRead (.ok (some w)) = (do
      publish g
      return g) := by
    have hcompile : whenRead (.ok (some w)) = (do
        let g ← orRefuse (fun _ => .problem 500 "failed to load workflow") (Graph.compile w)
        publish g
        return g) := rfl
    rw [hcompile, hg]
    rfl
  rw [telling, hread]
  unfold reschedule
  refine .step (fun _ => rfl) fun known => .step (fun _ => rfl) fun _ => .step (fun _ => rfl) fun _ => ?_
  cases g.period? with
  | none => exact .done rfl
  | some p => exact .step (fun _ => rfl) fun _ => .done rfl

end

section

variable {ι : Type} [DecidableEq ι] {H : Host} {id : String} {r : ι → Request} {w : ι → Workflow}
  {order : List ι} {i j : ι} {p : Answering} {s : Server} {x y : (ι → Answering) × Server}

structure Creations (id : String) (r : ι → Request) (w : ι → Workflow) : Prop where
  posted : ∀ i, Route.ofPath? (r i).path = some .workflows ∧ (r i).method = "POST"
  decoded : ∀ i, (r i).decoded workflowBody = .ok (w i)
  own : ∀ i, (w i).id = id
  readsBack : ∀ i, (w i).FloatsReadBack

def Faulty (w : Workflow) : Prop := w.id = "" ∨ w.name = "" ∨ ∃ f, Graph.compile w = .error f

def Answered (order : List ι) (i : ι) (w : Workflow) (reply : Reply) : Prop :=
  (i ∈ order ∧ reply.status = 200) ∨
    (i ∉ order ∧ ((reply.status = 409 ∧ order ≠ []) ∨ (reply.status = 400 ∧ Faulty w)))

/-- The workflow that was stored last is there, and the replies tell which were stored. -/
structure Created (id : String) (w : ι → Workflow) (order : List ι) (x : (ι → Answering) × Server) :
    Prop where
  stored : x.2.store.definitions.find id = .ok (order.getLast?.map w)
  answered : ∀ i a, x.1 i = .done a → ∃ answer, reply a = some answer ∧ Answered order i (w i) answer

inductive Stage (H : Host) (w : Workflow) (order : List ι) (i : ι) : Answering → Prop
  | waiting (hi : i ∉ order) (hw : ¬ (w.id = "" ∨ w.name = "")) : Stage H w order i (lookingUp H w)
  | saving {g : Graph} (hi : i ∉ order) (hg : Graph.compile w = .ok g) : Stage H w order i (saving H w)
  | saved (hi : i ∈ order) : Stage H w order i (readingBack w)
  | succeeding {p : Answering} (hi : i ∈ order) (hp : Succeeds p) : Stage H w order i p
  | refused {answer : Reply} (h : Answered order i w answer) (hi : i ∉ order) :
    Stage H w order i (.done (.error (some answer)))

structure Underway (H : Host) (id : String) (w : ι → Workflow) (order : List ι)
    (x : (ι → Answering) × Server) : Prop where
  nodup : order.Nodup
  stored : x.2.store.definitions.find id = .ok (order.getLast?.map w)
  compiled : ∀ i ∈ order, ∃ g, Graph.compile (w i) = .ok g
  stages : ∀ i, Stage H (w i) order i (x.1 i)

omit [DecidableEq ι] in
theorem Creations.run (h : Creations id r w) (i : ι) :
    (respond H (r i)).run = (createWorkflow H (r i)).run := by
  obtain ⟨hpath, hmethod⟩ := h.posted i
  simp [respond, hpath, hmethod, respondTo]

omit [DecidableEq ι] in
theorem Creations.run_named (h : Creations id r w) (hw : ¬ ((w i).id = "" ∨ (w i).name = "")) :
    (respond H (r i)).run = lookingUp H (w i) := by
  rw [h.run i, run_createWorkflow (h.decoded i) hw]

omit [DecidableEq ι] in
theorem Creations.run_blank (h : Creations id r w) (hw : (w i).id = "" ∨ (w i).name = "") :
    (respond H (r i)).run =
      .done (.error (some (.problem 400 "workflow id and name are required"))) := by
  rw [h.run i, run_createWorkflow_blank (h.decoded i) hw]

omit [DecidableEq ι] in
theorem Creations.kept (h : Creations id r w) (i : ι) : (w i).Kept :=
  kept_of_decoded (h.decoded i) (h.readsBack i) (w i).id

omit [DecidableEq ι] in
theorem Underway.created (h : Underway H id w order x) : Created id w order x where
  stored := h.stored
  answered i a ha := by
    have hstage := h.stages i
    rw [ha] at hstage
    cases hstage with
    | succeeding hi hp =>
      cases hp with
      | done hstatus => exact ⟨_, rfl, .inl ⟨hi, hstatus⟩⟩
    | refused hanswer => exact ⟨_, rfl, hanswer⟩

omit [DecidableEq ι] in
theorem Underway.start (h : Creations id r w) (hs : s.store.definitions.contains id = false) :
    Underway H id w [] (fun i => (respond H (r i)).run, s) := by
  have hnone : ∀ i : ι, i ∉ [] := fun _ => List.not_mem_nil
  refine ⟨.nil, Store.Definitions.find_of_not_contains hs, fun i hi => absurd hi (hnone i), fun i => ?_⟩
  dsimp only
  by_cases hw : (w i).id = "" ∨ (w i).name = ""
  · have hfaulty : Faulty (w i) := hw.imp_right .inl
    rw [h.run_blank hw]
    exact .refused (.inr ⟨hnone i, .inr ⟨rfl, hfaulty⟩⟩) (hnone i)
  · rw [h.run_named hw]
    exact .waiting (hnone i) hw

theorem move_of_step {α : Type} {act : Server → α × Server} {next : α → Answering}
    (hi : x.1 i = .step act next) (h : Steps.Move i x y) :
    y = (Function.update x.1 i (next (act x.2).1), (act x.2).2) := by
  cases h with
  | step hstep =>
    rw [hi] at hstep
    cases hstep
    rfl

theorem not_move_of_done {a : Except (Option Reply) Reply} (hi : x.1 i = .done a) :
    ¬ Steps.Move i x y := by
  rintro ⟨hstep⟩
  rw [hi] at hstep
  cases hstep

omit [DecidableEq ι] in
theorem Stage.append {w : Workflow} (h : Stage H w order j p) (hj : j ≠ i) :
    Stage H w (order ++ [i]) j p := by
  have hout : j ∉ order → j ∉ order ++ [i] := by simp [hj]
  have hin : j ∈ order → j ∈ order ++ [i] := List.mem_append_left _
  cases h with
  | waiting hi hw => exact .waiting (hout hi) hw
  | saving hi hg => exact .saving (hout hi) hg
  | saved hi => exact .saved (hin hi)
  | succeeding hi hp => exact .succeeding (hin hi) hp
  | refused h hi =>
    obtain ⟨-, ⟨hstatus, -⟩ | hfaulty⟩ := h.resolve_left fun h => hi h.1
    · exact .refused (.inr ⟨hout hi, .inl ⟨hstatus, by simp⟩⟩) (hout hi)
    · exact .refused (.inr ⟨hout hi, .inr hfaulty⟩) (hout hi)

theorem Underway.update (h : Underway H id w order x) (hp : Stage H (w i) order i p)
    (hs : s.store = x.2.store) : Underway H id w order (Function.update x.1 i p, s) := by
  refine ⟨h.nodup, hs ▸ h.stored, h.compiled, fun j => ?_⟩
  by_cases hj : j = i
  · subst hj
    dsimp only
    rwa [Function.update_self]
  · dsimp only
    rw [Function.update_of_ne hj]
    exact h.stages j

theorem Underway.save {g : Graph} (h : Underway H id w order x) (hid : (w i).id = id)
    (hkept : (w i).Kept) (hi : i ∉ order) (hg : Graph.compile (w i) = .ok g) :
    Underway H id w (order ++ [i]) (Function.update x.1 i (readingBack (w i)), saved H (w i) x.2) := by
  refine ⟨?_, ?_, ?_, fun j => ?_⟩
  · exact h.nodup.append (List.nodup_singleton i) (by simpa using hi)
  · have hfind := Store.Definitions.find_save hkept x.2.store.definitions (x.2.now H).1
    rw [hid] at hfind
    rw [List.getLast?_concat, Option.map_some]
    exact hfind
  · intro j hj
    rcases List.mem_append.1 hj with hj | hj
    · exact h.compiled j hj
    · obtain rfl := List.mem_singleton.1 hj
      exact ⟨g, hg⟩
  · by_cases hj : j = i
    · subst hj
      dsimp only
      rw [Function.update_self]
      exact .saved (by simp)
    · dsimp only
      rw [Function.update_of_ne hj]
      exact (h.stages j).append hj

def Writes : Answering → Prop
  | .step act _ => ∃ s, (act s).2.store ≠ s.store
  | .done _ => False

theorem Succeeds.not_writes (h : Succeeds p) : ¬ Writes p := by
  cases h with
  | done => exact not_false
  | step hact => exact fun ⟨s, hs⟩ => hs (hact s)

theorem writes_saving (H : Host) (w : Workflow) : Writes (saving H w) := by
  let s := Server.start (Platform.alone fun _ => some 0)
  refine ⟨s, fun heq => ?_⟩
  have hrow : (saved H w s).store.definitions.contains w.id = s.store.definitions.contains w.id := by
    rw [← heq]
  have hsaved : (saved H w s).store.definitions.contains w.id = true := by
    simp [saved, Store.Definitions.save, Keyed.contains]
  rw [hsaved] at hrow
  cases hrow

theorem not_writes_lookingUp (H : Host) (w : Workflow) : ¬ Writes (lookingUp H w) :=
  fun ⟨_, hs⟩ => hs rfl

theorem Underway.move (h : Underway H id w order x) (hr : Creations id r w)
    (hmove : Steps.Move i x y) :
    (Underway H id w order y ∧
      (Writes (y.1 i) → order = [] ∧ x.1 i = (respond H (r i)).run)) ∨
    (Underway H id w (order ++ [i]) y ∧ Writes (x.1 i) ∧ ¬ Writes (y.1 i)) := by
  have hstage := h.stages i
  generalize hp : x.1 i = p at hstage
  cases hstage with
  | waiting hi hw =>
    left
    rw [move_of_step hp hmove]
    dsimp only
    rw [hr.own i, h.stored, Function.update_self]
    cases hlast : order.getLast? with
    | some j =>
      have horder : order ≠ [] := by
        rintro rfl
        cases hlast
      exact ⟨h.update (.refused (.inr ⟨hi, .inl ⟨rfl, horder⟩⟩) hi) rfl, False.elim⟩
    | none =>
      have horder : order = [] := List.getLast?_eq_none_iff.1 hlast
      rw [Option.map_none, run_whenFound_none]
      cases hg : Graph.compile (w i) with
      | error f =>
        have hfaulty : Faulty (w i) := .inr (.inr ⟨f, hg⟩)
        rw [run_activate_error hg]
        exact ⟨h.update (.refused (.inr ⟨hi, .inr ⟨rfl, hfaulty⟩⟩) hi) rfl, False.elim⟩
      | ok g =>
        rw [run_activate hg]
        refine ⟨h.update (.saving hi hg) rfl, fun _ => ⟨horder, ?_⟩⟩
        rw [hr.run_named hw]
  | saving hi hg =>
    right
    rw [move_of_step hp hmove]
    refine ⟨h.save (hr.own i) (hr.kept i) hi hg, writes_saving H (w i), ?_⟩
    dsimp only
    rw [Function.update_self]
    exact fun ⟨_, hs⟩ => hs rfl
  | saved hi =>
    left
    obtain ⟨j, hj⟩ : ∃ j, order.getLast? = some j :=
      ⟨_, List.getLast?_eq_some_getLast (List.ne_nil_of_mem hi)⟩
    obtain ⟨g, hg⟩ := h.compiled j (List.mem_of_getLast? hj)
    rw [move_of_step hp hmove]
    dsimp only
    rw [hr.own i, h.stored, hj, Option.map_some, Function.update_self]
    have hsucceeds := succeeds_telling hg
    exact ⟨h.update (.succeeding hi hsucceeds) rfl, fun hwrites => absurd hwrites hsucceeds.not_writes⟩
  | succeeding hi hsucceeds =>
    cases hsucceeds with
    | done => exact absurd hmove (not_move_of_done hp)
    | step hact hnext =>
      left
      rw [move_of_step hp hmove]
      dsimp only
      rw [Function.update_self]
      refine ⟨h.update (.succeeding hi (hnext _)) (hact _), fun hwrites => ?_⟩
      exact absurd hwrites (hnext _).not_writes
  | refused => exact absurd hmove (not_move_of_done hp)

/-- A request does not look while another is about to store. -/
def Exclusively (H : Host) (r : ι → Request) (x y : (ι → Answering) × Server) : Prop :=
  ∃ i, Steps.Move i x y ∧ (x.1 i = (respond H (r i)).run → ∀ j, ¬ Writes (x.1 j))

structure Alone (H : Host) (id : String) (w : ι → Workflow) (order : List ι)
    (x : (ι → Answering) × Server) : Prop extends Underway H id w order x where
  single : order.length ≤ 1
  next : ∀ i, Writes (x.1 i) → order = [] ∧ ∀ j, Writes (x.1 j) → j = i

omit [DecidableEq ι] in
theorem Creations.not_writes (h : Creations id r w) (i : ι) : ¬ Writes (respond H (r i)).run := by
  by_cases hw : (w i).id = "" ∨ (w i).name = ""
  · rw [h.run_blank hw]
    exact not_false
  · rw [h.run_named hw]
    exact not_writes_lookingUp H (w i)

theorem Creations.exclusively (h : Creations id r w) (hothers : ∀ j, j ≠ i → ¬ Writes (x.1 j))
    (hmove : Steps.Move i x y) : Exclusively H r x y := by
  refine ⟨i, hmove, fun hstart j => ?_⟩
  by_cases hj : j = i
  · rw [hj, hstart]
    exact h.not_writes i
  · exact hothers j hj

omit [DecidableEq ι] in
theorem Alone.start (h : Creations id r w) (hs : s.store.definitions.contains id = false) :
    Alone H id w [] (fun i => (respond H (r i)).run, s) :=
  ⟨.start h hs, Nat.zero_le 1, fun i hwrites => absurd hwrites (h.not_writes i)⟩

theorem moved_of_ne (h : Steps.Move i x y) (hj : j ≠ i) : y.1 j = x.1 j := by
  cases h with
  | step => exact Function.update_of_ne hj ..

theorem Alone.move (h : Alone H id w order x) (hr : Creations id r w)
    (hstep : Exclusively H r x y) : ∃ order', Alone H id w order' y := by
  obtain ⟨i, hmove, halone⟩ := hstep
  rcases h.toUnderway.move hr hmove with ⟨hy, hnext⟩ | ⟨hy, hwrites, hdone⟩
  · refine ⟨order, hy, h.single, fun j hj => ?_⟩
    by_cases hji : j = i
    · subst hji
      obtain ⟨horder, hstart⟩ := hnext hj
      refine ⟨horder, fun k hk => ?_⟩
      by_contra hkj
      rw [moved_of_ne hmove hkj] at hk
      exact halone hstart k hk
    · rw [moved_of_ne hmove hji] at hj
      obtain ⟨horder, hsingle⟩ := h.next j hj
      refine ⟨horder, fun k hk => ?_⟩
      by_cases hki : k = i
      · subst hki
        exact absurd hj (halone (hnext hk).2 j)
      · rw [moved_of_ne hmove hki] at hk
        exact hsingle k hk
  · obtain ⟨horder, hsingle⟩ := h.next i hwrites
    refine ⟨order ++ [i], hy, by simp [horder], fun j hj => ?_⟩
    by_cases hji : j = i
    · subst hji
      exact absurd hj hdone
    · rw [moved_of_ne hmove hji] at hj
      exact absurd (hsingle j hj) hji

theorem creations_of_moves (h : Creations id r w) (hs : s.store.definitions.contains id = false) :
    (∀ x, ReflTransGen (fun x y => ∃ i, Steps.Move i x y) (fun i => (respond H (r i)).run, s) x →
      ∃ order : List ι, order.Nodup ∧ Created id w order x) ∧
    ∀ x, ReflTransGen (Exclusively H r) (fun i => (respond H (r i)).run, s) x →
      ∃ order : List ι, order.length ≤ 1 ∧ Created id w order x := by
  constructor
  · intro x hx
    have hx : ∃ order, Underway H id w order x := by
      induction hx with
      | refl => exact ⟨[], .start h hs⟩
      | tail _ hmove ih =>
        obtain ⟨order, hunder⟩ := ih
        obtain ⟨i, hmove⟩ := hmove
        rcases hunder.move h hmove with ⟨hy, -⟩ | ⟨hy, -⟩
        · exact ⟨_, hy⟩
        · exact ⟨_, hy⟩
    obtain ⟨order, hunder⟩ := hx
    exact ⟨order, hunder.nodup, hunder.created⟩
  · intro x hx
    have hx : ∃ order, Alone H id w order x := by
      induction hx with
      | refl => exact ⟨[], .start h hs⟩
      | tail _ hstep ih =>
        obtain ⟨order, halone⟩ := ih
        exact halone.move h hstep
    obtain ⟨order, halone⟩ := hx
    exact ⟨order, halone.single, halone.created⟩

theorem moves_run {R : (ι → Answering) × Server → (ι → Answering) × Server → Prop}
    {ps : ι → Answering} {s s' : Server} {a : Except (Option Reply) Reply}
    (hR : ∀ x y, (∀ j, j ≠ i → x.1 j = ps j) → Steps.Move i x y → R x y)
    (hi : ps i = p) (hrun : p.run s = (a, s')) :
    ReflTransGen R (ps, s) (Function.update ps i (.done a), s') := by
  induction p generalizing ps s with
  | done b =>
    cases hrun
    rw [← hi, Function.update_eq_self]
  | step act next ih =>
    have hmove : Steps.Move i (ps, s) (Function.update ps i (next (act s).1), (act s).2) := .step hi
    have hrest := ih (act s).1
      (fun x y hx => hR x y fun j hj => (hx j hj).trans (Function.update_of_ne hj ..))
      (Function.update_self ..) hrun
    rw [Function.update_idem] at hrest
    exact .head (hR _ _ (fun _ _ => rfl) hmove) hrest

end

theorem run_saving {H : Host} {w : Workflow} {g : Graph} (hw : w.Kept) (hg : Graph.compile w = .ok g)
    (s : Server) : ∃ s', (saving H w).run s = (.ok (activated g "created"), s') ∧
      s'.store.definitions = s.store.definitions.save w (s.now H).1 := by
  obtain ⟨s', hactivate, htables⟩ := eval_activate hw hg H s
  refine ⟨s', ?_, congrArg Tables.definitions htables⟩
  rw [← run_activate hg]
  exact eval_bind_ok hactivate

section

variable {H : Host} {id : String} {r : Bool → Request} {w : Bool → Workflow} {g : Bool → Graph}
  {s : Server}

theorem Creations.moves_both (h : Creations id r w)
    (hnamed : ∀ i, ¬ ((w i).id = "" ∨ (w i).name = "")) (hg : ∀ i, Graph.compile (w i) = .ok (g i))
    (hs : s.store.definitions.contains id = false) :
    ∃ x, ReflTransGen (fun x y => ∃ i, Steps.Move i x y) (fun i => (respond H (r i)).run, s) x ∧
      (∀ i, x.1 i = .done (.ok (activated (g i) "created"))) ∧
      x.2.store.definitions.find id = .ok (some (w false)) := by
  have hstart := fun i => h.run_named (H := H) (hnamed i)
  have hnone := Store.Definitions.find_of_not_contains hs
  have hfound : ∀ i, (whenFound H (w i) (s.store.definitions.find (w i).id)).run = saving H (w i) := by
    intro i
    rw [h.own i, hnone, run_whenFound_none, run_activate (hg i)]
  have hlooked : (lookingUp H (w true)).run s = (saving H (w true)).run s := by
    rw [← hfound true]
    rfl
  obtain ⟨s₁, hrun₁, -⟩ := run_saving (H := H) (h.kept true) (hg true) s
  obtain ⟨s₂, hrun₂, hrow⟩ := run_saving (H := H) (h.kept false) (hg false) s₁
  -- one looks, the other takes all its steps, and then the first takes the rest of its own
  let start : Bool → Answering := fun i => (respond H (r i)).run
  let between := Function.update start false (saving H (w false))
  have hlook : Steps.Move false (start, s) (between, s) := by
    have hmove := Steps.Move.step (x := (start, s)) (hstart false)
    rwa [hfound false] at hmove
  have hother : ReflTransGen (fun x y => ∃ i, Steps.Move i x y) (between, s)
      (Function.update between true (.done (.ok (activated (g true) "created"))), s₁) :=
    moves_run (fun x y _ hmove => ⟨true, hmove⟩) (hstart true) (hlooked.trans hrun₁)
  have hrest : ReflTransGen (fun x y => ∃ i, Steps.Move i x y)
      (Function.update between true (.done (.ok (activated (g true) "created"))), s₁) _ :=
    moves_run (fun x y _ hmove => ⟨false, hmove⟩) rfl hrun₂
  refine ⟨_, .head ⟨false, hlook⟩ (hother.trans hrest), ?_, ?_⟩
  · rintro (_ | _) <;> rfl
  · rw [hrow, ← h.own false]
    exact Store.Definitions.find_save (h.kept false) _ _

theorem Creations.exclusively_both (h : Creations id r w)
    (hnamed : ∀ i, ¬ ((w i).id = "" ∨ (w i).name = "")) (hg : ∀ i, Graph.compile (w i) = .ok (g i))
    (hs : s.store.definitions.contains id = false) :
    ∃ x, ReflTransGen (Exclusively H r) (fun i => (respond H (r i)).run, s) x ∧
      x.1 false = .done (.ok (activated (g false) "created")) ∧
      ∃ answer, answer.status = 409 ∧ x.1 true = .done (.error (some answer)) := by
  have hstart := fun i => h.run_named (H := H) (hnamed i)
  obtain ⟨s₁, hrun₁, hrow⟩ := run_saving (H := H) (h.kept false) (hg false) s
  have hfirst : (lookingUp H (w false)).run s = (.ok (activated (g false) "created"), s₁) := by
    have hnone : s.store.definitions.find (w false).id = .ok none := by
      rw [h.own false]
      exact Store.Definitions.find_of_not_contains hs
    rw [← hrun₁, ← run_activate (hg false), ← run_whenFound_none, ← hnone]
    rfl
  have hsecond : (lookingUp H (w true)).run s₁ =
      (.error (some (.problem 409 s!"workflow '{(w true).id}' already exists")), s₁) := by
    have hfound : s₁.store.definitions.find (w true).id = .ok (some (w false)) := by
      rw [hrow, h.own true, ← h.own false]
      exact Store.Definitions.find_save (h.kept false) _ _
    have hlook : (lookingUp H (w true)).run s₁ =
        (whenFound H (w true) (s₁.store.definitions.find (w true).id)).run.run s₁ := rfl
    rw [hlook, hfound, run_whenFound_some]
    rfl
  let start : Bool → Answering := fun i => (respond H (r i)).run
  let between := Function.update start false (.done (.ok (activated (g false) "created")))
  have hone : ReflTransGen (Exclusively H r) (start, s) (between, s₁) := by
    refine moves_run (fun x y hx hmove => h.exclusively (fun j hj => ?_) hmove) (hstart false) hfirst
    rw [hx j hj]
    exact h.not_writes j
  let answer := Reply.problem 409 s!"workflow '{(w true).id}' already exists"
  have hother : ReflTransGen (Exclusively H r) (between, s₁)
      (Function.update between true (.done (.error (some answer))), s₁) := by
    refine moves_run (fun x y hx hmove => h.exclusively (fun j hj => ?_) hmove) (hstart true) hsecond
    obtain rfl : j = false := by simpa using hj
    rw [hx false hj]
    exact not_false
  exact ⟨_, hone.trans hother, rfl, answer, rfl, rfl⟩

end

namespace Sample

def named (name : String) : Workflow := ⟨"a", name, "", [⟨"0", "", .log "x"⟩], []⟩

def rival (i : Bool) : Workflow := named (if i then "B" else "A")

def creating (i : Bool) : Request := sent "POST" "/api/workflows"
  (if i then "[[\"a\",\"B\",\"\",[[\"0\",\"log\",\"\",[\"x\"]]],[]]]"
    else "[[\"a\",\"A\",\"\",[[\"0\",\"log\",\"\",[\"x\"]]],[]]]")

def graphOf (i : Bool) : Graph := .ofWorkflow (rival i) (by cases i <;> decide)

theorem creations : Creations "a" creating rival where
  posted i := by cases i <;> decide +kernel
  decoded i := by
    have hread : ((creating i).decoded workflowBody).toOption = some (rival i) := by
      cases i <;> decide +kernel
    cases hdecoded : (creating i).decoded workflowBody with
    | ok w =>
      rw [hdecoded] at hread
      cases hread
      rfl
    | error status =>
      rw [hdecoded] at hread
      cases hread
  own i := by cases i <;> rfl
  readsBack i n hn x hx := by
    have hnumbers : ∀ n ∈ (rival i).nodes, n.data.numbers = [] := by
      cases i <;> decide
    rw [hnumbers n hn] at hx
    cases hx

theorem rival_named (i : Bool) : ¬ ((rival i).id = "" ∨ (rival i).name = "") := by
  cases i <;> decide

theorem compile_rival (i : Bool) : Graph.compile (rival i) = .ok (graphOf i) :=
  Graph.compile_ofWorkflow _ _

theorem start_empty : (start outside).store.definitions.contains "a" = false := rfl

end Sample

open Server.Sample (creating rival host creations) in
theorem creations_of_moves_apart : ∃ x,
    ReflTransGen (Exclusively host creating)
      (fun i => (respond host (creating i)).run, start Sample.outside) x ∧
    (∃ answer, x.1 false = .done (.ok answer) ∧ answer.status = 200) ∧
    (∃ answer, x.1 true = .done (.error (some answer)) ∧ answer.status = 409) ∧
    ∃ order : List Bool, order.length ≤ 1 ∧ Created "a" rival order x := by
  obtain ⟨x, hx, hfalse, answer, hstatus, htrue⟩ := creations.exclusively_both (H := host)
    Sample.rival_named Sample.compile_rival Sample.start_empty
  refine ⟨x, hx, ⟨_, hfalse, rfl⟩, ⟨answer, htrue, hstatus⟩, ?_⟩
  exact (creations_of_moves creations Sample.start_empty).2 x hx

open Server.Sample (creating rival host creations) in
/-- Both requests look before either stores, so both are told that their workflow is the one. -/
theorem creation_not_exclusive : ∃ x,
    ReflTransGen (fun x y => ∃ i, Steps.Move i x y)
      (fun i => (respond host (creating i)).run, start Sample.outside) x ∧
    (∀ i, ∃ answer, x.1 i = .done (.ok answer) ∧ answer.status = 200) ∧
    x.2.store.definitions.find "a" = .ok (some (rival false)) ∧ rival false ≠ rival true := by
  obtain ⟨x, hx, hdone, hstored⟩ := creations.moves_both (H := host) Sample.rival_named
    Sample.compile_rival Sample.start_empty
  exact ⟨x, hx, fun i => ⟨_, hdone i, rfl⟩, hstored, by decide⟩

end Server

end FlowGraph
