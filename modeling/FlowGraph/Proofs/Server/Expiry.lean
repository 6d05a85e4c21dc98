import FlowGraph.Proofs.Server.Agreement
import FlowGraph.Proofs.Server.Interval

namespace FlowGraph.Server

open Handler Store Markers

def markers (s : Server) : Markers := s.store.markers

def Change.cleared (m : Markers) : Option Change → Markers
  | some (.drop id) => m.clear id
  | _ => m

theorem markers_execute (H : Host) (g : Graph) (id : String) (trigger : Run.Trigger) (scope : Scope)
    (s : Server) : (execute H g id trigger scope s).2.markers = s.markers := by
  have hperform := congrArg Store.markers (store_perform H g id trigger scope s)
  rw [execute]
  split
  · next heq => rwa [heq] at hperform
  · next heq => rwa [heq] at hperform

theorem runs_keep_markers (H : Host) : HoldsOfRuns H (Keeps markers) where
  bind hh hf := .bind (fun s => congrArg markers (hh s)) hf
  refuse := .refuse
  finished g id trigger scope :=
    .bind (.step (markers_execute H g id trigger scope)) fun result => by
      cases result with
      | some r => exact .pure _
      | none => exact .throw _

theorem change_keeps_markers {f : Server → Server} (h : ∀ s, (f s).markers = s.markers) :
    Keeps markers (change f) := .step h

theorem reload_keeps_markers (id : String) : Keeps markers (reload id) := by
  refine .bind (.read _) fun _ => .bind (.orRefuse _ _) fun found => ?_
  cases found with
  | none => exact .refuse _
  | some w =>
    refine .bind (.orRefuse _ _) fun g => .bind ?_ fun _ => .pure g
    exact .bind (.read _) fun _ => change_keeps_markers fun _ => rfl

theorem reschedule_keeps_markers (g : Graph) : Keeps markers (reschedule g) := by
  refine .bind (change_keeps_markers fun _ => rfl) fun _ => ?_
  cases g.period? with
  | none => exact .pure _
  | some p => exact change_keeps_markers fun _ => rfl

theorem activate_keeps_markers (H : Host) (w : Workflow) : Keeps markers (activate H w) := by
  refine .bind (keeps_compiled w) fun _ => .bind (change_keeps_markers fun _ => rfl) fun _ => ?_
  refine .bind (reload_keeps_markers w.id) fun g => ?_
  exact .bind (reschedule_keeps_markers g) fun _ => .pure g

theorem createWorkflow_keeps_markers (H : Host) (r : Request) :
    Keeps markers (createWorkflow H r) := by
  refine .bind (keeps_body r _) fun w => ?_
  dsimp only
  split
  · exact .refuse_bind _ _
  · refine .bind (keeps_stored w.id) fun found => ?_
    split
    · exact .refuse_bind _ _
    · exact .bind (activate_keeps_markers H w) fun _ => .pure _

theorem updateWorkflow_keeps_markers (H : Host) (rawId : String) (r : Request) :
    Keeps markers (updateWorkflow H rawId r) := by
  refine .bind (keeps_pathText rawId) fun id => .bind (keeps_body r _) fun w => ?_
  dsimp only
  split
  · exact .refuse_bind _ _
  · refine .bind (keeps_stored id) fun found => ?_
    split
    · exact .refuse_bind _ _
    · exact .bind (activate_keeps_markers H _) fun _ => .pure _

theorem handlers_keep_markers (H : Host) {r : Request} {route : Route}
    (h : ∀ rawId, route = .workflow rawId → r.method ≠ "DELETE") :
    HoldsOfHandlers H r route (Keeps markers) where
  toHoldsOfRuns := runs_keep_markers H
  pure reply := .pure reply
  createWorkflow := createWorkflow_keeps_markers H r
  updateWorkflow rawId := updateWorkflow_keeps_markers H rawId r
  deleteWorkflow rawId hroute hmethod := absurd hmethod (h rawId hroute)

theorem Route.change?_ne_drop {r : Request} {route : Route}
    (h : ∀ rawId, route = .workflow rawId → r.method ≠ "DELETE") (id : String) :
    route.change? r ≠ some (.drop id) := by
  cases route with
  | workflow rawId =>
    cases hid : Text.Percent.decode? rawId with
    | none => simp [Route.change?, hid]
    | some decoded => simp [Route.change?, hid, h rawId rfl]
  | _ => simp [Route.change?]

def Clears (c : Option Change) (s : Server) (h : Handler Reply) : Prop :=
  (eval h s).2.markers = Change.cleared s.markers (Change.granted c (reply (eval h s).1))

theorem Clears.of_keeps {c : Option Change} {s : Server} {h : Handler Reply}
    (hc : ∀ id, c ≠ some (.drop id)) (hh : Keeps markers h) : Clears c s h := by
  rw [Clears, hh s, Change.granted]
  split
  · rcases c with _ | ⟨w⟩ | ⟨id⟩
    · rfl
    · rfl
    · exact absurd rfl (hc id)
  · rfl

theorem clears_deleteWorkflow {r : Request} {rawId : String} (s : Server)
    (hmethod : r.method = "DELETE") :
    Clears ((Route.workflow rawId).change? r) s (deleteWorkflow rawId) := by
  cases hid : Text.Percent.decode? rawId with
  | none =>
    have hpath : eval (pathText rawId) s = (.error (some (.bare 400)), s) := by
      rw [pathText, hid, eval_refuse]
    rw [Clears, deleteWorkflow, eval_bind_error hpath]
    rfl
  | some id =>
    have hpath : eval (pathText rawId) s = (.ok id, s) := by rw [pathText, hid, eval_pure]
    have hchange : (Route.workflow rawId).change? r = some (.drop id) := by
      simp [Route.change?, hid, hmethod]
    rw [hchange, Clears, deleteWorkflow, eval_bind_ok hpath, unschedule, eval_bind_ok (eval_change _ s),
      eval_bind_ok (eval_withdraw id _), deleteDefinition, eval_bind_ok (eval_step _ _)]
    dsimp only
    cases s.store.definitions.contains id with
    | true =>
      rw [if_pos rfl, clearMarker, eval_bind_ok (eval_change _ _), eval_pure]
      rfl
    | false =>
      rw [if_neg Bool.false_ne_true, eval_refuse]
      rfl

theorem clears_respondTo (H : Host) (r : Request) (s : Server) (route : Route) :
    Clears (route.change? r) s (respondTo H r route) := by
  by_cases h : ∀ rawId, route = .workflow rawId → r.method ≠ "DELETE"
  · exact .of_keeps (Route.change?_ne_drop h) (handlers_keep_markers H h).respondTo
  · push Not at h
    obtain ⟨rawId, rfl, hmethod⟩ := h
    have hrespond : respondTo H r (.workflow rawId) = deleteWorkflow rawId := by
      simp [respondTo, hmethod]
    rw [hrespond]
    exact clears_deleteWorkflow s hmethod

theorem markers_handle (H : Host) (r : Request) (s : Server) :
    (handle H r s).2.markers =
      Change.cleared s.markers (Change.granted r.change? (handle H r s).1) := by
  rw [handle_eq, respond, Request.change?]
  cases Route.ofPath? r.path with
  | none => rfl
  | some route =>
    dsimp only [Option.bind_some]
    split
    · next hhead =>
      have hget : Keeps markers (respondTo H { r with method := "GET" } route) :=
        (handlers_keep_markers H fun _ _ => by simp).respondTo
      rw [change?_of_get (.inr hhead.1) route, Change.granted, ite_self, eval_adapt, eval_map]
      exact hget s
    · exact clears_respondTo H r s route

theorem fire_of_lost {H : Host} {s : Server} {id : String} {weekday : Nat} {now : Int} {g : Graph}
    {p : Nat} (h : s.Opens id weekday g p) (hlost : (s.markers.claim id now (claimTime p)).1 = false) :
    s.fire H id weekday now = (.error .windowClaimed, s) := by
  have hlost : (s.store.markers.claim id now (claimTime p)).1 = false := hlost
  rw [fire, claim_of_opens h, hlost, if_neg Bool.false_ne_true]

inductive Event where
  | request (r : Request)
  | tick (id : String) (weekday : Nat) (now : Reading)

structure Dispatch where
  id : String
  now : Reading
  period : Nat

namespace Dispatch

def due (d : Dispatch) : Int := d.now.millis + claimTime d.period

def expiry (d : Dispatch) : Int := Markers.expiry d.now.millis (claimTime d.period)

theorem expiry_le_iff (d : Dispatch) (now : Reading) : d.expiry ≤ now.millis ↔ d.due ≤ now.millis := by
  constructor
  · exact Reading.due
  · intro h
    rw [due] at h
    rw [expiry, Markers.expiry]
    omega

end Dispatch

/-- A server and the runs that ticks have started on it, save those of workflows deleted since. -/
structure Timeline where
  server : Server
  dispatches : List Dispatch

namespace Timeline

def start (outside : Outside) : Timeline := ⟨Server.start outside, []⟩

def next (H : Host) (x : Timeline) : Event → Timeline
  | .request r =>
    let s := (handle H r x.server).2
    match Change.granted r.change? (handle H r x.server).1 with
    | some (.drop id) => ⟨s, x.dispatches.filter (·.id ≠ id)⟩
    | _ => ⟨s, x.dispatches⟩
  | .tick id weekday now =>
    let s := x.server.tick H id weekday now.millis
    match (x.server.fire H id weekday now.millis).1, (x.server.registry.get? id).bind Graph.period? with
    | .ok _, some p => ⟨s, ⟨id, now, p⟩ :: x.dispatches⟩
    | _, _ => ⟨s, x.dispatches⟩

def play (H : Host) (es : List Event) (x : Timeline) : Timeline := es.foldl (next H) x

def Marked (x : Timeline) : Prop :=
  ∀ id now, (∀ e, x.server.markers.get? id = some e → e ≤ now) ↔
    ∀ d ∈ x.dispatches, d.id = id → d.expiry ≤ now

variable {H : Host} {x : Timeline} {id : String} {weekday : Nat} {now : Reading} {g : Graph} {p : Nat}

theorem marked_start (outside : Outside) : (start outside).Marked := by
  intro id now
  simp [start, Server.start, markers, Store.empty, Keyed.empty, Keyed.get?, Entries.get?]

theorem Marked.request (h : x.Marked) (r : Request) : (x.next H (.request r)).Marked := by
  have hmarkers := markers_handle H r x.server
  rw [next]
  split
  · next dropped hgranted =>
    rw [hgranted] at hmarkers
    intro id now
    rw [hmarkers, Change.cleared, Markers.clear, Keyed.get?_erase]
    split
    · next hid =>
      subst hid
      refine iff_of_true (fun e he => absurd he.symm (Option.some_ne_none e)) fun d hd hdid => ?_
      simp [hdid] at hd
    · next hid =>
      rw [h id now]
      constructor
      · intro hall d hd
        exact hall d (List.mem_of_mem_filter hd)
      · intro hall d hd hdid
        refine hall d (List.mem_filter.2 ⟨hd, ?_⟩) hdid
        simp [hdid, Ne.symm hid]
  · next hgranted =>
    have hsame : (handle H r x.server).2.markers = x.server.markers := by
      rw [hmarkers, Change.cleared]
      exact hgranted
    intro id now
    rw [hsame]
    exact h id now

theorem next_tick_of_won (h : x.server.Opens id weekday g p)
    (hwon : (x.server.markers.claim id now.millis (claimTime p)).1 = true) :
    ∃ s, s.markers = (x.server.markers.claim id now.millis (claimTime p)).2 ∧
      x.next H (.tick id weekday now) = ⟨s, ⟨id, now, p⟩ :: x.dispatches⟩ := by
  obtain ⟨f, s, hfire, hs⟩ := fire_of_won (H := H) h hwon
  have hperiod : (x.server.registry.get? id).bind Graph.period? = some p := by
    rw [h.known, Option.bind_some, h.period]
  refine ⟨x.server.tick H id weekday now.millis, ?_, by simp [next, hfire, hperiod]⟩
  rw [tick, hfire]
  cases f <;> exact hs

theorem Marked.dispatch (h : x.Marked) {s : Server}
    (hwon : (x.server.markers.claim id now.millis (claimTime p)).1 = true)
    (hs : s.markers = (x.server.markers.claim id now.millis (claimTime p)).2) :
    Marked ⟨s, ⟨id, now, p⟩ :: x.dispatches⟩ := by
  intro other later
  rw [hs]
  by_cases hid : id = other
  · subst hid
    -- who wins finds all earlier claims over, and its own ends later still
    have hearlier : ∀ d ∈ x.dispatches, d.id = id → d.expiry ≤ now.millis :=
      (h id now.millis).1 (claim_won_iff.1 hwon)
    have hlegal := now.legal
    have hown : now.millis ≤ Markers.expiry now.millis (claimTime p) :=
      le_expiry (by rw [lastMoment_eq]; omega) _
    rw [get?_claim_of_won hwon, List.forall_mem_cons]
    constructor
    · intro hover
      have hover : Markers.expiry now.millis (claimTime p) ≤ later := hover _ rfl
      exact ⟨fun _ => hover, fun d hd hdid => by have := hearlier d hd hdid; omega⟩
    · rintro ⟨hfirst, -⟩ e he
      cases he
      exact hfirst rfl
  · rw [get?_claim_of_ne _ _ hid, h other later, List.forall_mem_cons]
    exact ⟨fun hall => ⟨fun hne => absurd hne hid, hall⟩, And.right⟩

theorem Marked.tick (h : x.Marked) (id : String) (weekday : Nat) (now : Reading) :
    (x.next H (.tick id weekday now)).Marked := by
  rcases x.server.fire_cases H id weekday now.millis with ⟨why, hfire⟩ | ⟨g, p, hopens, hwon⟩
  · have hsame : x.next H (.tick id weekday now) = x := by simp [next, Server.tick, hfire]
    rwa [hsame]
  · obtain ⟨s, hs, hnext⟩ := next_tick_of_won (H := H) hopens hwon
    rw [hnext]
    exact h.dispatch hwon hs

theorem marked_play (H : Host) (outside : Outside) (es : List Event) :
    (play H es (start outside)).Marked := by
  have hkeep : ∀ {x : Timeline}, x.Marked → (play H es x).Marked := by
    induction es with
    | nil => exact id
    | cons e es ih =>
      intro x hx
      cases e with
      | request r => exact ih (hx.request r)
      | tick id weekday now => exact ih (hx.tick id weekday now)
  exact hkeep (marked_start outside)

theorem Marked.wins_iff (h : x.Marked) :
    (x.server.markers.claim id now.millis (claimTime p)).1 = true ↔
      ∀ d ∈ x.dispatches, d.id = id → d.due ≤ now.millis := by
  rw [claim_won_iff, h id now.millis]
  simp only [Dispatch.expiry_le_iff]

end Timeline

/-- A tick that finds the window of its workflow open starts a run unless a claim is left. In
particular it does if no run was started within the window, nor in a longer one. -/
theorem dispatches_iff_due (H : Host) (outside : Outside) (es : List Event) (now : Reading)
    {id : String} {weekday : Nat} {g : Graph} {p : Nat}
    (h : (Timeline.play H es (.start outside)).server.Opens id weekday g p) :
    let x := Timeline.play H es (.start outside)
    ((∃ f, (x.server.fire H id weekday now.millis).1 = .ok f) ↔
      ∀ d ∈ x.dispatches, d.id = id → d.due ≤ now.millis) ∧
    ((∃ d ∈ x.dispatches, d.id = id ∧ now.millis < d.due) →
      x.server.fire H id weekday now.millis = (.error .windowClaimed, x.server)) ∧
    ((∀ d ∈ x.dispatches, d.id = id → d.now.millis + 1000 * p ≤ now.millis ∧ d.period ≤ p) →
      ∃ f, (x.server.fire H id weekday now.millis).1 = .ok f) := by
  intro x
  have hwins : (x.server.markers.claim id now.millis (claimTime p)).1 = true ↔
      ∀ d ∈ x.dispatches, d.id = id → d.due ≤ now.millis := (Timeline.marked_play H outside es).wins_iff
  have hdispatches : (∃ f, (x.server.fire H id weekday now.millis).1 = .ok f) ↔
      ∀ d ∈ x.dispatches, d.id = id → d.due ≤ now.millis := by
    rw [← hwins]
    constructor
    · rintro ⟨f, hf⟩
      cases hwon : (x.server.markers.claim id now.millis (claimTime p)).1 with
      | true => rfl
      | false =>
        rw [fire_of_lost h hwon] at hf
        cases hf
    · intro hwon
      obtain ⟨f, s, hfire, -⟩ := fire_of_won (H := H) h hwon
      exact ⟨f, by rw [hfire]⟩
  refine ⟨hdispatches, ?_, fun hall => hdispatches.2 fun d hd hid => ?_⟩
  · rintro ⟨d, hd, hid, hlate⟩
    apply fire_of_lost h
    rw [← Bool.not_eq_true, hwins]
    intro hall
    have := hall d hd hid
    omega
  · obtain ⟨hnow, hperiod⟩ := hall d hd hid
    have hclaim : claimTime d.period ≤ 1000 * d.period := by
      rw [claimTime]
      split <;> omega
    rw [Dispatch.due]
    omega

namespace Sample

def hourly : Request := sent "POST" "/api/workflows"
  "[[\"a\",\"A\",\"\",[[\"0\",\"interval\",\"\",[1,\"hours\",[]]]],[]]]"

def everyFiveSeconds : Request := sent "PUT" "/api/workflows/a"
  "[[\"a\",\"A\",\"\",[[\"0\",\"interval\",\"\",[5,\"seconds\",[]]]],[]]]"

def shortened : Timeline :=
  .play host [.request hourly, .tick "a" 1 ⟨0, by decide⟩, .request everyFiveSeconds] (.start outside)

theorem shortened_run :
    (shortened.server.registry.get? "a").any (fun g => g.interval?.any fun t =>
      t.period? = some 5 ∧ t.runsOn 1 = true) = true ∧
    shortened.dispatches.map (fun d => (d.id, d.now.millis, d.period)) = [("a", 0, 3600)] ∧
    (shortened.server.markers.claim "a" 10000 (claimTime 5)).1 = false := by
  decide +kernel

theorem shortened_opens : ∃ g, shortened.server.Opens "a" 1 g 5 := by
  obtain ⟨g, hg, hopens⟩ := Option.any_eq_true _ _ |>.1 shortened_run.1
  obtain ⟨t, ht, hopens⟩ := Option.any_eq_true _ _ |>.1 hopens
  exact ⟨g, hg, t, ht, of_decide_eq_true hopens⟩

theorem eq_of_mem_shortened {d : Dispatch} (h : d ∈ shortened.dispatches) :
    d.id = "a" ∧ d.now.millis = 0 ∧ d.period = 3600 := by
  have hmem := List.mem_map_of_mem h (f := fun d => (d.id, d.now.millis, d.period))
  rw [shortened_run.2.1, List.mem_singleton] at hmem
  simpa using hmem

theorem exists_mem_shortened : ∃ d, d ∈ shortened.dispatches := by
  apply List.exists_mem_of_ne_nil
  intro hnil
  have hmap := shortened_run.2.1
  rw [hnil] at hmap
  cases hmap

theorem due_of_mem_shortened {d : Dispatch} (h : d ∈ shortened.dispatches) : d.due = 3599500 := by
  obtain ⟨-, hnow, hperiod⟩ := eq_of_mem_shortened h
  rw [Dispatch.due, hnow, hperiod]
  decide

end Sample

open Server.Sample (host shortened) in
theorem dispatches_iff_due_shortened : ∃ g, shortened.server.Opens "a" 1 g 5 ∧
    (∃ f, (shortened.server.fire host "a" 1 3599500).1 = .ok f) ∧
    shortened.server.fire host "a" 1 3599499 = (.error .windowClaimed, shortened.server) := by
  obtain ⟨g, hopens⟩ := Sample.shortened_opens
  obtain ⟨d, hd⟩ := Sample.exists_mem_shortened
  have hid := (Sample.eq_of_mem_shortened hd).1
  have hdue := Sample.due_of_mem_shortened hd
  let late : Reading := ⟨3599500, by decide⟩
  let early : Reading := ⟨3599499, by decide⟩
  have ⟨hlate, _, _⟩ := dispatches_iff_due host Sample.outside _ late hopens
  have ⟨_, hearly, _⟩ := dispatches_iff_due host Sample.outside _ early hopens
  refine ⟨g, hopens, hlate.2 fun d hd _ => Int.le_of_eq (Sample.due_of_mem_shortened hd), ?_⟩
  exact hearly ⟨d, hd, hid, by rw [hdue]; decide⟩

open Server.Sample (host shortened) in
/-- The one run of the workflow is ten seconds old, and its windows have five. -/
theorem shortened_not_dispatched : ∃ g, shortened.server.Opens "a" 1 g 5 ∧
    (∀ d ∈ shortened.dispatches, d.id = "a" → d.now.millis ≤ 10000 - 1000 * 5) ∧
    shortened.server.fire host "a" 1 10000 = (.error .windowClaimed, shortened.server) := by
  obtain ⟨g, hopens⟩ := Sample.shortened_opens
  refine ⟨g, hopens, fun d hd _ => ?_, ?_⟩
  · have hnow := (Sample.eq_of_mem_shortened hd).2.1
    omega
  · exact fire_of_lost hopens Sample.shortened_run.2.2

end FlowGraph.Server
