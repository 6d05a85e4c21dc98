import FlowGraph.Proofs.Server.Agreement
import FlowGraph.Server.Interval

namespace FlowGraph

theorem Store.Definitions.id_of_find_save {t : Definitions} {w w' : Workflow} {now : Instant}
    (h : (t.save w now).find w.id = .ok (some w')) : w'.id = w.id := by
  simp only [find, save, Keyed.get?_put, ↓reduceIte] at h
  obtain ⟨v, hv, hw'⟩ := map_eq_ok.1 h
  cases hw'
  rw [Definition.workflow, show textKept w.toJson.compact = _ from textKept_object _] at hv
  exact id_of_workflowOf hv

namespace Server

open Handler

/-- Where a request could leave a trace. -/
structure Held where
  tables : Tables
  replay : Store.Replay
  markers : Store.Markers

def held (s : Server) : Held := ⟨s.tables, s.store.replay, s.store.markers⟩

inductive Effect (s : Server) : Option Nat → Server → Prop
  | same {status : Option Nat} {s' : Server} (h : s'.held = s.held) : Effect s status s'
  | run {status : Option Nat} {s' : Server} (hstatus : ∀ n ∈ status, n = 200 ∨ n = 422)
      (h : s'.tables = s.tables) : Effect s status s'
  | save {s' : Server} (w : Workflow) (now : Instant)
      (h : s'.tables = { s.tables with definitions := s.tables.definitions.save w now }) :
      Effect s (some 500) s'
  | define {s' : Server} {w : Workflow} {g : Graph} (now : Instant) (hid : g.id = w.id)
      (h : s'.tables = s.tables.define w g now) : Effect s (some 200) s'
  | drop {s' : Server} (id : String) (h : s'.tables = s.tables.drop id) : Effect s (some 200) s'
  | miss {s' : Server} (id : String) (hid : s.tables.definitions.contains id = false)
      (h : s'.held = { s.held with tables := s.tables.drop id }) : Effect s (some 404) s'

def Acts (s : Server) (h : Handler Reply) : Prop :=
  Effect s ((reply (eval h s).1).map (·.status)) (eval h s).2

section

variable {α : Type} {s : Server}

theorem Acts.of_keeps {h : Handler Reply} (hh : Keeps held h) : Acts s h := .same (hh s)

theorem Acts.bind {h : Handler α} {f : α → Handler Reply} (hh : Keeps id h)
    (hf : ∀ a, Acts s (f a)) : Acts s (h >>= f) := by
  have hstate : (eval h s).2 = s := hh s
  rw [Acts, eval_bind]
  rcases heq : eval h s with ⟨a | a, s'⟩
  · rw [heq] at hstate
    exact .same (congrArg held hstate)
  · rw [heq] at hstate
    obtain rfl : s' = s := hstate
    exact hf a

theorem Acts.refuse_bind (r : Reply) (f : α → Handler Reply) : Acts s (refuse r >>= f) := by
  rw [Acts, eval_bind_error (eval_refuse r s)]
  exact .same rfl

end

theorem acts_finished (H : Host) (g : Graph) (id : String) (trigger : Run.Trigger) (scope : Scope)
    (s : Server) : Acts s (finished H g id trigger scope) := by
  have htables := tables_execute H g id trigger scope s
  rw [Acts, finished, eval_bind_ok (eval_step _ s)]
  cases (execute H g id trigger scope s).1 with
  | none =>
    apply Effect.run
    · nofun
    · exact htables
  | some r =>
    apply Effect.run
    · intro n hn
      cases hn
      dsimp only
      split
      · exact .inl rfl
      · exact .inr rfl
    · exact htables

theorem runs_act (H : Host) (s : Server) : HoldsOfRuns H (Acts s) where
  bind := .bind
  refuse r := .of_keeps (.refuse r)
  finished g id trigger scope := acts_finished H g id trigger scope s

theorem eval_reload_cases (id : String) (s : Server) :
    (∃ r : Reply, r.status = 500 ∧ eval (reload id) s = (.error (some r), s)) ∨
    ∃ w g, s.store.definitions.find id = .ok (some w) ∧ Graph.compile w = .ok g ∧
      eval (reload id) s = (.ok g, { s with registry := s.registry.publish g }) := by
  cases hfind : s.store.definitions.find id with
  | error f =>
    left
    refine ⟨.problem 500 "failed to load workflow", rfl, ?_⟩
    rw [reload, eval_bind_ok (eval_read _ s), hfind, eval_bind_error (eval_orRefuse_error _ _ s)]
  | ok found =>
    cases found with
    | none =>
      left
      refine ⟨.problem 500 "failed to load workflow", rfl, ?_⟩
      rw [reload, eval_bind_ok (eval_read _ s), hfind, eval_bind_ok (eval_orRefuse_ok _ _ s),
        eval_refuse]
    | some w =>
      cases hg : Graph.compile w with
      | error f =>
        left
        refine ⟨.problem 500 "failed to load workflow", rfl, ?_⟩
        rw [reload, eval_bind_ok (eval_read _ s), hfind, eval_bind_ok (eval_orRefuse_ok _ _ s)]
        dsimp only
        rw [hg, eval_bind_error (eval_orRefuse_error _ _ s)]
      | ok g => exact .inr ⟨w, g, rfl, hg, eval_reload hfind hg⟩

theorem acts_activate (H : Host) (w : Workflow) (verb : String) (s : Server) :
    Acts s (do return activated (← activate H w) verb) := by
  cases hg : Graph.compile w with
  | error f =>
    rw [Acts, eval_bind_error (eval_activate_error hg H s)]
    exact .same rfl
  | ok g =>
    have hsave := eval_saveDefinition H w s
    generalize hsaved : { (s.now H).2 with
      store := { s.store with definitions := s.store.definitions.save w (s.now H).1 } } = saved at hsave
    have htables : saved.tables = { s.tables with
        definitions := s.tables.definitions.save w (s.now H).1 } := by
      rw [← hsaved]
      rfl
    have hactivate : eval (activate H w) s =
        eval (do let g ← reload w.id; reschedule g; return g) saved := by
      rw [activate, compiled, hg, eval_bind_ok (eval_orRefuse_ok _ _ s), eval_bind_ok hsave]
    rcases eval_reload_cases w.id saved with ⟨r, hr, hreload⟩ | ⟨w', g', hfind, hg', hreload⟩
    · rw [eval_bind_error hreload] at hactivate
      rw [Acts, eval_bind_error hactivate]
      change Effect s (some r.status) saved
      rw [hr]
      exact .save w _ htables
    · rw [eval_bind_ok hreload, eval_bind_ok (eval_reschedule g' _), eval_pure] at hactivate
      have hid : g'.id = w.id := by
        rw [← hsaved] at hfind
        exact (congrArg Workflow.id (Graph.compile_ok hg').1).trans
          (Store.Definitions.id_of_find_save hfind)
      rw [Acts, eval_bind_ok hactivate, eval_pure]
      apply Effect.define (s.now H).1 hid
      rw [← hsaved]
      rfl

theorem acts_createWorkflow (H : Host) (r : Request) (s : Server) : Acts s (createWorkflow H r) := by
  refine .bind (keeps_body r _) fun w => ?_
  dsimp only
  split
  · exact .refuse_bind _ _
  · refine .bind (keeps_stored w.id) fun found => ?_
    split
    · exact .refuse_bind _ _
    · exact acts_activate H w _ s

theorem acts_updateWorkflow (H : Host) (rawId : String) (r : Request) (s : Server) :
    Acts s (updateWorkflow H rawId r) := by
  refine .bind (keeps_pathText rawId) fun id => .bind (keeps_body r _) fun w => ?_
  dsimp only
  split
  · exact .refuse_bind _ _
  · refine .bind (keeps_stored id) fun found => ?_
    split
    · exact .refuse_bind _ _
    · exact acts_activate H _ _ s

theorem acts_deleteWorkflow (rawId : String) (s : Server) : Acts s (deleteWorkflow rawId) := by
  -- the job and the compiled workflow go before it is known whether there is such a row
  refine .bind (keeps_pathText rawId) fun id => ?_
  rw [Acts, unschedule, eval_bind_ok (eval_change _ s), eval_bind_ok (eval_withdraw id _),
    deleteDefinition, eval_bind_ok (eval_step _ _)]
  dsimp only
  cases hid : s.store.definitions.contains id with
  | true =>
    rw [if_pos rfl, clearMarker, eval_bind_ok (eval_change _ _), eval_pure]
    exact .drop id rfl
  | false =>
    rw [if_neg Bool.false_ne_true, eval_refuse]
    exact .miss id hid rfl

theorem handlers_act (H : Host) (r : Request) (route : Route) (s : Server) :
    HoldsOfHandlers H r route (Acts s) where
  toHoldsOfRuns := runs_act H s
  pure reply := .of_keeps (.pure reply)
  createWorkflow := acts_createWorkflow H r s
  updateWorkflow rawId := acts_updateWorkflow H rawId r s
  deleteWorkflow rawId _ _ := acts_deleteWorkflow rawId s

theorem status_withoutContent (x : Except (Option Reply) Reply) :
    (reply ((x.map (·.withoutContent)).mapError (·.map (·.withoutContent)))).map (·.status) =
      (reply x).map (·.status) := by
  rcases x with (_ | r) | r <;> rfl

theorem acts_respond (H : Host) (r : Request) (s : Server) : Acts s (respond H r) := by
  rw [respond]
  cases Route.ofPath? r.path with
  | none => exact .of_keeps (.refuse _)
  | some route =>
    dsimp only
    split
    · rw [Acts, eval_adapt, eval_map, status_withoutContent]
      exact (handlers_act H { r with method := "GET" } route s).respondTo
    · exact (handlers_act H r route s).respondTo

structure Tables.Covered (t : Tables) : Prop where
  registry : t.registry.Within t.definitions
  jobs : t.jobs.Within t.definitions

namespace Tables.Covered

variable {t : Tables}

theorem start (outside : Outside) : (Server.start outside).tables.Covered where
  registry := nofun
  jobs := nofun

theorem save (h : t.Covered) (w : Workflow) (now : Instant) :
    Covered { t with definitions := t.definitions.save w now } where
  registry := h.registry.put _ fun _ _ => rfl
  jobs := h.jobs.put _ fun _ _ => rfl

theorem define (h : t.Covered) {w : Workflow} {g : Graph} (now : Instant) (hid : g.id = w.id) :
    (t.define w g now).Covered := by
  constructor
  · apply h.registry.put
    intro j hj
    rw [Tables.define, Registry.publish, Keyed.get?_put, hid, if_neg hj]
  · apply h.jobs.put
    intro j hj
    rw [Tables.define, get?_schedule, hid, if_neg hj]

theorem drop (h : t.Covered) (id : String) : (t.drop id).Covered where
  registry := h.registry.erase id
  jobs := h.jobs.erase id

theorem drop_eq (h : t.Covered) {id : String} (hid : t.definitions.contains id = false) :
    t.drop id = t := by
  -- without a row there is nothing to drop
  rw [Tables.drop, Keyed.erase_of_not_contains hid,
    Keyed.erase_of_not_contains (h.registry.not_contains hid),
    Keyed.erase_of_not_contains (h.jobs.not_contains hid)]

end Tables.Covered

theorem covered_of_effect {s s' : Server} {status : Option Nat} (h : s.tables.Covered)
    (he : Effect s status s') : s'.tables.Covered := by
  cases he with
  | same heq =>
    have htables : s'.tables = s.tables := congrArg Held.tables heq
    rwa [htables]
  | run _ htables => rwa [htables]
  | save w now htables =>
    rw [htables]
    exact h.save w now
  | define now hid htables =>
    rw [htables]
    exact h.define now hid
  | drop id htables =>
    rw [htables]
    exact h.drop id
  | miss id _ heq =>
    have htables : s'.tables = s.tables.drop id := congrArg Held.tables heq
    rw [htables]
    exact h.drop id

theorem tables_claim (id : String) (weekday : Nat) (now : Int) (s : Server) :
    (s.claim id weekday now).2.tables = s.tables := by
  rw [claim]
  split
  · rfl
  · split
    · rfl
    · split
      · rfl
      · split <;> rfl

theorem tables_fire (H : Host) (id : String) (weekday : Nat) (now : Int) (s : Server) :
    (s.fire H id weekday now).2.tables = s.tables := by
  have hclaim := tables_claim id weekday now s
  rw [fire]
  split
  · next heq => rwa [heq] at hclaim
  · next g s' heq =>
    rw [heq] at hclaim
    exact (tables_perform H g id .interval .initial s').trans hclaim

theorem tables_tick (H : Host) (id : String) (weekday : Nat) (now : Int) (s : Server) :
    (s.tick H id weekday now).tables = s.tables := by
  have hfire := tables_fire H id weekday now s
  rw [tick]
  split
  · next heq => rwa [heq] at hfire
  · next heq => rwa [heq] at hfire

inductive Reachable (H : Host) : Server → Prop
  | start (outside : Outside) : Reachable H (.start outside)
  | request {s : Server} (r : Request) (hs : Reachable H s) : Reachable H (handle H r s).2
  | tick {s : Server} (id : String) (weekday : Nat) (now : Int) (hs : Reachable H s) :
      Reachable H (s.tick H id weekday now)

theorem effect_handle (H : Host) (r : Request) (s : Server) :
    Effect s ((handle H r s).1.map (·.status)) (handle H r s).2 := by
  rw [handle_eq]
  exact acts_respond H r s

theorem covered_of_reachable {H : Host} {s : Server} (hs : Reachable H s) : s.tables.Covered := by
  induction hs with
  | start outside => exact .start outside
  | @request s r _ ih => exact covered_of_effect ih (effect_handle H r s)
  | tick id weekday now _ ih => rwa [tables_tick]

theorem held_of_refused {s s' : Server} {n : Nat} (h : s.tables.Covered)
    (hn : n = 400 ∨ n = 404 ∨ n = 409) (he : Effect s (some n) s') : s'.held = s.held := by
  cases he with
  | same heq => exact heq
  | run hstatus _ =>
    have := hstatus n rfl
    omega
  | save | define | drop => omega
  | miss id hid heq =>
    rw [heq, h.drop_eq hid]
    rfl

theorem refused_without_trace {H : Host} {s : Server} (hs : Reachable H s) {r : Request} {reply : Reply}
    (hreply : (handle H r s).1 = some reply)
    (hstatus : reply.status = 400 ∨ reply.status = 404 ∨ reply.status = 409) :
    (handle H r s).2.store.definitions = s.store.definitions ∧
      (handle H r s).2.registry = s.registry ∧ (handle H r s).2.jobs = s.jobs ∧
      (handle H r s).2.store.markers = s.store.markers ∧
      (handle H r s).2.store.replay = s.store.replay := by
  have heffect := effect_handle H r s
  rw [hreply] at heffect
  have hheld : (handle H r s).2.held = s.held :=
    held_of_refused (covered_of_reachable hs) hstatus heffect
  have htables : (handle H r s).2.tables = s.tables := congrArg Held.tables hheld
  exact ⟨congrArg Tables.definitions htables, congrArg Tables.registry htables,
    congrArg Tables.jobs htables, congrArg Held.markers hheld, congrArg Held.replay hheld⟩

namespace Sample

def creation : Request := sent "POST" "/api/workflows"
  "[[\"a\",\"A\",\"\",[[\"0\",\"interval\",\"\",[5,\"hours\",[]]]],[]]]"

def deletion : Request := sent "DELETE" "/api/workflows/b" ""

def ticked : Server := (handle host creation (start outside)).2.tick host "a" 0 0

theorem reachable_ticked : Reachable host ticked := .tick "a" 0 0 (.request creation (.start outside))

end Sample

open Server.Sample (host deletion ticked) in
theorem refused_without_trace_deletion :
    ((handle host deletion ticked).1, ticked.jobs.contains "a", ticked.store.markers.contains "a") =
        (some (.bare 404), true, true) ∧
      (handle host deletion ticked).2.store.definitions = ticked.store.definitions ∧
      (handle host deletion ticked).2.registry = ticked.registry ∧
      (handle host deletion ticked).2.jobs = ticked.jobs ∧
      (handle host deletion ticked).2.store.markers = ticked.store.markers ∧
      (handle host deletion ticked).2.store.replay = ticked.store.replay := by
  have hrun : ((handle host deletion ticked).1, ticked.jobs.contains "a",
      ticked.store.markers.contains "a") = (some (.bare 404), true, true) := by
    decide +kernel
  have hreply := (Prod.mk.inj hrun).1
  exact ⟨hrun, refused_without_trace Sample.reachable_ticked hreply (.inr (.inl rfl))⟩

end Server

end FlowGraph
