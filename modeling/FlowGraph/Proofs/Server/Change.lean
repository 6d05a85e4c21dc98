import FlowGraph.Proofs.Keyed
import FlowGraph.Proofs.Server.Tables
import FlowGraph.Proofs.Wire.Form
import FlowGraph.Proofs.Workflow.Compiled
import FlowGraph.Proofs.Workflow.Stored

namespace FlowGraph

namespace Store.Definitions

theorem find_save {w : Workflow} (h : w.Kept) (t : Definitions) (now : Instant) :
    (t.save w now).find w.id = .ok (some w) := by
  simp only [find, save, Keyed.get?_put, ↓reduceIte]
  rw [h]
  rfl

end Store.Definitions

namespace Server

open Handler

theorem eval_publish (g : Graph) (s : Server) :
    eval (publish g) s = (.ok (), { s with registry := s.registry.publish g }) := by
  rw [publish, eval_bind_ok (eval_read _ s), eval_change]

theorem eval_reload {id : String} {w : Workflow} {g : Graph} {s : Server}
    (hfind : s.store.definitions.find id = .ok (some w)) (hg : Graph.compile w = .ok g) :
    eval (reload id) s = (.ok g, { s with registry := s.registry.publish g }) := by
  rw [reload, eval_bind_ok (eval_read _ s), hfind, eval_bind_ok (eval_orRefuse_ok _ _ s)]
  dsimp only
  rw [hg, eval_bind_ok (eval_orRefuse_ok _ _ s), eval_bind_ok (eval_publish g s), eval_pure]

theorem eval_reschedule (g : Graph) (s : Server) :
    eval (reschedule g) s = (.ok (), { s with jobs := s.jobs.schedule g }) := by
  rw [reschedule, unschedule, eval_bind_ok (eval_change _ s), Jobs.schedule]
  cases g.period? with
  | none => rfl
  | some p => rw [eval_change]

theorem eval_saveDefinition (H : Host) (w : Workflow) (s : Server) :
    eval (saveDefinition H w) s = (.ok (), { (s.now H).2 with
      store := { s.store with definitions := s.store.definitions.save w (s.now H).1 } }) := by
  rw [saveDefinition, eval_change]
  rfl

theorem eval_activate {w : Workflow} {g : Graph} (hw : w.Kept) (hg : Graph.compile w = .ok g)
    (H : Host) (s : Server) : ∃ s', eval (activate H w) s = (.ok g, s') ∧
      s'.tables = s.tables.define w g (s.now H).1 := by
  rw [activate, compiled, hg, eval_bind_ok (eval_orRefuse_ok _ _ s),
    eval_bind_ok (eval_saveDefinition H w s),
    eval_bind_ok (eval_reload (Store.Definitions.find_save hw _ _) hg),
    eval_bind_ok (eval_reschedule g _), eval_pure]
  exact ⟨_, rfl, rfl⟩

theorem eval_activate_error {w : Workflow} {f : Workflow.Fault} (hf : Graph.compile w = .error f)
    (H : Host) (s : Server) :
    eval (activate H w) s = (.error (some (.problem 400 f.message)), s) := by
  rw [activate, compiled, hf, eval_bind_error (eval_orRefuse_error _ _ s)]

theorem eval_withdraw (id : String) (s : Server) :
    eval (withdraw id) s = (.ok (), { s with registry := s.registry.erase id }) := by
  rw [withdraw, eval_bind_ok (eval_read _ s)]
  split
  · rw [eval_change]
  · next h => rw [Keyed.erase_of_not_contains (eq_false_of_ne_true h), eval_pure]

inductive Change where
  | define (w : Workflow)
  | drop (id : String)

def Route.change? (r : Request) : Route → Option Change
  | .workflows =>
    if r.method = "POST" then (r.decoded workflowBody).toOption.map .define else none
  | .workflow rawId =>
    match Text.Percent.decode? rawId with
    | none => none
    | some id =>
      if r.method = "PUT" then (r.decoded workflowBody).toOption.map fun w => .define { w with id := id }
      else if r.method = "DELETE" then some (.drop id)
      else none
  | _ => none

def Request.change? (r : Request) : Option Change := (Route.ofPath? r.path).bind (Route.change? r)

/-- What is asked for is granted if the reply says so. -/
def Change.granted (c : Option Change) (reply : Option Reply) : Option Change :=
  if reply.any (·.status = 200) then c else none

theorem kept_of_decoded {r : Request} {w : Workflow} (h : r.decoded workflowBody = .ok w)
    (hw : w.FloatsReadBack) (id : String) : ({ w with id := id } : Workflow).Kept := by
  have hread : workflowBody.read r.body = .ok w := by
    unfold Request.decoded at h
    split at h
    · cases h
    · split at h
      · cases h
      · split at h
        · next hread =>
          cases h
          exact hread
        · cases h
        · cases h
  obtain ⟨v, hv, hfits⟩ := Wire.Form.decode_of_read hread
  obtain ⟨s, hs, hv⟩ := bind_eq_ok.1 hv
  obtain ⟨x, hx, hx'⟩ := Wire.mem_of_need hs hv
  have hfits : x.Fits (123 + 3) := hfits.member hx
  have hfrom : w.From (Json.Fits (119 + 4)) := Workflow.from_of_ofJson hx' hfits
  exact Workflow.kept_of_from (w := { w with id := id }) hfrom (by decide) hw

inductive Follows (t : Tables) : Option Change → Tables → Prop
  | same : Follows t none t
  | define {w : Workflow} {g : Graph} (now : Instant) (hw : w.Kept)
      (hg : Graph.compile w = .ok g) : Follows t (some (.define w)) (t.define w g now)
  | drop (id : String) : Follows t (some (.drop id)) (t.drop id)
  | absent (id : String) (h : t.definitions.contains id = false) : Follows t none (t.drop id)

def Makes (c : Option Change) (s : Server) (h : Handler Reply) : Prop :=
  Follows s.tables (Change.granted c (reply (eval h s).1)) (eval h s).2.tables

section

variable {α : Type} {c : Option Change} {s : Server}

theorem Makes.of_eval {h h' : Handler Reply} (he : eval h s = eval h' s) (hh : Makes c s h') :
    Makes c s h := by
  rwa [Makes, he]

theorem makes_none {h : Handler Reply} :
    Makes none s h ↔ Follows s.tables none (eval h s).2.tables := by
  rw [Makes, Change.granted, ite_self]

theorem Makes.of_keeps {h : Handler Reply} (hh : Keeps tables h) : Makes none s h := by
  rw [makes_none, hh s]
  exact .same

theorem Makes.refuse {r : Reply} (hr : r.status ≠ 200) : Makes c s (refuse r) := by
  have hnone : Change.granted c (some r) = none := by simp [Change.granted, hr]
  rw [Makes, eval_refuse, reply, hnone]
  exact .same

theorem Makes.bind_ok {h : Handler α} {f : α → Handler Reply} {a : α} (he : eval h s = (.ok a, s))
    (hf : Makes c s (f a)) : Makes c s (h >>= f) :=
  .of_eval (eval_bind_ok he) hf

theorem Makes.bind_error {h : Handler α} {f : α → Handler Reply} {r : Reply}
    (he : eval h s = (.error (some r), s)) (hr : Makes c s (Handler.refuse r)) :
    Makes c s (h >>= f) :=
  .of_eval (eval_bind_error he) hr

end

theorem Makes.bind_stored {c : Option Change} {s : Server} {f : Option Workflow → Handler Reply}
    (id : String) (hf : ∀ found, Makes c s (f found)) : Makes c s (stored id >>= f) := by
  have hread : eval (stored id) s = eval (orRefuse (fun _ => .problem 500 "storage error")
      (s.store.definitions.find id)) s := by
    rw [Server.stored, eval_bind_ok (eval_read _ s)]
  cases hfind : s.store.definitions.find id with
  | ok found =>
    rw [hfind, eval_orRefuse_ok] at hread
    exact .bind_ok hread (hf found)
  | error f =>
    rw [hfind, eval_orRefuse_error] at hread
    exact .bind_error hread (.refuse (by rintro ⟨⟩))

theorem Makes.bind_body {s : Server} {r : Request} {c : Workflow → Change} {f : Workflow → Handler Reply}
    (hf : ∀ w, r.decoded workflowBody = .ok w → Makes (some (c w)) s (f w)) :
    Makes ((r.decoded workflowBody).toOption.map c) s (body r workflowBody >>= f) := by
  cases hw : r.decoded workflowBody with
  | error status =>
    have hbody : eval (body r workflowBody) s = (.error (some (.bare status)), s) := by
      rw [Server.body, hw, eval_orRefuse_error]
    exact .bind_error hbody (.of_keeps (.refuse _))
  | ok w =>
    have hbody : eval (body r workflowBody) s = (.ok w, s) := by
      rw [Server.body, hw, eval_orRefuse_ok]
    exact .bind_ok hbody (hf w hw)

theorem makes_activate {w : Workflow} (hw : w.Kept) (H : Host) (verb : String) (s : Server) :
    Makes (some (.define w)) s (do return activated (← activate H w) verb) := by
  cases hg : Graph.compile w with
  | error f => exact .bind_error (eval_activate_error hg H s) (.refuse (by rintro ⟨⟩))
  | ok g =>
    obtain ⟨s', he, hs'⟩ := eval_activate hw hg H s
    rw [Makes, eval_bind_ok he, eval_pure, hs']
    exact .define _ hw hg

theorem makes_createWorkflow (H : Host) {r : Request} (s : Server)
    (hr : ∀ w, r.decoded workflowBody = .ok w → w.FloatsReadBack) :
    Makes ((r.decoded workflowBody).toOption.map .define) s (createWorkflow H r) := by
  refine .bind_body fun w hw => ?_
  have hkept : w.Kept := kept_of_decoded hw (hr w hw) w.id
  split
  · exact .bind_error (eval_refuse _ s) (.refuse (by rintro ⟨⟩))
  · refine .bind_stored w.id fun found => ?_
    dsimp only
    split
    · exact .bind_error (eval_refuse _ s) (.refuse (by rintro ⟨⟩))
    · exact makes_activate hkept H _ s

theorem makes_updateWorkflow (H : Host) {rawId id : String} {r : Request} (s : Server)
    (hid : Text.Percent.decode? rawId = some id)
    (hr : ∀ w, r.decoded workflowBody = .ok w → w.FloatsReadBack) :
    Makes ((r.decoded workflowBody).toOption.map fun w => .define { w with id := id }) s
      (updateWorkflow H rawId r) := by
  have hpath : eval (pathText rawId) s = (.ok id, s) := by rw [pathText, hid, eval_pure]
  refine .bind_ok hpath (.bind_body fun w hw => ?_)
  have hkept : ({ w with id := id } : Workflow).Kept := kept_of_decoded hw (hr w hw) id
  dsimp only
  split
  · exact .bind_error (eval_refuse _ s) (.refuse (by rintro ⟨⟩))
  · refine .bind_stored id fun found => ?_
    split
    · exact .bind_error (eval_refuse _ s) (.refuse (by rintro ⟨⟩))
    · exact makes_activate hkept H _ s

theorem makes_deleteWorkflow {rawId id : String} (s : Server)
    (hid : Text.Percent.decode? rawId = some id) : Makes (some (.drop id)) s (deleteWorkflow rawId) := by
  have hpath : eval (pathText rawId) s = (.ok id, s) := by rw [pathText, hid, eval_pure]
  refine .bind_ok hpath ?_
  rw [Makes, unschedule, eval_bind_ok (eval_change _ s), eval_bind_ok (eval_withdraw id _),
    deleteDefinition, eval_bind_ok (eval_step _ _)]
  dsimp only
  cases hc : s.store.definitions.contains id with
  | true =>
    rw [if_pos rfl, clearMarker, eval_bind_ok (eval_change _ _), eval_pure]
    exact .drop id
  | false =>
    rw [if_neg Bool.false_ne_true, eval_refuse]
    exact .absent id hc

theorem makes_workflows (H : Host) {r : Request} (s : Server)
    (hr : ∀ w, r.decoded workflowBody = .ok w → w.FloatsReadBack) :
    Makes (Route.workflows.change? r) s (respondTo H r .workflows) := by
  by_cases hpost : r.method = "POST"
  · simp only [Route.change?, respondTo, hpost, ↓reduceIte]
    exact makes_createWorkflow H s hr
  · rw [Route.change?, if_neg hpost, respondTo]
    split
    · exact .of_keeps keeps_listWorkflows
    · next hm => exact absurd hm hpost
    · exact .of_keeps (.refuse _)

theorem makes_workflow (H : Host) {r : Request} (s : Server) (rawId : String)
    (hr : ∀ w, r.decoded workflowBody = .ok w → w.FloatsReadBack) :
    Makes ((Route.workflow rawId).change? r) s (respondTo H r (.workflow rawId)) := by
  cases hid : Text.Percent.decode? rawId with
  | none =>
    have hpath : eval (pathText rawId) s = (.error (some (.bare 400)), s) := by
      rw [pathText, hid, eval_refuse]
    simp only [Route.change?, hid, respondTo]
    split
    · exact .of_keeps (keeps_getWorkflow rawId)
    · exact .bind_error hpath (.refuse (by rintro ⟨⟩))
    · exact .bind_error hpath (.refuse (by rintro ⟨⟩))
    · exact .of_keeps (.refuse _)
  | some id =>
    simp only [Route.change?, hid]
    by_cases hput : r.method = "PUT"
    · simp only [respondTo, hput, ↓reduceIte]
      exact makes_updateWorkflow H s hid hr
    · by_cases hdelete : r.method = "DELETE"
      · rw [if_neg hput, if_pos hdelete]
        simp only [respondTo, hdelete]
        exact makes_deleteWorkflow s hid
      · rw [if_neg hput, if_neg hdelete, respondTo]
        split
        · exact .of_keeps (keeps_getWorkflow rawId)
        · next hm => exact absurd hm hput
        · next hm => exact absurd hm hdelete
        · exact .of_keeps (.refuse _)

theorem makes_respondTo (H : Host) {r : Request} (s : Server)
    (hr : ∀ w, r.decoded workflowBody = .ok w → w.FloatsReadBack) (route : Route) :
    Makes (route.change? r) s (respondTo H r route) := by
  cases route with
  | workflows => exact makes_workflows H s hr
  | workflow rawId => exact makes_workflow H s rawId hr
  -- the other routes take one method each and change nothing
  | health =>
    rw [respondTo]
    split
    · exact .of_keeps (.pure _)
    · exact .of_keeps (.refuse _)
  | runOf rawId =>
    rw [respondTo]
    split
    · exact .of_keeps ((runs_keep_tables H).runWorkflow rawId r)
    · exact .of_keeps (.refuse _)
  | quickRun =>
    rw [respondTo]
    split
    · exact .of_keeps ((runs_keep_tables H).quickRun r)
    · exact .of_keeps (.refuse _)
  | webhook rawId =>
    rw [respondTo]
    split
    · exact .of_keeps ((runs_keep_tables H).runWebhook rawId r)
    · exact .of_keeps (.refuse _)
  | history =>
    rw [respondTo]
    split
    · exact .of_keeps (keeps_listHistory r)
    · exact .of_keeps (.refuse _)
  | replay rawId =>
    rw [respondTo]
    split
    · exact .of_keeps (keeps_getReplay rawId)
    · exact .of_keeps (.refuse _)
  | live =>
    rw [respondTo]
    split <;> exact .of_keeps (.refuse _)

theorem change?_of_get {r : Request} (hm : r.method = "GET" ∨ r.method = "HEAD") (route : Route) :
    route.change? r = none := by
  have hpost : r.method ≠ "POST" := by rcases hm with hm | hm <;> simp [hm]
  have hput : r.method ≠ "PUT" := by rcases hm with hm | hm <;> simp [hm]
  have hdelete : r.method ≠ "DELETE" := by rcases hm with hm | hm <;> simp [hm]
  cases route with
  | workflows => rw [Route.change?, if_neg hpost]
  | workflow rawId =>
    rw [Route.change?]
    cases Text.Percent.decode? rawId with
    | none => rfl
    | some id => exact (if_neg hput).trans (if_neg hdelete)
  | _ => rfl

theorem makes_respond (H : Host) {r : Request} (s : Server)
    (hr : ∀ w, r.decoded workflowBody = .ok w → w.FloatsReadBack) :
    Makes r.change? s (respond H r) := by
  rw [respond, Request.change?]
  cases Route.ofPath? r.path with
  | none => exact .of_keeps (.refuse _)
  | some route =>
    dsimp only [Option.bind_some]
    split
    · next hhead =>
      have hget := makes_respondTo H (r := { r with method := "GET" }) s hr route
      rw [change?_of_get (.inr hhead.1) route]
      rw [change?_of_get (.inl rfl) route, makes_none] at hget
      rw [makes_none, eval_adapt, eval_map]
      exact hget
    · exact makes_respondTo H s hr route

end Server

end FlowGraph
