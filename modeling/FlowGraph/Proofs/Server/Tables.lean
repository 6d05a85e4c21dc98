import FlowGraph.Proofs.Server.Evaluation

namespace FlowGraph.Server

open Handler

structure Tables where
  definitions : Store.Definitions
  registry : Registry
  jobs : Jobs

def tables (s : Server) : Tables := ⟨s.store.definitions, s.registry, s.jobs⟩

namespace Tables

def define (t : Tables) (w : Workflow) (g : Graph) (now : Instant) : Tables :=
  ⟨t.definitions.save w now, t.registry.publish g, t.jobs.schedule g⟩

def drop (t : Tables) (id : String) : Tables :=
  ⟨t.definitions.erase id, t.registry.erase id, t.jobs.erase id⟩

end Tables

section

variable {τ : Type} {view : Server → τ}

theorem keeps_pathText (raw : String) : Keeps view (pathText raw) := by
  rw [pathText]
  split
  · exact .pure _
  · exact .refuse _

theorem keeps_queryText (r : Request) (name : String) : Keeps view (queryText r name) := by
  rw [queryText]
  split
  · exact .pure _
  · exact .refuse _

theorem keeps_body {α : Type} (r : Request) (form : Wire.Form α) : Keeps view (body r form) :=
  .orRefuse _ _

theorem keeps_payload (r : Request) : Keeps view (payload r) := by
  rw [payload]
  split
  · exact .refuse _
  · exact .pure _

theorem keeps_compiled (w : Workflow) : Keeps view (compiled w) := .orRefuse _ _

theorem keeps_stored (id : String) : Keeps view (stored id) := .bind (.read _) fun _ => .orRefuse _ _

theorem keeps_listWorkflows : Keeps view listWorkflows := .bind (.read _) fun _ => .pure _

theorem keeps_getWorkflow (rawId : String) : Keeps view (getWorkflow rawId) :=
  .bind (keeps_pathText rawId) fun _ => .bind (.read _) fun _ => .bind (.orRefuse _ _) fun found => by
    cases found with
    | some w => exact .pure _
    | none => exact .refuse _

theorem keeps_listHistory (r : Request) : Keeps view (listHistory r) :=
  .bind (keeps_queryText r _) fun _ => .bind (.read _) fun _ => .bind (.orRefuse _ _) fun _ => .pure _

theorem keeps_getReplay (rawId : String) : Keeps view (getReplay rawId) :=
  .bind (keeps_pathText rawId) fun _ => .bind (.read _) fun _ => .bind (.orRefuse _ _) fun found => by
    cases found with
    | nil => exact .refuse _
    | cons => exact .pure _

end

structure HoldsOfRuns (H : Host) (P : Handler Reply → Prop) : Prop where
  bind {α : Type} {h : Handler α} {f : α → Handler Reply} (hh : Keeps id h) (hf : ∀ a, P (f a)) :
    P (h >>= f)
  refuse (r : Reply) : P (refuse r)
  finished (g : Graph) (id : String) (trigger : Run.Trigger) (scope : Scope) :
    P (finished H g id trigger scope)

namespace HoldsOfRuns

variable {H : Host} {P : Handler Reply → Prop}

theorem found (hP : HoldsOfRuns H P) {h : Handler (Option Graph)} (hh : Keeps id h)
    {f : Option Graph → Handler Reply} (hsome : ∀ g, P (f (some g))) (hnone : P (f none)) :
    P (h >>= f) := by
  refine hP.bind hh fun found => ?_
  cases found with
  | some g => exact hsome g
  | none => exact hnone

theorem runWorkflow (hP : HoldsOfRuns H P) (rawId : String) (r : Request) :
    P (runWorkflow H rawId r) := by
  refine hP.bind (keeps_pathText rawId) fun id => ?_
  dsimp only
  split
  · refine hP.bind (keeps_body r _) fun vars => hP.found (.read _) (fun g => ?_) (hP.refuse _)
    exact hP.finished g id _ _
  · refine hP.bind (.pure _) fun vars => hP.found (.read _) (fun g => ?_) (hP.refuse _)
    exact hP.finished g id _ _

theorem quickRun (hP : HoldsOfRuns H P) (r : Request) : P (quickRun H r) :=
  hP.bind (keeps_body r _) fun (w, _) => hP.bind (keeps_compiled w) fun g => hP.finished g _ _ _

theorem runWebhook (hP : HoldsOfRuns H P) (rawId : String) (r : Request) :
    P (runWebhook H rawId r) := by
  refine hP.bind (keeps_pathText rawId) fun id => hP.bind (keeps_payload r) fun input => ?_
  refine hP.found (.read _) (fun g => ?_) (hP.refuse _)
  dsimp only
  split
  · exact hP.finished g id _ _
  · exact hP.refuse _

end HoldsOfRuns

structure HoldsOfHandlers (H : Host) (r : Request) (route : Route) (P : Handler Reply → Prop) : Prop
    extends HoldsOfRuns H P where
  pure (reply : Reply) : P (pure reply)
  createWorkflow : P (createWorkflow H r)
  updateWorkflow (rawId : String) : P (updateWorkflow H rawId r)
  deleteWorkflow (rawId : String) (hroute : route = .workflow rawId) (hmethod : r.method = "DELETE") :
    P (deleteWorkflow rawId)

namespace HoldsOfHandlers

variable {H : Host} {r : Request} {route : Route} {P : Handler Reply → Prop}

theorem listWorkflows (hP : HoldsOfHandlers H r route P) : P listWorkflows :=
  hP.bind (.read _) fun _ => hP.pure _

theorem getWorkflow (hP : HoldsOfHandlers H r route P) (rawId : String) : P (getWorkflow rawId) := by
  refine hP.bind (keeps_pathText rawId) fun id => hP.bind (.read _) fun _ => ?_
  refine hP.bind (.orRefuse _ _) fun found => ?_
  cases found with
  | some w => exact hP.pure _
  | none => exact hP.refuse _

theorem listHistory (hP : HoldsOfHandlers H r route P) : P (listHistory r) := by
  refine hP.bind (keeps_queryText r _) fun _ => hP.bind (.read _) fun _ => ?_
  exact hP.bind (.orRefuse _ _) fun _ => hP.pure _

theorem getReplay (hP : HoldsOfHandlers H r route P) (rawId : String) : P (getReplay rawId) := by
  refine hP.bind (keeps_pathText rawId) fun id => hP.bind (.read _) fun _ => ?_
  refine hP.bind (.orRefuse _ _) fun found => ?_
  cases found with
  | nil => exact hP.refuse _
  | cons => exact hP.pure _

theorem respondTo (hP : HoldsOfHandlers H r route P) : P (respondTo H r route) := by
  cases route with
  | health =>
    rw [Server.respondTo]
    split
    · exact hP.pure _
    · exact hP.refuse _
  | workflows =>
    rw [Server.respondTo]
    split
    · exact hP.listWorkflows
    · exact hP.createWorkflow
    · exact hP.refuse _
  | workflow rawId =>
    rw [Server.respondTo]
    split
    · exact hP.getWorkflow rawId
    · exact hP.updateWorkflow rawId
    · next hmethod => exact hP.deleteWorkflow rawId rfl hmethod
    · exact hP.refuse _
  | runOf rawId =>
    rw [Server.respondTo]
    split
    · exact hP.runWorkflow rawId r
    · exact hP.refuse _
  | quickRun =>
    rw [Server.respondTo]
    split
    · exact hP.quickRun r
    · exact hP.refuse _
  | webhook rawId =>
    rw [Server.respondTo]
    split
    · exact hP.runWebhook rawId r
    · exact hP.refuse _
  | history =>
    rw [Server.respondTo]
    split
    · exact hP.listHistory
    · exact hP.refuse _
  | replay rawId =>
    rw [Server.respondTo]
    split
    · exact hP.getReplay rawId
    · exact hP.refuse _
  | live =>
    rw [Server.respondTo]
    split <;> exact hP.refuse _

end HoldsOfHandlers

theorem tables_perform (H : Host) (g : Graph) (id : String) (trigger : Run.Trigger) (scope : Scope)
    (s : Server) : (s.perform H g id trigger scope).2.tables = s.tables := by
  rw [perform]
  split <;> rfl

theorem tables_execute (H : Host) (g : Graph) (id : String) (trigger : Run.Trigger) (scope : Scope)
    (s : Server) : (execute H g id trigger scope s).2.tables = s.tables := by
  have hperform := tables_perform H g id trigger scope s
  rw [execute]
  split
  · next heq => rwa [heq] at hperform
  · next heq => rwa [heq] at hperform

theorem keeps_finished (H : Host) (g : Graph) (id : String) (trigger : Run.Trigger)
    (scope : Scope) : Keeps tables (finished H g id trigger scope) :=
  .bind (.step (tables_execute H g id trigger scope)) fun result => by
    cases result with
    | some r => exact .pure _
    | none => exact .throw _

theorem runs_keep_tables (H : Host) : HoldsOfRuns H (Keeps tables) where
  bind hh hf := .bind (fun s => congrArg tables (hh s)) hf
  refuse := .refuse
  finished := keeps_finished H

end FlowGraph.Server
