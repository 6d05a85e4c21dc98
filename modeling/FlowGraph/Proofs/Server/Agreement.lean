import FlowGraph.Platform
import FlowGraph.Proofs.Server.Change

namespace FlowGraph.Server

structure Exchange where
  request : Request
  reply : Option Reply

def serve (H : Host) : List Request → Server → List Exchange × Server
  | [], s => ([], s)
  | r :: rs, s =>
    let (reply, s) := handle H r s
    let (es, s) := serve H rs s
    (⟨r, reply⟩ :: es, s)

def Change.applied (m : Keyed Workflow) : Option Change → Keyed Workflow
  | some (.define w) => m.put w.id w
  | some (.drop id) => m.erase id
  | none => m

/-- The last workflow that was accepted under each id and not deleted since, told from the
requests and their replies; `m` is what was there before. -/
def accepted (es : List Exchange) (m : Keyed Workflow) : Keyed Workflow :=
  es.foldl (fun m e => Change.applied m (Change.granted e.request.change? e.reply)) m

structure Tables.Hold (t : Tables) (m : Keyed Workflow) : Prop where
  own : ∀ id w, m.get? id = some w → w.id = id
  rows : ∀ id, (t.definitions.get? id).map (fun d => (d.name, d.workflow)) =
    (m.get? id).map fun w => (w.name, .ok w)
  compiled : ∀ id, (t.registry.get? id).map .ok = (m.get? id).map Graph.compile
  jobs : ∀ id, t.jobs.get? id = (t.registry.get? id).bind Graph.period?

theorem get?_schedule (j : Jobs) (g : Graph) (id : String) :
    (j.schedule g).get? id = if g.id = id then g.period? else j.get? id := by
  rw [Jobs.schedule]
  cases g.period? with
  | none => simp
  | some p => by_cases h : g.id = id <;> simp [h]

namespace Tables.Hold

variable {t : Tables} {m : Keyed Workflow}

theorem start (outside : Outside) : (Server.start outside).tables.Hold .empty where
  own := nofun
  rows _ := rfl
  compiled _ := rfl
  jobs _ := rfl

theorem define (h : t.Hold m) {w : Workflow} {g : Graph} (now : Instant) (hw : w.Kept)
    (hg : Graph.compile w = .ok g) : (t.define w g now).Hold (m.put w.id w) := by
  have hid : g.id = w.id := congrArg Workflow.id (Graph.compile_ok hg).1
  refine ⟨fun id v => ?_, fun id => ?_, fun id => ?_, fun id => ?_⟩
  · rw [Keyed.get?_put]
    split
    · rintro ⟨⟩
      assumption
    · exact h.own id v
  · rw [Tables.define, Store.Definitions.save, Keyed.get?_put, Keyed.get?_put]
    split
    · exact congrArg (fun v => some (w.name, v)) (hw _ _)
    · exact h.rows id
  · rw [Tables.define, Registry.publish, Keyed.get?_put, Keyed.get?_put, hid]
    split
    · simp [hg]
    · exact h.compiled id
  · rw [Tables.define, Registry.publish, Keyed.get?_put, get?_schedule, hid]
    split
    · rfl
    · exact h.jobs id

theorem drop (h : t.Hold m) (id : String) : (t.drop id).Hold (m.erase id) := by
  refine ⟨fun k v => ?_, fun k => ?_, fun k => ?_, fun k => ?_⟩
  · rw [Keyed.get?_erase]
    split
    · nofun
    · exact h.own k v
  · rw [Tables.drop, Keyed.get?_erase, Keyed.get?_erase]
    split
    · rfl
    · exact h.rows k
  · rw [Tables.drop, Keyed.get?_erase, Keyed.get?_erase]
    split
    · rfl
    · exact h.compiled k
  · rw [Tables.drop, Keyed.get?_erase, Keyed.get?_erase]
    split
    · rfl
    · exact h.jobs k

theorem contains_definitions (h : t.Hold m) (id : String) :
    t.definitions.contains id = m.contains id := by
  have := congrArg Option.isSome (h.rows id)
  rwa [Option.isSome_map, Option.isSome_map] at this

theorem contains_registry (h : t.Hold m) (id : String) :
    t.registry.contains id = m.contains id := by
  have := congrArg Option.isSome (h.compiled id)
  rwa [Option.isSome_map, Option.isSome_map] at this

theorem follows (h : t.Hold m) {c : Option Change} {t' : Tables} (hf : Follows t c t') :
    t'.Hold (Change.applied m c) := by
  cases hf with
  | same => exact h
  | define now hw hg => exact h.define now hw hg
  | drop id => exact h.drop id
  | absent id hid =>
    have hm : m.contains id = false := (h.contains_definitions id).symm.trans hid
    have := h.drop id
    rwa [Keyed.erase_of_not_contains hm] at this

end Tables.Hold

/-- The rows, the compiled workflows and the jobs are those of the accepted workflows, and the
compiled ones are what a new start would make of the rows. -/
structure Consistent (accepted : Keyed Workflow) (s : Server) : Prop where
  ids : ∀ id, s.registry.contains id = s.store.definitions.contains id ∧
    s.store.definitions.contains id = accepted.contains id
  compiled : ∀ id g, s.registry.get? id = some g → g.id = id ∧ ∃ d w,
    s.store.definitions.get? id = some d ∧ accepted.get? id = some w ∧
      d.workflow = .ok w ∧ d.name = w.name ∧ w.id = id ∧ g.workflow = w ∧ Graph.compile w = .ok g
  jobs : ∀ id, s.jobs.contains id = true ↔ ∃ g n t, s.registry.get? id = some g ∧
    g.entry? = some n ∧ n.kind = .interval t ∧ t.length ≠ 0
  rebuilt : Registry.ofDefinitions s.store.definitions = .ok s.registry

theorem period?_isSome {g : Graph} : g.period?.isSome = true ↔
    ∃ n t, g.entry? = some n ∧ n.kind = .interval t ∧ t.length ≠ 0 := by
  constructor
  · intro h
    obtain ⟨p, hp⟩ := Option.isSome_iff_exists.1 h
    obtain ⟨t, ht, hp⟩ := Option.bind_eq_some_iff.1 hp
    rw [Graph.interval?] at ht
    split at ht
    · next id label t' hentry =>
      cases ht
      refine ⟨_, t, hentry, rfl, ?_⟩
      intro hzero
      simp [Interval.period?, hzero] at hp
    · cases ht
  · rintro ⟨⟨id, label, k⟩, t, hentry, rfl, hlength⟩
    simp [Graph.period?, Graph.interval?, hentry, Interval.period?, hlength]

namespace Tables.Hold

variable {t : Tables} {m : Keyed Workflow} {id : String}

theorem row (h : t.Hold m) {d : Store.Definition} (hd : t.definitions.get? id = some d) :
    ∃ w, m.get? id = some w ∧ d.name = w.name ∧ d.workflow = .ok w := by
  have hrow := h.rows id
  rw [hd, Option.map_some] at hrow
  obtain ⟨w, hw, hdw⟩ := Option.map_eq_some_iff.1 hrow.symm
  obtain ⟨hname, hworkflow⟩ := Prod.mk.inj hdw
  exact ⟨w, hw, hname.symm, hworkflow.symm⟩

theorem graph (h : t.Hold m) {g : Graph} (hg : t.registry.get? id = some g) :
    ∃ w, m.get? id = some w ∧ Graph.compile w = .ok g := by
  have hcompiled := h.compiled id
  rw [hg, Option.map_some] at hcompiled
  obtain ⟨w, hw, hgw⟩ := Option.map_eq_some_iff.1 hcompiled.symm
  exact ⟨w, hw, hgw⟩

theorem rebuilt (h : t.Hold m) : Registry.ofDefinitions t.definitions = .ok t.registry := by
  have htexts : t.definitions.entries.all (·.2.text.isSome) = true := by
    rw [List.all_eq_true]
    intro e he
    obtain ⟨w, -, -, hw⟩ := h.row (Entries.get?_of_mem t.definitions.ascending he)
    rw [Store.Definition.workflow] at hw
    split at hw
    · next htext => rw [htext]; rfl
    · cases hw
  have hmap : (t.definitions.filterMap (·.workflow.toOption)).filterMap
      (fun w => (Graph.compile w).toOption) = t.registry := by
    apply Keyed.ext_get?
    intro id
    rw [Keyed.get?_filterMap, Keyed.get?_filterMap]
    have hcompiled := h.compiled id
    cases hd : t.definitions.get? id with
    | none =>
      have hcontains : t.registry.contains id = false := by
        rw [h.contains_registry, ← h.contains_definitions, Keyed.contains, hd]
        rfl
      rw [Keyed.get?_of_not_contains hcontains]
      rfl
    | some d =>
      obtain ⟨w, hw, -, hworkflow⟩ := h.row hd
      rw [hw, Option.map_some] at hcompiled
      obtain ⟨g, hg, hgw⟩ := Option.map_eq_some_iff.1 hcompiled
      rw [hg, Option.bind_some, hworkflow]
      change (Graph.compile w).toOption = some g
      rw [← hgw]
      rfl
  rw [Registry.ofDefinitions, Store.Definitions.workflows, if_pos htexts]
  exact congrArg Except.ok hmap

theorem consistent {s : Server} (h : s.tables.Hold m) : Consistent m s where
  ids id := ⟨(h.contains_registry id).trans (h.contains_definitions id).symm,
    h.contains_definitions id⟩
  compiled id g hg := by
    obtain ⟨w, hw, hgw⟩ := h.graph hg
    have hgraph : g.workflow = w := (Graph.compile_ok hgw).1
    have hid : w.id = id := h.own id w hw
    have hcontains : s.store.definitions.contains id = true :=
      (h.contains_definitions id).trans (by rw [Keyed.contains, hw]; rfl)
    obtain ⟨d, hd⟩ := Option.isSome_iff_exists.1 hcontains
    obtain ⟨v, hv, hname, hworkflow⟩ := h.row hd
    obtain rfl : w = v := Option.some.inj (hw.symm.trans hv)
    exact ⟨(congrArg Workflow.id hgraph).trans hid, d, w, hd, hw, hworkflow, hname, hid, hgraph, hgw⟩
  jobs id := by
    rw [Keyed.contains, show s.jobs.get? id = _ from h.jobs id]
    change ((s.registry.get? id).bind Graph.period?).isSome = true ↔ _
    cases hg : s.registry.get? id with
    | none => simp
    | some g => simp [period?_isSome]
  rebuilt := h.rebuilt

end Tables.Hold

theorem hold_handle (H : Host) {r : Request} {s : Server} {m : Keyed Workflow}
    (hr : ∀ w, r.decoded workflowBody = .ok w → w.FloatsReadBack) (h : s.tables.Hold m) :
    (handle H r s).2.tables.Hold
      (Change.applied m (Change.granted r.change? (handle H r s).1)) := by
  rw [handle_eq]
  exact h.follows (makes_respond H s hr)

theorem hold_serve (H : Host) {rs : List Request} {s : Server} {m : Keyed Workflow}
    (hrs : ∀ r ∈ rs, ∀ w, r.decoded workflowBody = .ok w → w.FloatsReadBack)
    (h : s.tables.Hold m) : (serve H rs s).2.tables.Hold (accepted (serve H rs s).1 m) := by
  -- the map goes along with the state, changed by each reply
  induction rs generalizing s m with
  | nil => exact h
  | cons r rs ih =>
    obtain ⟨hr, hrs⟩ := List.forall_mem_cons.1 hrs
    exact ih hrs (hold_handle H hr h)

theorem serve_consistent (H : Host) (outside : Outside) (rs : List Request)
    (hrs : ∀ r ∈ rs, ∀ w, r.decoded workflowBody = .ok w → w.FloatsReadBack) :
    Consistent (accepted (serve H rs (start outside)).1 .empty) (serve H rs (start outside)).2 :=
  (hold_serve H hrs (.start outside)).consistent

namespace Sample

theorem newYear_legal : 1 ≤ 1 ∧ 1 ≤ 12 ∧ 1 ≤ 1 ∧ 1 ≤ daysIn 2024 1 := by
  decide

theorem midnight_legal : 0 < 24 ∧ 0 < 60 ∧ 0 < 60 ∧ 0 < 2 * nanosPerSecond := by
  decide

def host : Host where
  clock _ := ⟨⟨2024, 1, 1, newYear_legal⟩, ⟨0, 0, 0, 0, midnight_legal⟩⟩
  processId _ := "run"
  fuel := 10

def outside : Outside := Platform.alone fun _ => some 0

def sent (method path body : String) : Request := ⟨method, path, "", some "application/json", body⟩

def requests : List Request := [
  sent "POST" "/api/workflows" "[[\"a\",\"A\",\"\",[[\"0\",\"interval\",\"\",[5,\"hours\",[]]]],[]]]",
  sent "PUT" "/api/workflows/a" "[[\"x\",\"B\",\"\",[[\"0\",\"setVariable\",\"\",[\"v\",0.1]]],[]]]"]

end Sample

theorem serve_consistent_edited :
    (serve Sample.host Sample.requests (start Sample.outside)).1.map
        (fun e => e.reply.map (·.status)) = [some 200, some 200] ∧
      Consistent (accepted (serve Sample.host Sample.requests (start Sample.outside)).1 .empty)
        (serve Sample.host Sample.requests (start Sample.outside)).2 := by
  have hread : ∀ r ∈ Sample.requests, (r.decoded workflowBody).toOption.all (fun w =>
      w.nodes.all fun n => n.data.numbers.all fun m => decide m.ReadsBack) = true := by
    decide +kernel
  refine ⟨by decide +kernel, serve_consistent _ _ _ ?_⟩
  intro r hr w hw n hn x hx
  have h := hread r hr
  rw [hw] at h
  exact of_decide_eq_true (List.all_eq_true.1 (List.all_eq_true.1 h n hn) _ hx)

end FlowGraph.Server
