import FlowGraph.Platform
import FlowGraph.Proofs.Run.Bracketing
import FlowGraph.Proofs.Run.Selection

namespace FlowGraph.Run

namespace Record

def around (r : Record) (st : List Record) : List Record :=
  if r.status = .running then st else st.tail

def InCall (r : Record) (st : List Record) : Prop := ∃ v ∈ r.around st, v.nodeType = "subprocess"

instance (r : Record) (st : List Record) : Decidable (r.InCall st) :=
  inferInstanceAs (Decidable (∃ v ∈ r.around st, v.nodeType = "subprocess"))

def callee? (r : Record) : Option String :=
  match r.data.field? "subProcessId" with
  | some (.str id) => some id
  | _ => none

end Record

def Engine.home (E : Engine) (g : Graph) : List Record → Option Graph
  | [] => some g
  | v :: st => if v.nodeType = "subprocess" then v.callee?.bind E.library else E.home g st

theorem Engine.home_of_not_call {E : Engine} {g : Graph} {st : List Record}
    (h : ∀ v ∈ st, v.nodeType ≠ "subprocess") : E.home g st = some g := by
  induction st with
  | nil => rfl
  | cons v st ih =>
    obtain ⟨hv, hst⟩ := List.forall_mem_cons.1 h
    rw [home, if_neg hv, ih hst]

/-- A record made while the visits `st` are open, in a run of `g`, by a node of `owner`. -/
structure Told (E : Engine) (g : Graph) (st : List Record) (r : Record) (owner : Graph) : Prop where
  home : E.home g (r.around st) = some owner
  node : ∃ n ∈ owner.workflow.nodes, n.id = r.nodeId ∧ n.kind.type = r.nodeType
  named : r.subprocessId = if owner.id = g.id then none else some owner.id

def Throughout (P : List Record → Record → Prop) (st rs : List Record) : Prop :=
  ∀ before r after, rs = before ++ r :: after →
    ∃ st', before.foldlM advance st = some st' ∧ P st' r

namespace Throughout

variable {P : List Record → Record → Prop} {st st' rs rs' : List Record} {r : Record}

theorem nil : Throughout P st [] := by
  intro before r after h
  simp at h

theorem cons_iff (hr : advance st r = some st') :
    Throughout P st (r :: rs) ↔ P st r ∧ Throughout P st' rs := by
  constructor
  · intro h
    constructor
    · obtain ⟨st₁, hst₁, hP⟩ := h [] r rs rfl
      cases hst₁
      exact hP
    · rintro before x after rfl
      obtain ⟨st₁, hst₁, hP⟩ := h (r :: before) x after rfl
      obtain ⟨st₂, h₂, hrest⟩ := foldlM_advance_cons.1 hst₁
      cases hr.symm.trans h₂
      exact ⟨st₁, hrest, hP⟩
  · rintro ⟨hP, h⟩ before x after heq
    cases before with
    | nil =>
      cases heq
      exact ⟨st, rfl, hP⟩
    | cons y before =>
      cases heq
      obtain ⟨st₁, hst₁, hx⟩ := h before x after rfl
      exact ⟨st₁, foldlM_advance_cons.2 ⟨st', hr, hst₁⟩, hx⟩

theorem append (h : Throughout P st rs) (hrs : rs.foldlM advance st = some st')
    (h' : Throughout P st' rs') : Throughout P st (rs ++ rs') := by
  induction rs generalizing st with
  | nil =>
    cases hrs
    exact h'
  | cons r rs ih =>
    obtain ⟨st₁, hr, hrest⟩ := foldlM_advance_cons.1 hrs
    obtain ⟨hP, h⟩ := (cons_iff hr).1 h
    exact (cons_iff hr).2 ⟨hP, ih h hrest⟩

variable {E : Engine}

theorem tours {ts : List Tour} (hlaw : ∀ t ∈ ts, t.Lawful E)
    (hst : ∀ v ∈ st.head?, v.nests = true) (h : ∀ t ∈ ts, Throughout P st (t.records E)) :
    Throughout P st (tourRecords E ts) := by
  induction ts with
  | nil => exact nil
  | cons t ts ih =>
    obtain ⟨ht, hts⟩ := List.forall_mem_cons.1 h
    obtain ⟨htlaw, htslaw⟩ := List.forall_mem_cons.1 hlaw
    exact ht.append (htlaw.closed st hst) (ih htslaw hts)

theorem round {t : Tour} {p : Round} (ht : t.Lawful E) (hp : p ∈ t.rounds)
    (hopening : P (t.opening E :: st) (E.record t.graph t.node .info p.message p.data p.begun))
    (h : ∀ u ∈ p.visits, Throughout P (t.opening E :: st) (u.records E)) :
    Throughout P (t.opening E :: st) (p.records E t.graph t.node) := by
  have hnests := ht.nests hp
  have hinfo : advance (t.opening E :: st)
      (E.record t.graph t.node .info p.message p.data p.begun) = some (t.opening E :: st) :=
    advance_info rfl hnests (sameNode_record (ht.workflowId.2 p hp))
  rw [Round.records_eq]
  refine (cons_iff hinfo).2 ⟨hopening, tours (fun u hu => ht.visits hp hu) ?_ h⟩
  simpa using hnests

theorem rounds {t : Tour} (ht : t.Lawful E) {ps : List Round} (hps : ∀ p ∈ ps, p ∈ t.rounds)
    (h : ∀ p ∈ ps, Throughout P (t.opening E :: st) (p.records E t.graph t.node)) :
    Throughout P (t.opening E :: st) (roundRecords E t.graph t.node ps) := by
  induction ps with
  | nil => exact nil
  | cons p ps ih =>
    obtain ⟨hp, hps⟩ := List.forall_mem_cons.1 hps
    obtain ⟨hround, hrest⟩ := List.forall_mem_cons.1 h
    have hkept : (p.records E t.graph t.node).foldlM advance (t.opening E :: st) =
        some (t.opening E :: st) := by
      have hkeep : (roundRecords E t.graph t.node [p]).foldlM advance (t.opening E :: st) =
          some (t.opening E :: st) :=
        ht.rounds_keep (by simpa using hp) (by simpa using fun u hu => (ht.visits hp hu).closed) st
      simpa [roundRecords] using hkeep
    exact hround.append hkept (ih hps hrest)

end Throughout

variable {E : Engine} {g : Graph} {c : Context}

theorem Graph.mem_of_node? {g : Graph} {id : String} {n : Node} (h : g.node? id = some n) :
    n ∈ g.workflow.nodes := by
  obtain ⟨i, -, hi⟩ := Option.bind_eq_some_iff.1 h
  exact List.mem_of_getElem? hi

theorem Selected.mem_nodes {ts : List Tour} {c' : Context}
    {r : Except Abort Unit} {id : String} {b : Branch}
    (h : Selected g (g.next id b) c ts r c') {u : Tour} (hu : u ∈ ts) :
    u.graph = g ∧ u.node ∈ u.graph.workflow.nodes := by
  have hgraph := h.graph u hu
  have hnext : u.node ∈ g.next id b := h.nodes.subset (List.mem_map_of_mem hu)
  exact ⟨hgraph, hgraph ▸ Graph.mem_nodes_of_mem_next hnext⟩

theorem Tour.Lawful.home_visits {t u : Tour} {p : Round} {st : List Record} (h : t.Lawful E)
    (hhome : E.home g st = some t.graph) (hp : p ∈ t.rounds) (hu : u ∈ p.visits) :
    E.home g (t.opening E :: st) = some u.graph ∧ u.node ∈ u.graph.workflow.nodes := by
  have htype : (t.opening E).nodeType = t.node.kind.type := rfl
  by_cases hk : ∃ id, t.node.kind = .subprocess id
  · obtain ⟨id, hk⟩ := hk
    obtain ⟨callee, v, hlibrary, hvisits, hgraph, hentry⟩ := (h.selects.call id hk).2 p hp
    obtain rfl : u = v := by simpa [hvisits] using hu
    have hcallee : (t.opening E).callee? = some id := by
      simp only [Record.callee?, Tour.opening, Engine.opening, Engine.record, Node.data, hk]
      rfl
    rw [Engine.home, htype, hk, hcallee]
    exact ⟨by simpa [NodeKind.type, hgraph] using hlibrary, hgraph ▸ Graph.mem_of_node? hentry⟩
  · have hbody := h.selects.passes (fun id hid => hk ⟨id, hid⟩) p hp
    obtain ⟨hgraph, hnode⟩ := hbody.mem_nodes hu
    have hcall : t.node.kind.type ≠ "subprocess" := by
      rcases NodeKind.nests_iff.1 (h.works.shape.nests hp) with
        ⟨_, hn⟩ | ⟨_, hn⟩ | ⟨_, _, hn⟩ | ⟨id, hn⟩
      · simp [hn, NodeKind.type]
      · simp [hn, NodeKind.type]
      · simp [hn, NodeKind.type]
      · exact absurd ⟨id, hn⟩ hk
    rw [Engine.home, htype, if_neg hcall, hgraph]
    exact ⟨hhome, hgraph ▸ hnode⟩

theorem Tour.mem_records_of_visit {t u : Tour} {p : Round} (hp : p ∈ t.rounds) (hu : u ∈ p.visits)
    {r : Record} (hr : r ∈ u.records E) : r ∈ t.records E := by
  have hround : r ∈ p.records E t.graph t.node := by
    rw [Round.records_eq]
    exact List.mem_cons_of_mem _ (mem_tourRecords.2 ⟨u, hu, hr⟩)
  rw [records_eq]
  exact List.mem_cons_of_mem _ (List.mem_append_left _ (mem_roundRecords.2 ⟨p, hp, hround⟩))

theorem Tour.mem_records_of_onward {t u : Tour} (hu : u ∈ t.onward) {r : Record}
    (hr : r ∈ u.records E) : r ∈ t.records E := by
  rw [records_eq]
  apply List.mem_cons_of_mem
  exact List.mem_append_right _ (List.mem_cons_of_mem _ (mem_tourRecords.2 ⟨u, hu, hr⟩))

theorem Tour.Lawful.onward_nodes {t u : Tour} (h : t.Lawful E) (hu : u ∈ t.onward) :
    u.graph = t.graph ∧ u.node ∈ u.graph.workflow.nodes := by
  cases hending : t.ending with
  | ok o => exact (h.selects.onward o hending).mem_nodes hu
  | error e =>
    rw [h.selects.stopped e hending] at hu
    cases hu

theorem Tour.Lawful.told {t : Tour} (h : t.Lawful E) {st : List Record}
    (hst : ∀ v ∈ st.head?, v.nests = true) (hhome : E.home g st = some t.graph)
    (hnode : t.node ∈ t.graph.workflow.nodes) (hnamed : ∀ r ∈ t.records E, r.workflowId = g.id) :
    Throughout (fun st r => ∃ owner, Told E g st r owner) st (t.records E) := by
  induction h generalizing st with
  | @intro t hworks hcont hrounds honward ihrounds ihonward =>
    have hlaw := Lawful.intro hworks hcont hrounds honward
    have hname : t.start.workflowId = g.id := hnamed (t.opening E) (by simp [Tour.records_eq])
    have htold : ∀ {st' : List Record} {status : Status} {message : String} {data : Json}
        {c : Context}, c.workflowId = t.start.workflowId →
        (E.record t.graph t.node status message data c).around st' = st →
        ∃ owner, Told E g st' (E.record t.graph t.node status message data c) owner := by
      intro st' status message data c hc haround
      refine ⟨t.graph, haround ▸ hhome, ⟨t.node, hnode, rfl, rfl⟩, ?_⟩
      simp only [Engine.record, hc, hname]
    rw [Tour.records_eq]
    refine (Throughout.cons_iff (advance_opening rfl hst)).2 ⟨htold rfl rfl, ?_⟩
    refine Throughout.append (.rounds hlaw (fun _ hp => hp) fun p hp => ?_)
      (hlaw.rounds_keep (fun _ hp => hp) (fun p hp u hu => (hrounds p hp u hu).closed) st) ?_
    · refine .round hlaw hp (htold (hlaw.workflowId.2 p hp) rfl) fun u hu => ?_
      obtain ⟨huhome, hunode⟩ := hlaw.home_visits hhome hp hu
      refine ihrounds p hp u hu (by simpa using hlaw.nests hp) huhome hunode fun r hr => ?_
      exact hnamed r (Tour.mem_records_of_visit hp hu hr)
    · have hclosing : advance (t.opening E :: st) (t.closing E) = some st :=
        advance_closing (isClosing_closing ..) hlaw.sameNode_closing
      refine (Throughout.cons_iff hclosing).2 ⟨?_, .tours honward hst fun u hu => ?_⟩
      · rw [Tour.closing]
        cases t.ending <;> exact htold hlaw.workflowId.1 rfl
      · obtain ⟨hugraph, hunode⟩ := hlaw.onward_nodes hu
        refine ihonward u hu hst (hugraph ▸ hhome) hunode fun r hr => ?_
        exact hnamed r (Tour.mem_records_of_onward hu hr)

/-- What a record says of the workflow `owner` of its node. In a call of a workflow with the id of
the one that was started, it says what a record outside of calls does. -/
structure Attributed (E : Engine) (g : Graph) (st : List Record) (r : Record) (owner : Graph) :
    Prop where
  home : E.home g (r.around st) = some owner
  node : ∃ n ∈ owner.workflow.nodes, n.id = r.nodeId ∧ n.kind.type = r.nodeType
  outside : ¬ r.InCall st → owner = g ∧ r.subprocessId = none
  inside : r.InCall st → owner.id ≠ g.id → r.subprocessId = some owner.id
  again : r.InCall st → owner.id = g.id → r.subprocessId = none

theorem Told.attributed {st : List Record} {r : Record} {owner : Graph}
    (h : Told E g st r owner) : Attributed E g st r owner where
  home := h.home
  node := h.node
  outside hr := by
    have hhome := h.home
    rw [Engine.home_of_not_call fun v hv hcall => hr ⟨v, hv, hcall⟩] at hhome
    cases hhome
    exact ⟨rfl, by rw [h.named, if_pos rfl]⟩
  inside _ hid := by rw [h.named, if_neg hid]
  again _ hid := by rw [h.named, if_pos hid]

theorem run_attributes (hE : E.Compiled) (hg : g.Compiled) {processId : String}
    {trigger : Trigger} {scope : Scope} {outside : Outside} {moment : Instant} {fuel : Nat}
    {r : Result}
    (h : E.run fuel g (.start processId g.id trigger scope outside moment) = some (r, c))
    {before after : List Record} {x : Record} (hx : c.trace.toList = before ++ x :: after) :
    ∃ st owner, openAfter before = some st ∧ Attributed E g st x owner := by
  obtain ⟨t, entry, hentry, -, ht, hlaw, -⟩ := exists_tour hE hg h
  have htrace : c.trace.toList = t.records E := ht.finish ▸ hlaw.trace (by rw [ht.start]; rfl)
  have hnamed := (hlaw.stepwise (stepwise_adds E)).named
  have hname : ∀ r ∈ t.records E, r.workflowId = g.id := by
    intro r hr
    rw [(hnamed r hr).2, ht.start]
    rfl
  have hhome : E.home g [] = some t.graph := by
    rw [ht.graph]
    rfl
  have hnode : t.node ∈ t.graph.workflow.nodes := by
    rw [ht.graph, ht.node]
    exact Graph.mem_of_node? hentry
  have htold := hlaw.told (by simp) hhome hnode hname
  obtain ⟨st, hst, owner, howner⟩ := htold before x after (htrace ▸ hx)
  exact ⟨st, owner, hst, howner.attributed⟩

theorem run_attributes_call : ∃ r c before x after,
    (Sample.engine Sample.sound).run 10 Sample.graph Sample.start = some (r, c) ∧
    c.trace.toList = before ++ x :: after ∧ x.subprocessId = some "child" ∧
    ∃ st owner, openAfter before = some st ∧
      Attributed (Sample.engine Sample.sound) Sample.graph st x owner := by
  have hrun : ((Sample.engine Sample.sound).run 10 Sample.graph Sample.start).map
      (fun p => p.2.trace.toList[4]?.map (·.subprocessId)) = some (some (some "child")) := by
    decide +kernel
  obtain ⟨⟨r, c⟩, h, hmap⟩ := Option.map_eq_some_iff.1 hrun
  obtain ⟨x, hget, hname⟩ := Option.map_eq_some_iff.1 hmap
  obtain ⟨before, after, hx⟩ := List.append_of_mem (List.mem_of_getElem? hget)
  have hE := Sample.engine_compiled (Graph.ofWorkflow_compiled (Sample.child (.log "done"))
    (by decide))
  exact ⟨r, c, before, x, after, h, hx, hname, run_attributes hE Sample.graph_compiled h hx⟩

namespace Sample

def again : Workflow where
  id := "again"
  name := "Again"
  description := ""
  nodes := [⟨"0", "", .condition "\"\x7b\x7bmark\x7d\x7d\" == \"x\""⟩, ⟨"1", "", .text "x" "mark"⟩,
    ⟨"2", "", .subprocess "again"⟩, ⟨"3", "", .log "inner"⟩]
  edges := [⟨"a", "0", "True", "3"⟩, ⟨"b", "0", "False", "1"⟩, ⟨"c", "1", "", "2"⟩]

def recursion : Graph := .ofWorkflow again (by decide)

def recursive : Engine := ⟨fun id => if id = "again" then some recursion else none, fun _ => moment⟩

end Sample

/-- The entry is visited for the second time, in the call. -/
theorem recursion_unattributed : ∃ r c before x after st,
    Sample.recursive.run 10 Sample.recursion
      (.start "p" "again" .manual .initial (Platform.alone fun _ => some 0) Sample.moment) =
        some (r, c) ∧
    c.trace.toList = before ++ x :: after ∧ openAfter before = some st ∧ x.InCall st ∧
    x.subprocessId = none := by
  have hrun : (Sample.recursive.run 10 Sample.recursion
      (.start "p" "again" .manual .initial (Platform.alone fun _ => some 0) Sample.moment)).any
        (fun p => (p.2.trace.toList.drop 6).head?.any fun x =>
          (openAfter (p.2.trace.toList.take 6)).any fun st =>
            x.InCall st ∧ x.subprocessId = none) = true := by
    decide +kernel
  obtain ⟨⟨r, c⟩, h, hany⟩ := Option.any_eq_true _ _ |>.1 hrun
  obtain ⟨x, hx, hany⟩ := Option.any_eq_true _ _ |>.1 hany
  obtain ⟨st, hst, hcall⟩ := Option.any_eq_true _ _ |>.1 hany
  obtain ⟨after, hdrop⟩ := List.head?_eq_some_iff.1 hx
  obtain ⟨hcall, hnone⟩ := of_decide_eq_true hcall
  refine ⟨r, c, _, x, after, st, h, ?_, hst, hcall, hnone⟩
  rw [← hdrop, List.take_append_drop]

end FlowGraph.Run
