import FlowGraph.Proofs.Run.Course
import FlowGraph.Proofs.Run.Stretch
import Mathlib.Data.List.Nodup

namespace FlowGraph.Run

namespace Record

def nests (r : Record) : Bool := ["loop", "foreach", "while", "subprocess"].contains r.nodeType

structure SameNode (a b : Record) : Prop where
  workflow : a.subprocessId = b.subprocessId
  node : a.nodeId = b.nodeId
  type : a.nodeType = b.nodeType

instance (a b : Record) : Decidable (SameNode a b) :=
  decidable_of_iff (a.subprocessId = b.subprocessId ∧ a.nodeId = b.nodeId ∧ a.nodeType = b.nodeType)
    ⟨fun h => ⟨h.1, h.2.1, h.2.2⟩, fun h => ⟨h.workflow, h.node, h.type⟩⟩

def IsClosing (r : Record) : Prop := r.status = .completed ∨ r.status = .failed

end Record

/-- The visits that are open after one more record, if it may come next. A visit is known by the
record that opened it; the innermost comes first. -/
def advance : List Record → Record → Option (List Record)
  | [], r => if r.status = .running then some [r] else none
  | v :: outer, r =>
    match r.status with
    | .running => if v.nests then some (r :: v :: outer) else none
    | .info => if v.nests ∧ r.SameNode v then some (v :: outer) else none
    | .completed | .failed => if r.SameNode v then some outer else none

def openAfter (rs : List Record) : Option (List Record) := rs.foldlM advance []

def Closes (rs : List Record) (r x : Record) : Prop :=
  ∃ before after outer, rs = before ++ x :: after ∧ openAfter before = some (r :: outer) ∧
    x.IsClosing ∧ x.SameNode r

section Stacks

variable {st st' : List Record} {r : Record} {rs : List Record}

theorem advance_cases (h : advance st r = some st') :
    (r.status = .running ∧ st' = r :: st) ∨ (r.status = .info ∧ st' = st) ∨
      (r.IsClosing ∧ ∃ v, st = v :: st' ∧ r.SameNode v) := by
  cases st with
  | nil =>
    rw [advance] at h
    split at h
    · next hr =>
      cases h
      exact .inl ⟨hr, rfl⟩
    · cases h
  | cons v outer =>
    cases hr : r.status <;> simp only [advance, hr] at h <;> split at h <;> cases h
    · exact .inl ⟨rfl, rfl⟩
    · next hn => exact .inr (.inr ⟨.inl hr, v, rfl, hn⟩)
    · next hn => exact .inr (.inr ⟨.inr hr, v, rfl, hn⟩)
    · exact .inr (.inl ⟨rfl, rfl⟩)

theorem foldlM_advance_append {rs' : List Record} :
    (rs ++ rs').foldlM advance st = some st' ↔
      ∃ st₁, rs.foldlM advance st = some st₁ ∧ rs'.foldlM advance st₁ = some st' := by
  rw [List.foldlM_append]
  exact Option.bind_eq_some_iff

theorem foldlM_advance_cons :
    (r :: rs).foldlM advance st = some st' ↔
      ∃ st₁, advance st r = some st₁ ∧ rs.foldlM advance st₁ = some st' := by
  rw [List.foldlM_cons]
  exact Option.bind_eq_some_iff

theorem sublist_of_foldlM_advance (h : rs.foldlM advance st = some st') :
    st'.Sublist (rs.reverse ++ st) := by
  induction rs generalizing st with
  | nil =>
    cases h
    exact List.Sublist.refl _
  | cons r rs ih =>
    obtain ⟨st₁, h₁, h₂⟩ := foldlM_advance_cons.1 h
    have hrest := ih h₂
    rw [List.reverse_cons, List.append_assoc, List.singleton_append]
    rcases advance_cases h₁ with ⟨-, rfl⟩ | ⟨-, rfl⟩ | ⟨-, v, rfl, -⟩
    · exact hrest
    · exact hrest.trans (.append_left (List.sublist_cons_self _ _) _)
    · refine hrest.trans (.append_left ?_ _)
      exact (List.sublist_cons_self _ _).trans (List.sublist_cons_self _ _)

end Stacks

theorem not_mem_of_open {r x : Record} {before after outer : List Record}
    (hn : (before ++ x :: after).Nodup) (hopen : openAfter before = some (r :: outer)) :
    r ∉ outer ∧ r ∉ x :: after := by
  have hsub := sublist_of_foldlM_advance hopen
  rw [List.append_nil] at hsub
  obtain ⟨hb, -, hdisj⟩ := List.nodup_append.1 hn
  have hr : r ∈ before := by simpa using hsub.subset List.mem_cons_self
  refine ⟨(List.nodup_cons.1 (hsub.nodup ?_)).1, fun hx => hdisj r hr r hx rfl⟩
  exact List.nodup_reverse.2 hb

theorem not_open_again {r x y : Record} {before mid after outer outer' : List Record}
    (hn : (before ++ x :: (mid ++ y :: after)).Nodup)
    (hopen : openAfter before = some (r :: outer)) (hx : x.IsClosing)
    (hagain : openAfter (before ++ x :: mid) = some (r :: outer')) : False := by
  obtain ⟨hout, hafter⟩ := not_mem_of_open hn hopen
  obtain ⟨st, hst, hrest⟩ := foldlM_advance_append.1 hagain
  cases hopen.symm.trans hst
  obtain ⟨st₁, h₁, hmid⟩ := foldlM_advance_cons.1 hrest
  rcases advance_cases h₁ with ⟨hs, -⟩ | ⟨hs, -⟩ | ⟨-, v, hv, -⟩
  · simp [Record.IsClosing, hs] at hx
  · simp [Record.IsClosing, hs] at hx
  · cases hv
    have hr := (sublist_of_foldlM_advance hmid).subset List.mem_cons_self
    simp only [List.mem_append, List.mem_reverse] at hr
    rcases hr with hr | hr
    · exact hafter (by simp [hr])
    · exact hout hr

theorem advance_of_prefix {before after st st' : List Record} {r : Record}
    (h : openAfter (before ++ r :: after) = some st') (hb : before.foldlM advance [] = some st)
    (hr : r.status = .running) : advance st r = some (r :: st) := by
  obtain ⟨st₀, hst₀, hrest⟩ := foldlM_advance_append.1 h
  cases hb.symm.trans hst₀
  obtain ⟨st₁, h₁, -⟩ := foldlM_advance_cons.1 hrest
  rcases advance_cases h₁ with ⟨-, rfl⟩ | ⟨hi, -⟩ | ⟨hc, -⟩
  · exact h₁
  · simp [hr] at hi
  · simp [Record.IsClosing, hr] at hc

theorem Closes.unique {rs : List Record} {r x y : Record} (hn : rs.Nodup) (hx : Closes rs r x)
    (hy : Closes rs r y) : x = y := by
  obtain ⟨before, after, outer, rfl, hopen, hclosing, -⟩ := hx
  obtain ⟨before', after', outer', hrs, hopen', hclosing', -⟩ := hy
  rcases List.append_eq_append_iff.1 hrs with ⟨mid, rfl, hmid⟩ | ⟨mid, rfl, hmid⟩
  · cases mid with
    | nil =>
      cases hmid
      rfl
    | cons z mid =>
      obtain ⟨rfl, rfl⟩ := List.cons.inj hmid
      exact (not_open_again hn hopen hclosing hopen').elim
  · cases mid with
    | nil =>
      cases hmid
      rfl
    | cons z mid =>
      obtain ⟨rfl, rfl⟩ := List.cons.inj hmid
      rw [List.append_assoc] at hn
      exact (not_open_again hn hopen' hclosing' hopen).elim

variable {E : Engine} {g : Graph} {n : Node} {c c' : Context}

theorem sameNode_record {s s' : Status} {m m' : String} {d d' : Json}
    (h : c.workflowId = c'.workflowId) :
    (E.record g n s m d c).SameNode (E.record g n s' m' d' c') := by
  refine ⟨?_, rfl, rfl⟩
  simp only [Engine.record, h]

theorem opening_nests (h : n.kind.nests = true) : (E.opening g n c).nests = true := by
  rcases NodeKind.nests_iff.1 h with ⟨i, h⟩ | ⟨l, h⟩ | ⟨x, m, h⟩ | ⟨id, h⟩ <;>
    simp [Record.nests, Engine.opening, Engine.record, h, NodeKind.type]

theorem isClosing_closing (E : Engine) (g : Graph) (n : Node) (ending : Except Failure Outcome)
    (c : Context) : (E.closing g n ending c).IsClosing := by
  cases ending with
  | ok o => exact .inl rfl
  | error e => exact .inr rfl

theorem advance_opening {r : Record} {st : List Record} (hr : r.status = .running)
    (hst : ∀ v ∈ st.head?, v.nests = true) : advance st r = some (r :: st) := by
  cases st with
  | nil => simp [advance, hr]
  | cons v outer => simp [advance, hr, hst v (by simp)]

theorem advance_info {v r : Record} {st : List Record} (hr : r.status = .info)
    (hv : v.nests = true) (hn : r.SameNode v) : advance (v :: st) r = some (v :: st) := by
  simp [advance, hr, hv, hn]

theorem advance_closing {v r : Record} {st : List Record} (hr : r.IsClosing)
    (hn : r.SameNode v) : advance (v :: st) r = some st := by
  rcases hr with hr | hr <;> simp [advance, hr, hn]

def Closed (rs : List Record) : Prop :=
  ∀ st : List Record, (∀ v ∈ st.head?, v.nests = true) → rs.foldlM advance st = some st

theorem Closed.append {rs rs' : List Record} (h : Closed rs) (h' : Closed rs') :
    Closed (rs ++ rs') :=
  fun st hst => foldlM_advance_append.2 ⟨st, h st hst, h' st hst⟩

theorem Closed.tours {ts : List Tour} (h : ∀ t ∈ ts, Closed (t.records E)) :
    Closed (tourRecords E ts) := by
  induction ts with
  | nil => exact fun _ _ => rfl
  | cons t ts ih =>
    obtain ⟨ht, hts⟩ := List.forall_mem_cons.1 h
    exact ht.append (ih hts)

theorem rounds_closed {v : Record} {st : List Record} {ps : List Round} (hv : v.nests = true)
    (hn : ∀ p ∈ ps, (E.record g n .info p.message p.data p.begun).SameNode v)
    (h : ∀ p ∈ ps, ∀ t ∈ p.visits, Closed (t.records E)) :
    (roundRecords E g n ps).foldlM advance (v :: st) = some (v :: st) := by
  induction ps with
  | nil => rfl
  | cons p ps ih =>
    obtain ⟨hp, hps⟩ := List.forall_mem_cons.1 h
    obtain ⟨hnp, hnps⟩ := List.forall_mem_cons.1 hn
    rw [roundRecords, Round.records_eq]
    refine foldlM_advance_append.2 ⟨v :: st, foldlM_advance_cons.2 ⟨v :: st, ?_, ?_⟩, ih hnps hps⟩
    · exact advance_info rfl hv hnp
    · exact Closed.tours hp _ (by simpa using hv)

theorem Shape.nests {k : NodeKind} {ps : List Round} {ending : Except Failure Outcome}
    (h : Shape E g n k c ps ending c') {p : Round} (hp : p ∈ ps) : k.nests = true := by
  cases h with
  | alone => cases hp
  | passes hk => exact hk
  | call hk => exact hk

theorem stepwise_workflowId (E : Engine) :
    Stepwise E fun c _ c' => c'.workflowId = c.workflowId where
  none _ := rfl
  append h h' := h'.trans h
  note _ _ _ _ _ _ := rfl
  surround _ _ := rfl
  deepen _ _ := rfl

theorem Tour.Lawful.workflowId {t : Tour} (h : t.Lawful E) :
    t.worked.workflowId = t.start.workflowId ∧
      ∀ p ∈ t.rounds, p.begun.workflowId = t.start.workflowId := by
  have hP := stepwise_workflowId E
  have hvisits : ∀ p ∈ t.rounds, ∀ u ∈ p.visits, u.finish.workflowId = u.start.workflowId :=
    fun p hp u hu => (h.visits hp hu).stepwise hP
  have hentered := hP.entered t.graph t.node t.start
  refine ⟨(hP.works h.works.shape hvisits).trans hentered, fun p hp => ?_⟩
  obtain ⟨⟨_, hbegun⟩, -⟩ := hP.works_inside h.works.shape hvisits p hp
  exact hbegun.trans hentered

theorem Tour.Lawful.sameNode_closing {t : Tour} (h : t.Lawful E) :
    (t.closing E).SameNode (t.opening E) := by
  rw [Tour.closing, Tour.opening]
  cases t.ending <;> exact sameNode_record h.workflowId.1

theorem Tour.Lawful.nests {t : Tour} {p : Round} (h : t.Lawful E) (hp : p ∈ t.rounds) :
    (t.opening E).nests = true :=
  opening_nests (h.works.shape.nests hp)

theorem Tour.Lawful.rounds_keep {t : Tour} (h : t.Lawful E) {ps : List Round}
    (hps : ∀ p ∈ ps, p ∈ t.rounds) (hvisits : ∀ p ∈ ps, ∀ u ∈ p.visits, Closed (u.records E))
    (st : List Record) :
    (roundRecords E t.graph t.node ps).foldlM advance (t.opening E :: st) =
      some (t.opening E :: st) := by
  cases ps with
  | nil => rfl
  | cons p ps =>
    apply rounds_closed (h.nests (hps p List.mem_cons_self))
    · intro q hq
      exact sameNode_record (h.workflowId.2 q (hps q hq))
    · exact hvisits

theorem Tour.Lawful.own_closed {t : Tour} (h : t.Lawful E)
    (hvisits : ∀ p ∈ t.rounds, ∀ u ∈ p.visits, Closed (u.records E)) :
    Closed (t.opening E :: (roundRecords E t.graph t.node t.rounds ++ [t.closing E])) := by
  intro st hst
  refine foldlM_advance_cons.2 ⟨t.opening E :: st, advance_opening rfl hst, ?_⟩
  refine foldlM_advance_append.2 ⟨_, h.rounds_keep (fun _ hp => hp) hvisits st, ?_⟩
  refine foldlM_advance_cons.2 ⟨st, ?_, rfl⟩
  exact advance_closing (isClosing_closing ..) h.sameNode_closing

theorem Tour.Lawful.closed {t : Tour} (h : t.Lawful E) : Closed (t.records E) := by
  induction h with
  | @intro t hworks hcont hrounds honward ihrounds ihonward =>
    have hown := (Lawful.intro hworks hcont hrounds honward).own_closed ihrounds
    simpa [Tour.records_eq] using hown.append (Closed.tours ihonward)

def Encloses (E : Engine) (rs : List Record) (u : Tour) : Prop :=
  ∀ st : List Record, (∀ v ∈ st.head?, v.nests = true) →
    ∃ before after st',
      rs = before ++ u.opening E :: (roundRecords E u.graph u.node u.rounds ++
        u.closing E :: after) ∧
      before.foldlM advance st = some st'

def EnclosesAmid (E : Engine) (rs : List Record) (outer : List Tour) (u : Tour) : Prop :=
  ∀ st : List Record, (∀ v ∈ st.head?, v.nests = true) →
    ∃ before after,
      rs = before ++ u.opening E :: (roundRecords E u.graph u.node u.rounds ++
        u.closing E :: after) ∧
      before.foldlM advance st = some (outer.map (Tour.opening E) ++ st)

theorem EnclosesAmid.embed {rs before : List Record} {outer : List Tour} {u : Tour}
    (h : EnclosesAmid E rs outer u) {st st' : List Record} (hb : before.foldlM advance st = some st')
    (hst' : ∀ v ∈ st'.head?, v.nests = true) (after : List Record) :
    ∃ before' after', before ++ rs ++ after =
        before' ++ u.opening E :: (roundRecords E u.graph u.node u.rounds ++
          u.closing E :: after') ∧
      before'.foldlM advance st = some (outer.map (Tour.opening E) ++ st') := by
  obtain ⟨before', after', rfl, hb'⟩ := h st' hst'
  exact ⟨before ++ before', after' ++ after, by simp, foldlM_advance_append.2 ⟨st', hb, hb'⟩⟩

theorem Tour.Lawful.encloses_amid {t u : Tour} {outer : List Tour} (h : t.Lawful E)
    (hu : u.Amid outer t) : EnclosesAmid E (t.records E) outer u := by
  induction hu with
  | self => exact fun st _ => ⟨[], tourRecords E u.onward, Tour.records_eq E u, rfl⟩
  | @inside v t outer p hp hv _ ih =>
    intro st hst
    obtain ⟨ps, qs, hps⟩ := List.append_of_mem hp
    obtain ⟨vs, ws, hvs⟩ := List.append_of_mem hv
    have hsub : ∀ q ∈ ps, q ∈ t.rounds := fun q hq => by simp [hps, hq]
    have hbefore : (t.opening E :: (roundRecords E t.graph t.node ps ++
        E.record t.graph t.node .info p.message p.data p.begun :: tourRecords E vs)).foldlM
          advance st = some (t.opening E :: st) := by
      refine foldlM_advance_cons.2 ⟨t.opening E :: st, advance_opening rfl hst, ?_⟩
      refine foldlM_advance_append.2 ⟨_, h.rounds_keep hsub ?_ st, ?_⟩
      · exact fun q hq x hx => (h.visits (hsub q hq) hx).closed
      · refine foldlM_advance_cons.2 ⟨_, advance_info rfl (h.nests hp) ?_, ?_⟩
        · exact sameNode_record (h.workflowId.2 p hp)
        · apply Closed.tours
          · exact fun x hx => (h.visits hp (by simp [hvs, hx])).closed
          · simpa using h.nests hp
    have := (ih (h.visits hp hv)).embed hbefore (by simpa using h.nests hp) (tourRecords E ws ++
      (roundRecords E t.graph t.node qs ++ t.closing E :: tourRecords E t.onward))
    simpa [Tour.records_eq E t, hps, roundRecords_append, roundRecords, Round.records_eq, hvs,
      tourRecords_append, tourRecords] using this
  | @after v t outer hv _ ih =>
    intro st hst
    obtain ⟨vs, ws, hvs⟩ := List.append_of_mem hv
    have hown := h.own_closed (fun p hp x hx => (h.visits hp hx).closed) st hst
    have hfirst : Closed (tourRecords E vs) :=
      .tours fun x hx => (h.onward (by simp [hvs, hx])).closed
    have hbefore := foldlM_advance_append.2 ⟨st, hown, hfirst st hst⟩
    have := (ih (h.onward hv)).embed hbefore hst (tourRecords E ws)
    simpa [Tour.records_eq E t, hvs, tourRecords_append, tourRecords] using this

theorem Tour.Lawful.encloses {t u : Tour} (h : t.Lawful E) (hu : u.Within t) :
    Encloses E (t.records E) u := by
  intro st hst
  obtain ⟨outer, hamid⟩ := hu.exists_amid
  obtain ⟨before, after, hrecords, hbefore⟩ := h.encloses_amid hamid st hst
  exact ⟨before, after, _, hrecords, hbefore⟩

theorem closing_ne_running (t : Tour) : (t.closing E).status ≠ .running := by
  rcases isClosing_closing E t.graph t.node t.ending t.worked with h | h <;> simp [Tour.closing, h]

theorem Tour.Lawful.closes {u : Tour} {rs : List Record} (h : u.Lawful E)
    (hopen : openAfter rs = some []) (hu : Encloses E rs u) :
    Closes rs (u.opening E) (u.closing E) := by
  obtain ⟨before, after, st, rfl, hb⟩ := hu [] (by simp)
  refine ⟨before ++ u.opening E :: roundRecords E u.graph u.node u.rounds, after, st, by simp, ?_,
    isClosing_closing .., h.sameNode_closing⟩
  refine foldlM_advance_append.2 ⟨st, hb, foldlM_advance_cons.2 ⟨u.opening E :: st, ?_, ?_⟩⟩
  · exact advance_of_prefix hopen hb rfl
  · exact h.rounds_keep (fun _ hp => hp) (fun p hp x hx => (h.visits hp hx).closed) st

theorem Tour.Lawful.exists_opening {t : Tour} (h : t.Lawful E) {r : Record}
    (hr : r ∈ t.records E) (hrun : r.status = .running) :
    ∃ u : Tour, u.Within t ∧ r = u.opening E := by
  induction h with
  | @intro t _ _ _ _ ihrounds ihonward =>
    rw [Tour.records_eq] at hr
    rcases List.mem_cons.1 hr with rfl | hr
    · exact ⟨t, .self t, rfl⟩
    rcases List.mem_append.1 hr with hr | hr
    · obtain ⟨p, hp, hr⟩ := mem_roundRecords.1 hr
      rw [Round.records_eq] at hr
      rcases List.mem_cons.1 hr with rfl | hr
      · cases hrun
      · obtain ⟨v, hv, hr⟩ := mem_tourRecords.1 hr
        obtain ⟨u, hu, rfl⟩ := ihrounds p hp v hv hr
        exact ⟨u, .inside hp hv hu, rfl⟩
    · rcases List.mem_cons.1 hr with rfl | hr
      · exact (closing_ne_running t hrun).elim
      · obtain ⟨v, hv, hr⟩ := mem_tourRecords.1 hr
        obtain ⟨u, hu, rfl⟩ := ihonward v hv hr
        exact ⟨u, .after hv hu, rfl⟩

/-- The records `rs` of a run that went as `t` tells: numbered without gaps, named after the run,
beginning at the entry, and well bracketed, each visit closed by its own last record and no other. -/
structure Orderly (E : Engine) (t : Tour) (rs : List Record) : Prop where
  numbered : rs.map (·.sequence) = List.range rs.length
  named : ∀ r ∈ rs, r.processId = t.start.processId ∧ r.workflowId = t.start.workflowId
  entered : ∃ r, rs.head? = some r ∧ r.status = .running ∧ r.nodeId = entryId
  bracketed : openAfter rs = some []
  opened : ∀ r ∈ rs, r.status = .running → ∃ u : Tour, u.Within t ∧ r = u.opening E
  closed : ∀ u : Tour, u.Within t → ∀ x, Closes rs (u.opening E) x ↔ x = u.closing E
  adjacent : ∀ u : Tour, u.Within t → u.node.kind.nests = false →
    ∃ before after, rs = before ++ u.opening E :: u.closing E :: after

theorem run_orderly (hE : E.Compiled) (hg : g.Compiled) {processId workflowId : String}
    {trigger : Trigger} {scope : Scope} {outside : Outside} {moment : Instant} {fuel : Nat}
    {r : Result}
    (h : E.run fuel g (.start processId workflowId trigger scope outside moment) = some (r, c)) :
    ∃ t : Tour, t.Lawful E ∧ t.start = .start processId workflowId trigger scope outside moment ∧
      Orderly E t c.trace.toList := by
  obtain ⟨t, entry, -, hid, ht, hlaw, -⟩ := exists_tour hE hg h
  have hadds := hlaw.stepwise (stepwise_adds E)
  rw [ht.start] at hadds
  have htrace : c.trace.toList = t.records E := ht.finish ▸ hlaw.trace (by rw [ht.start]; rfl)
  have hnumbered : (t.records E).map (·.sequence) = List.range (t.records E).length := by
    simpa [Context.start, List.range_eq_range'] using hadds.numbered
  have hnodup : (t.records E).Nodup := List.Nodup.of_map _ (hnumbered ▸ List.nodup_range)
  rw [htrace]
  have hopen : openAfter (t.records E) = some [] := hlaw.closed [] (by simp)
  refine ⟨t, hlaw, ht.start, hnumbered, ht.start ▸ hadds.named, ?_, hopen,
    fun r => hlaw.exists_opening, fun u hu x => ?_, fun u hu hkind => ?_⟩
  · refine ⟨t.opening E, by rw [Tour.records_eq]; rfl, rfl, ?_⟩
    change t.node.id = entryId
    rw [ht.node, hid]
  · have hclosing := (hlaw.within hu).closes hopen (hlaw.encloses hu)
    refine ⟨fun hx => hx.unique hnodup hclosing, ?_⟩
    rintro rfl
    exact hclosing
  · obtain ⟨before, after, -, hrs, -⟩ := hlaw.encloses hu [] (by simp)
    have hrounds : u.rounds = [] := by
      apply List.eq_nil_iff_forall_not_mem.2
      intro p hp
      simpa [hkind] using (hlaw.within hu).works.shape.nests hp
    rw [hrounds] at hrs
    exact ⟨before, after, hrs⟩

theorem run_orderly_broken : ∃ r c,
    (Sample.engine Sample.broken).run 10 Sample.graph Sample.start = some (r, c) ∧
    ∃ t : Tour, t.Lawful (Sample.engine Sample.broken) ∧ t.start = Sample.start ∧
      Orderly (Sample.engine Sample.broken) t c.trace.toList := by
  obtain ⟨⟨r, c⟩, h⟩ := Option.isSome_iff_exists.1 (show
    ((Sample.engine Sample.broken).run 10 Sample.graph Sample.start).isSome = true by
      decide +kernel)
  have hE := Sample.engine_compiled (Graph.ofWorkflow_compiled (Sample.child (.unknown "odd" .null))
    (by decide))
  exact ⟨r, c, h, run_orderly hE Sample.graph_compiled h⟩

end FlowGraph.Run
