import FlowGraph.Proofs.Run.Bracketing
import FlowGraph.Proofs.Run.Stopping

namespace FlowGraph.Run

namespace Record

structure Breaks (a : Abort) (r : Record) : Prop where
  failed : r.status = .failed
  node : r.nodeId = a.nodeId
  workflow : r.subprocessId.getD r.workflowId = a.workflowId
  message : r.message = a.cause.message

structure Aborts (a : Abort) (r : Record) : Prop where
  failed : r.status = .failed
  nests : r.nests = true
  message : r.message = s!"Aborted by node {a.nodeId}: {a.cause.message}"

end Record

def Faultless (rs : List Record) : Prop := ∀ r ∈ rs, r.status ≠ .failed

/-- The failed records are the last ones, and close the visits opened in `rs`; `outer` are the
visits open before. -/
def Unwinds (a : Abort) (rs outer : List Record) : Prop :=
  ∃ before x later opened, rs = before ++ x :: later ∧ Faultless before ∧
    x.Breaks a ∧ (∀ y ∈ later, y.Aborts a) ∧
    before.foldlM advance outer = some (opened ++ outer) ∧
    List.Forall₂ Record.SameNode (x :: later) opened

variable {E : Engine} {g : Graph} {n : Node} {c c' : Context} {a : Abort}

theorem Faultless.nil : Faultless [] := by
  intro r hr
  cases hr

theorem Faultless.cons {r : Record} {rs : List Record} (hr : r.status ≠ .failed)
    (hrs : Faultless rs) : Faultless (r :: rs) :=
  List.forall_mem_cons.2 ⟨hr, hrs⟩

theorem Faultless.append {rs rs' : List Record} (h : Faultless rs) (h' : Faultless rs') :
    Faultless (rs ++ rs') :=
  fun r hr => (List.mem_append.1 hr).elim (h r) (h' r)

theorem Faultless.tours {ts : List Tour} (h : ∀ t ∈ ts, Faultless (t.records E)) :
    Faultless (tourRecords E ts) := by
  intro r hr
  obtain ⟨t, ht, hr⟩ := mem_tourRecords.1 hr
  exact h t ht r hr

theorem Faultless.rounds {ps : List Round}
    (h : ∀ p ∈ ps, ∀ t ∈ p.visits, Faultless (t.records E)) :
    Faultless (roundRecords E g n ps) := by
  intro r hr
  obtain ⟨p, hp, hr⟩ := mem_roundRecords.1 hr
  rw [Round.records_eq] at hr
  rcases List.mem_cons.1 hr with rfl | hr
  · rintro ⟨⟩
  · exact tours (h p hp) r hr

theorem Tour.Lawful.faultless {t : Tour} (h : t.Lawful E) (ht : t.result = .ok ()) :
    Faultless (t.records E) := by
  induction h with
  | @intro t hworks hcont hrounds honward ihrounds ihonward =>
    cases (Lawful.intro hworks hcont hrounds honward).stops with
    | onward o hending hps hts =>
      rw [ht] at hts
      rw [Tour.records_eq]
      refine .cons (by rintro ⟨⟩) (.append (.rounds fun p hp u hu => ?_) (.cons ?_ (.tours fun u hu => ?_)))
      · exact ihrounds p hp u hu (hps p hp u hu)
      · rw [Tour.closing, hending]
        rintro ⟨⟩
      · exact ihonward u hu (hts u hu)
    | own cause _ _ _ hresult => cases ht.symm.trans hresult
    | below a _ _ _ hresult => cases ht.symm.trans hresult

theorem Unwinds.after {rs rs' st st' : List Record} (h : Unwinds a rs' st')
    (hrs : rs.foldlM advance st = some st') (hclean : Faultless rs) (hst : st' = st) :
    Unwinds a (rs ++ rs') st := by
  subst hst
  obtain ⟨before, x, later, opened, rfl, hbefore, hx, hlater, hopen, hsame⟩ := h
  refine ⟨rs ++ before, x, later, opened, by simp, hclean.append hbefore, hx, hlater, ?_, hsame⟩
  exact foldlM_advance_append.2 ⟨st', hrs, hopen⟩

theorem Unwinds.around {rs rs' st : List Record} {v y : Record} (h : Unwinds a rs' (v :: st))
    (hrs : rs.foldlM advance st = some (v :: st)) (hclean : Faultless rs) (hy : y.Aborts a)
    (hsame : y.SameNode v) : Unwinds a (rs ++ rs' ++ [y]) st := by
  obtain ⟨before, x, later, opened, rfl, hbefore, hx, hlater, hopen, hothers⟩ := h
  refine ⟨rs ++ before, x, later ++ [y], opened ++ [v], by simp, hclean.append hbefore, hx, ?_, ?_, ?_⟩
  · intro z hz
    rcases List.mem_append.1 hz with hz | hz
    · exact hlater z hz
    · obtain rfl := List.mem_singleton.1 hz
      exact hy
  · rw [List.append_assoc]
    exact foldlM_advance_append.2 ⟨v :: st, hrs, hopen⟩
  · exact List.rel_append hothers (.cons hsame .nil)

theorem Unwinds.tours {ts : List Tour} {st : List Record} (hlaw : ∀ t ∈ ts, t.Lawful E)
    (hts : VisitsHalt ts (.error a)) (hst : ∀ v ∈ st.head?, v.nests = true)
    (h : ∀ t ∈ ts, t.result = .error a → Unwinds a (t.records E) st) :
    Unwinds a (tourRecords E ts) st := by
  obtain ⟨before, last, rfl, hbefore, hlast⟩ := hts
  have hu : Unwinds a (tourRecords E [last]) st := by
    simpa [tourRecords] using h last (by simp) hlast
  rw [tourRecords_append]
  refine hu.after (Closed.tours ?_ st hst) (.tours ?_) rfl
  · exact fun t ht => (hlaw t (by simp [ht])).closed
  · exact fun t ht => (hlaw t (by simp [ht])).faultless (hbefore t ht)

theorem Tour.Lawful.unwinds {t : Tour} (h : t.Lawful E) (ht : t.result = .error a)
    {st : List Record} (hst : ∀ v ∈ st.head?, v.nests = true) : Unwinds a (t.records E) st := by
  induction h generalizing st with
  | @intro t hworks hcont hrounds honward ihrounds ihonward =>
    have hlaw := Lawful.intro hworks hcont hrounds honward
    have hkept : ∀ {ps : List Round}, (∀ p ∈ ps, p ∈ t.rounds) →
        (t.opening E :: roundRecords E t.graph t.node ps).foldlM advance st =
          some (t.opening E :: st) := fun hps =>
      foldlM_advance_cons.2 ⟨_, advance_opening rfl hst,
        hlaw.rounds_keep hps (fun p hp u hu => (hrounds p (hps p hp) u hu).closed) st⟩
    have hclean : ∀ {ps : List Round}, (∀ p ∈ ps, p ∈ t.rounds) →
        (∀ p ∈ ps, VisitsHalt p.visits (.ok ())) →
        Faultless (t.opening E :: roundRecords E t.graph t.node ps) := fun hps hdone =>
      .cons (by rintro ⟨⟩) (.rounds fun p hp u hu => (hrounds p (hps p hp) u hu).faultless (hdone p hp u hu))
    have hself : ∀ p ∈ t.rounds, p ∈ t.rounds := fun p hp => hp
    rw [Tour.records_eq]
    cases hlaw.stops with
    | onward o hending hps hts =>
      rw [ht] at hts
      have hown := hlaw.own_closed (fun p hp u hu => (hrounds p hp u hu).closed) st hst
      have hu : Unwinds a (tourRecords E t.onward) st :=
        .tours honward hts hst fun u hu hres => ihonward u hu hres hst
      have hdone : Faultless [t.closing E] := by
        rw [Tour.closing, hending]
        exact .cons (by rintro ⟨⟩) .nil
      simpa using hu.after hown ((hclean hself hps).append hdone) rfl
    | own cause hending hps honward hresult =>
      cases ht.symm.trans hresult
      refine ⟨t.opening E :: roundRecords E t.graph t.node t.rounds, t.closing E, [], [t.opening E],
        by simp [honward, tourRecords], hclean hself hps, ?_, by simp, hkept hself,
        .cons hlaw.sameNode_closing .nil⟩
      rw [Tour.closing, hending]
      refine ⟨rfl, rfl, ?_, rfl⟩
      simp only [Engine.closing, Engine.record]
      split
      · next hg => exact hg.symm
      · rfl
    | below b hending hps honward hresult =>
      cases ht.symm.trans hresult
      obtain ⟨before, last, hsplit, hbefore, hlast⟩ := hps
      have hsub : ∀ p ∈ before, p ∈ t.rounds := fun p hp => by simp [hsplit, hp]
      have hmem : last ∈ t.rounds := by simp [hsplit]
      have hnest := hlaw.nests hmem
      have hinner : Unwinds a (tourRecords E last.visits) (t.opening E :: st) :=
        .tours (hrounds last hmem) hlast (by simpa using hnest)
          fun u hu hres => ihrounds last hmem u hu hres (by simpa using hnest)
      have hbegun : (E.record t.graph t.node .info last.message last.data last.begun).SameNode
          (t.opening E) := sameNode_record (hlaw.workflowId.2 last hmem)
      have hinfo : [E.record t.graph t.node .info last.message last.data last.begun].foldlM advance
          (t.opening E :: st) = some (t.opening E :: st) :=
        foldlM_advance_cons.2 ⟨_, advance_info rfl hnest hbegun, rfl⟩
      have hrest := hinner.after hinfo (.cons (by rintro ⟨⟩) .nil) rfl
      have hy : (t.closing E).Aborts a := by
        refine ⟨?_, ?_, ?_⟩
        · rw [Tour.closing, hending]
          rfl
        · rw [Record.nests, hlaw.sameNode_closing.type]
          exact hnest
        · rw [Tour.closing, hending]
          rfl
      have := hrest.around (hkept hsub) (hclean hsub hbefore) hy hlaw.sameNode_closing
      simpa [honward, tourRecords, hsplit, roundRecords_append, roundRecords, Round.records_eq]
        using this

theorem Tour.Lawful.faultless_iff {t : Tour} (h : t.Lawful E) :
    Faultless (t.records E) ↔ t.result = .ok () := by
  constructor
  · intro hclean
    cases hresult : t.result with
    | ok u => rfl
    | error a =>
      have hunwinds : Unwinds a (t.records E) [] := h.unwinds hresult (by simp)
      obtain ⟨before, x, later, opened, hrecords, -, hx, -⟩ := hunwinds
      exact absurd hx.failed (hclean x (by simp [hrecords]))
  · exact h.faultless

theorem tours_last {ns : List Node} {ts : List Tour} {r : Except Abort Unit}
    (h : Chain (Tour.Goes g) ns c ts r c')
    (hts : ∀ t ∈ ts, ∃ x, (t.records E).getLast? = some x ∧ x.vars = t.finish.scope.texts) :
    (ts = [] ∧ c' = c) ∨
      ∃ x, (tourRecords E ts).getLast? = some x ∧ x.vars = c'.scope.texts := by
  induction h with
  | done c => exact .inl ⟨rfl, rfl⟩
  | @next m ns c c₁ c₂ t ts r ht _ ih =>
    obtain ⟨hfirst, hrest⟩ := List.forall_mem_cons.1 hts
    rcases ih hrest with ⟨rfl, rfl⟩ | ⟨x, hx, hvars⟩
    · rw [ht.finish] at hfirst
      exact .inr (by simpa [tourRecords] using hfirst)
    · exact .inr ⟨x, by simp [tourRecords, hx], hvars⟩
  | @cut m ns c c₁ t e ht =>
    have hfirst := hts t List.mem_cons_self
    rw [ht.finish] at hfirst
    exact .inr (by simpa [tourRecords] using hfirst)

theorem closing_vars (E : Engine) (g : Graph) (n : Node) (ending : Except Failure Outcome)
    (c : Context) : (E.closing g n ending c).vars = (E.closed g n ending c).scope.texts := by
  cases ending <;> rfl

theorem Tour.Lawful.last {t : Tour} (h : t.Lawful E) :
    ∃ x, (t.records E).getLast? = some x ∧ x.vars = t.finish.scope.texts := by
  induction h with
  | @intro t _ hcont _ _ _ ihonward =>
    have hown := closing_vars E t.graph t.node t.ending t.worked
    have hlast : t.onward = [] → (t.records E).getLast? = some (t.closing E) := fun h => by
      rw [Tour.records_eq, h, tourRecords, ← List.cons_append, List.getLast?_concat]
    unfold Tour.Continues at hcont
    split at hcont
    · rcases tours_last hcont ihonward with ⟨hts, hfinish⟩ | ⟨x, hx, hvars⟩
      · exact ⟨t.closing E, hlast hts, by rw [hfinish]; exact hown⟩
      · refine ⟨x, ?_, hvars⟩
        rw [Tour.records_eq]
        simp [List.getLast?_cons, List.getLast?_append, hx]
    · obtain ⟨hts, -, hfinish⟩ := hcont
      exact ⟨t.closing E, hlast hts, by rw [hfinish]; exact hown⟩

/-- A result and the records of its run. -/
structure Result.Agrees (r : Result) (rs : List Record) : Prop where
  succeeded : r.succeeded = true ↔ ∀ x ∈ rs, x.status ≠ .failed
  failed : ∀ a, r.failure = some a → Unwinds a rs []
  names : r.vars.keys = r.scope.vars.keys
  shown : ∀ name, r.vars.get? name = (r.scope.get? name).map Json.display
  last : ∃ x, rs.getLast? = some x ∧ x.vars = r.vars

theorem run_agrees (hE : E.Compiled) (hg : g.Compiled) {processId workflowId : String}
    {trigger : Trigger} {scope : Scope} {outside : Outside} {moment : Instant} {fuel : Nat}
    {r : Result}
    (h : E.run fuel g (.start processId workflowId trigger scope outside moment) = some (r, c)) :
    r.Agrees c.trace.toList := by
  obtain ⟨t, entry, -, -, ht, hlaw, hscope, hfailure⟩ := exists_tour hE hg h
  have htrace : c.trace.toList = t.records E := ht.finish ▸ hlaw.trace (by rw [ht.start]; rfl)
  obtain ⟨x, hx, hvars⟩ := hlaw.last
  rw [htrace]
  refine ⟨?_, fun a ha => ?_, ?_, fun name => Keyed.get?_map _ _ name, x, hx, ?_⟩
  · cases hres : t.result with
    | ok u =>
      rw [hres] at hfailure
      simp only [Result.succeeded, hfailure, Option.isNone_none, true_iff]
      exact hlaw.faultless hres
    | error a =>
      rw [hres] at hfailure
      have hunwinds : Unwinds a (t.records E) [] := hlaw.unwinds hres (by simp)
      obtain ⟨before, y, later, opened, hrs, -, hy, -⟩ := hunwinds
      simp only [Result.succeeded, hfailure, Option.isNone_some, Bool.false_eq_true, false_iff]
      exact fun hclean => hclean y (by simp [hrs]) hy.failed
  · cases hres : t.result with
    | ok u =>
      rw [hres] at hfailure
      cases hfailure.symm.trans ha
    | error b =>
      rw [hres] at hfailure
      cases hfailure.symm.trans ha
      exact hlaw.unwinds hres (by simp)
  · simp [Result.vars, Scope.texts, Keyed.keys, Keyed.map]
  · rw [hvars, ht.finish, Result.vars, hscope]

theorem run_agrees_broken : ∃ r c a,
    (Sample.engine Sample.broken).run 10 Sample.graph Sample.start = some (r, c) ∧
    r.failure = some a ∧ a.nodeId = "1" ∧ a.workflowId = "child" ∧ r.Agrees c.trace.toList := by
  have hrun : (((Sample.engine Sample.broken).run 10 Sample.graph Sample.start).bind
      fun p => p.1.failure).map (fun a => (a.nodeId, a.workflowId)) = some ("1", "child") := by
    decide +kernel
  obtain ⟨a, ha, hids⟩ := Option.map_eq_some_iff.1 hrun
  obtain ⟨⟨r, c⟩, h, hfailure⟩ := Option.bind_eq_some_iff.1 ha
  have hE := Sample.engine_compiled (Graph.ofWorkflow_compiled (Sample.child (.unknown "odd" .null))
    (by decide))
  exact ⟨r, c, a, h, hfailure, congrArg Prod.fst hids, congrArg Prod.snd hids,
    run_agrees hE Sample.graph_compiled h⟩

end FlowGraph.Run
