import FlowGraph.Proofs.Run.Bracketing
import FlowGraph.Proofs.Run.Handover
import FlowGraph.Proofs.Run.Selection

namespace FlowGraph.Run

variable {E : Engine} {g : Graph} {n : Node} {c c' d : Context} {ps : List Round} {p : Round}
  {r : Except Abort Unit} {listVariable : String} {items : List Json}

def TakesOver (c : Context) (ps : List Round) : Nat → Context → Prop
  | 0, d => d = c
  | i + 1, d => ∃ p, ps[i]? = some p ∧ p.result = .ok () ∧ d = p.finish

structure Round.PassesOver (E : Engine) (u : Tour) (listVariable : String) (i : Nat) (v : Json)
    (c : Context) (p : Round) : Prop where
  item : p.begun.scope.get? (listVariable ++ ".item") = some v
  output : p.begun.scope.output = some v
  others : ∀ name, name ≠ listVariable ++ ".item" → name ≠ Scope.outputName →
    p.begun.scope.get? name = c.scope.get? name
  surroundings : p.begun = { c with scope := p.begun.scope }
  told : p.data = .object [("index", .nat i), ("item", v)]
  visits : Selected u.graph (u.graph.next u.node.id .body)
    (E.noted u.graph u.node .info p.message p.data p.begun) p.visits p.result p.finish
  first : ∀ w, p.visits.head? = some w →
    (E.entered w.graph w.node w.start).scope.input = some v ∧
    (E.entered w.graph w.node w.start).scope.get? Scope.currentName = some v

/-- The visit `u` goes once over each of `items`, and its records stand so among `rs`. -/
structure Iterates (E : Engine) (rs : List Record) (u : Tour) (listVariable : String)
    (items : List Json) : Prop where
  records : ∃ before after, rs = before ++ u.opening E ::
    ((u.rounds.flatMap fun p => E.record u.graph u.node .info p.message p.data p.begun ::
      p.visits.flatMap (Tour.records E)) ++ u.closing E :: after)
  passes : ∀ (i : Nat) p, u.rounds[i]? = some p → ∃ v d, items[i]? = some v ∧
    TakesOver (E.entered u.graph u.node u.start) u.rounds i d ∧
    p.PassesOver E u listVariable i v d
  all : (∀ p ∈ u.rounds, p.result = .ok ()) → u.rounds.length = items.length ∧
    u.ending = .ok ⟨.default, none, s!"Processed {items.length} items", none⟩

theorem TakesOver.succ {i : Nat} (hp : p.result = .ok ()) (h : TakesOver p.finish ps i d) :
    TakesOver c (p :: ps) (i + 1) d := by
  cases i with
  | zero => exact ⟨p, rfl, hp, h⟩
  | succ i => exact h

theorem Chain.takesOver {κ : Type} {R : κ → Context → Round → Except Abort Unit → Context → Prop}
    {ks : List κ} (h : Chain R ks c ps r c')
    (hR : ∀ {k c p r c'}, R k c p r c' → p.result = r ∧ p.finish = c') {i : Nat}
    (hp : ps[i]? = some p) :
    ∃ k d, ks[i]? = some k ∧ TakesOver c ps i d ∧ R k d p p.result p.finish := by
  induction h generalizing i with
  | done c => cases hp
  | @next k ks c c₁ c₂ q ps r hq _ ih =>
    obtain ⟨hresult, hfinish⟩ := hR hq
    cases i with
    | zero =>
      cases hp
      exact ⟨k, c, rfl, rfl, hresult ▸ hfinish ▸ hq⟩
    | succ i =>
      obtain ⟨k', d, hk', hd, hround⟩ := ih hp
      exact ⟨k', d, hk', .succ hresult (hfinish ▸ hd), hround⟩
  | @cut k ks c c₁ q e hq =>
    obtain ⟨hresult, hfinish⟩ := hR hq
    cases i with
    | zero =>
      cases hp
      exact ⟨k, c, rfl, rfl, hresult ▸ hfinish ▸ hq⟩
    | succ i => cases hp

theorem Chain.of_singleton {κ α : Type}
    {R : κ → Context → α → Except Abort Unit → Context → Prop} {k : κ} {as : List α}
    (h : Chain R [k] c as r c') : ∃ a, as = [a] ∧ R k c a r c' := by
  cases h with
  | next ha hrest =>
    cases hrest
    exact ⟨_, rfl, ha⟩
  | cut ha => exact ⟨_, rfl, ha⟩

theorem Selected.head {ns : List Node} {ts : List Tour} {w : Tour} (h : Selected g ns c ts r c')
    (hw : ts.head? = some w) : w.start = c := by
  obtain ⟨ts, rfl⟩ := List.head?_eq_some_iff.1 hw
  exact h.joined.1

theorem Round.Takes.passesOver {u : Tour} {total i : Nat} {v : Json}
    (h : Round.Takes E u.graph u.node listVariable total (v, i) d p r c') :
    p.PassesOver E u listVariable i v d := by
  have hbegun : p.begun = { d with
      scope := (d.scope.bind (listVariable ++ ".item") v).setOutput v } := h.begun
  have hscope : p.begun.scope = (d.scope.bind (listVariable ++ ".item") v).setOutput v := by
    rw [hbegun]
  have hselected := Round.Passes.selected h
  have hout : p.begun.scope.output = some v := by
    rw [hscope, Scope.output, Scope.setOutput, Scope.get?_bind, if_pos rfl]
  constructor
  case item =>
    rw [hscope, Scope.setOutput, Scope.get?_bind, Scope.get?_bind, if_pos rfl]
    split <;> rfl
  case output => exact hout
  case others =>
    intro name hitem hname
    rw [hscope, Scope.setOutput, Scope.get?_bind, if_neg hname.symm, Scope.get?_bind,
      if_neg hitem.symm]
  case surroundings => rw [hbegun]
  case told => exact h.data
  case visits => exact hselected
  case first =>
    intro w hw
    have hstart : w.start.scope = p.begun.scope := by
      rw [hselected.head hw]
      rfl
    have hhands := p.begun.scope.handsOn_promote
    change w.start.scope.promote.input = some v ∧ w.start.scope.promote.get? _ = some v
    rw [hstart, hhands.input, hhands.current, hout]
    exact ⟨rfl, rfl⟩

theorem Works.takes {ending : Except Failure Outcome}
    (h : Works E g n (.forEach listVariable) c ps ending c')
    (hitems : c.scope.get? listVariable = some (.arr items)) : ∃ r,
    Chain (Round.Takes E g n listVariable items.length) items.zipIdx c ps r c' ∧
    ending = endingOf ⟨.default, none, s!"Processed {items.length} items", none⟩ r := by
  have hlist : c.scope.list listVariable = .ok items := by rw [Scope.list, hitems]
  cases h with
  | leaf hk => cases hk
  | noList hfault => cases hfault.symm.trans hlist
  | forEach hok h =>
    cases hok.symm.trans hlist
    exact ⟨_, h, rfl⟩

theorem Round.Takes.ends {total : Nat} {item : Json × Nat}
    (h : Round.Takes E g n listVariable total item c p r c') : p.result = r ∧ p.finish = c' :=
  ⟨Round.Passes.result h, Round.Passes.finish h⟩

theorem Tour.Lawful.iterates {t u : Tour} (h : t.Lawful E) (hu : u.Within t)
    (hkind : u.node.kind = .forEach listVariable)
    (hitems : (E.entered u.graph u.node u.start).scope.get? listVariable = some (.arr items)) :
    Iterates E (t.records E) u listVariable items := by
  have hworks := (h.within hu).works
  rw [hkind] at hworks
  obtain ⟨r, hchain, hending⟩ := hworks.takes hitems
  constructor
  case records =>
    obtain ⟨before, after, -, hrecords, -⟩ := h.encloses hu [] (by simp)
    exact ⟨before, after, by rw [hrecords, roundRecords_eq_flatMap]⟩
  case passes =>
    intro i p hp
    obtain ⟨item, d, hitem, hd, htakes⟩ := hchain.takesOver Round.Takes.ends hp
    rw [List.getElem?_zipIdx, Option.map_eq_some_iff] at hitem
    obtain ⟨v, hv, rfl⟩ := hitem
    rw [Nat.zero_add] at htakes
    exact ⟨v, d, hv, hd, htakes.passesOver⟩
  case all =>
    intro hok
    have hhalts : Halts (fun p r => p.result = r) u.rounds r := hchain.halts fun hp => hp.ends.1
    obtain rfl := hhalts.forall_ok_iff.1 hok
    refine ⟨?_, hending⟩
    rw [hchain.length_eq, List.length_zipIdx]

theorem run_iterates (hE : E.Compiled) (hg : g.Compiled) {processId workflowId : String}
    {trigger : Trigger} {scope : Scope} {outside : Outside} {moment : Instant} {fuel : Nat}
    {r : Result}
    (h : E.run fuel g (.start processId workflowId trigger scope outside moment) = some (r, c)) :
    ∃ t : Tour, t.Lawful E ∧ t.graph = g ∧ g.node? entryId = some t.node ∧
      t.start = .start processId workflowId trigger scope outside moment ∧ t.finish = c ∧
      c.trace.toList = t.records E ∧
      (∀ x ∈ c.trace.toList, x.status = .running → ∃ u : Tour, u.Within t ∧ x = u.opening E) ∧
      ∀ u : Tour, u.Within t → ∀ listVariable items, u.node.kind = .forEach listVariable →
        (E.entered u.graph u.node u.start).scope.get? listVariable = some (.arr items) →
        Iterates E c.trace.toList u listVariable items := by
  obtain ⟨t, entry, hentry, -, ht, hlaw, -⟩ := exists_tour hE hg h
  have htrace := hlaw.trace_of_goes ht
  refine ⟨t, hlaw, ht.graph, ht.node ▸ hentry, ht.start, ht.finish, htrace, ?_, ?_⟩
  · intro x hx hrunning
    exact hlaw.exists_opening (htrace ▸ hx) hrunning
  · intro u hu listVariable items hkind hitems
    rw [htrace]
    exact hlaw.iterates hu hkind hitems

namespace Sample

def relisting : Workflow where
  id := "relisting"
  name := "Relisting"
  description := ""
  nodes := [⟨"0", "", .list "seeds" ⟨.int, [], [1, 2], [], []⟩⟩, ⟨"1", "", .forEach "seeds"⟩,
    ⟨"2", "", .list "seeds" ⟨.int, [], [7], [], []⟩⟩, ⟨"3", "", .forEach "seeds"⟩,
    ⟨"4", "", .log "seed"⟩]
  edges := [⟨"a", "0", "", "1"⟩, ⟨"b", "1", "output", "2"⟩, ⟨"c", "2", "", "3"⟩,
    ⟨"d", "3", "output", "4"⟩]

def relisted : Graph := .ofWorkflow relisting (by decide)

end Sample

theorem run_iterates_relisted : ∃ r c,
    (Sample.engine Sample.sound).run 10 Sample.relisted Sample.start = some (r, c) ∧
    ((c.trace.toList.filter (·.status = .info)).map fun x => (x.message, x.vars.get? "seeds")) =
      [("Item 1 of 2", some "[1,2]"), ("Item 1 of 1", some "[7]"), ("Item 2 of 2", some "[7]"),
        ("Item 1 of 1", some "[7]")] ∧
    ∃ t u : Tour, t.Lawful (Sample.engine Sample.sound) ∧ t.graph = Sample.relisted ∧
      t.start = Sample.start ∧ t.finish = c ∧ t.onward = [u] ∧
      Iterates (Sample.engine Sample.sound) c.trace.toList u "seeds" [.nat 1, .nat 2] := by
  have hrun : ((Sample.engine Sample.sound).run 10 Sample.relisted Sample.start).map (fun p =>
      (p.2.trace.toList.filter (·.status = .info)).map fun x => (x.message, x.vars.get? "seeds")) =
        some [("Item 1 of 2", some "[1,2]"), ("Item 1 of 1", some "[7]"),
          ("Item 2 of 2", some "[7]"), ("Item 1 of 1", some "[7]")] := by
    decide +kernel
  obtain ⟨⟨r, c⟩, h, hinfos⟩ := Option.map_eq_some_iff.1 hrun
  have hE := Sample.engine_compiled (Graph.ofWorkflow_compiled (Sample.child (.log "done"))
    (by decide))
  obtain ⟨t, hlaw, hgraph, hentry, hstart, hfinish, -, -, hiterates⟩ :=
    run_iterates hE (Graph.ofWorkflow_compiled Sample.relisting (by decide)) h
  have hnode : t.node = ⟨"0", "", .list "seeds" ⟨.int, [], [1, 2], [], []⟩⟩ :=
    Option.some.inj (hentry.symm.trans (by decide +kernel))
  obtain ⟨-, hending, hworked⟩ := hlaw.works.leaf_works (by rw [hnode]; rfl)
  have hcontinues := hlaw.continues
  rw [Tour.Continues, hending, hworked, hgraph, hnode, hstart] at hcontinues
  have hnext : Sample.relisted.next "0" .default = [⟨"1", "", .forEach "seeds"⟩] := by
    decide +kernel
  change Chain _ (Sample.relisted.next "0" .default) _ t.onward _ _ at hcontinues
  rw [hnext] at hcontinues
  obtain ⟨u, honward, hu⟩ := hcontinues.of_singleton
  refine ⟨r, c, h, hinfos, t, u, hlaw, hgraph, hstart, hfinish, honward, ?_⟩
  apply hiterates u (.after (honward ▸ List.mem_cons_self) (.self u))
  · rw [hu.node]
  · rw [hu.graph, hu.node, hu.start]
    rfl

end FlowGraph.Run
