import FlowGraph.Proofs.Run.Bracketing
import FlowGraph.Proofs.Run.Call
import FlowGraph.Proofs.Run.Selection

namespace FlowGraph

def NodeKind.calls : NodeKind → Nat
  | .subprocess _ => 1
  | _ => 0

theorem NodeKind.calls_eq_zero {k : NodeKind} (h : ∀ id, k ≠ .subprocess id) : k.calls = 0 := by
  cases k with
  | subprocess id => exact absurd rfl (h id)
  | _ => rfl

namespace Run

variable {ε δ α β : Type} {k : Nat} {E : Engine} {g : Graph} {n : Node} {c c' : Context}

def Walk.counting (k : Nat) (other w : Walk ε α) : Walk ε α := fun c =>
  if c.depth = k ∧ k ≤ maxDepth then
    (w c).bind fun p => if p.2.depth = k then some p else other p.2
  else other c

/-- The engine with each visit told how many calls are open. -/
def Engine.counted (E : Engine) (other : Visit) : (fuel calls : Nat) → Visit
  | 0, _, _, _ => Walk.outOfFuel
  | fuel + 1, k, g, id => Walk.counting k (other g id) <|
    match g.node? id with
    | some n => E.visitApart (counted E other fuel (k + n.kind.calls)) (counted E other fuel k) g n
    | none => return

def openCalls : List Tour → Nat
  | [] => 0
  | t :: ts => t.node.kind.calls + openCalls ts

def Tour.points (E : Engine) (t : Tour) : List Context :=
  [t.start, E.entered t.graph t.node t.start, t.worked, E.closed t.graph t.node t.ending t.worked,
    t.finish] ++ t.rounds.flatMap fun p =>
      [p.begun, E.noted t.graph t.node .info p.message p.data p.begun, p.finish]

/-- The visit `u`, with the visits `outer` open around it, and its records among `rs`. -/
structure Tour.Nested (E : Engine) (rs : List Record) (outer : List Tour) (u : Tour) : Prop where
  opened : ∃ before after, rs = before ++ u.opening E ::
    (roundRecords E u.graph u.node u.rounds ++ u.closing E :: after) ∧
    openAfter before = some (outer.map (Tour.opening E))
  counted : ∀ d ∈ u.points E, d.depth = openCalls outer
  bounded : openCalls outer ≤ maxDepth
  tooDeep : ∀ id, u.node.kind = .subprocess id →
    (u.ending = .error (.own .tooDeep) ↔ openCalls outer = maxDepth)
  alone : ∀ id, u.node.kind = .subprocess id → openCalls outer = maxDepth → u.rounds = []

def Same (k : Nat) (x y : Option (α × Context)) : Prop :=
  x = y ∧ ∀ r d, x = some (r, d) → d.depth = k

theorem Same.done {x y : Option (α × Context)} {a : α} (hc : c.depth = k) (hx : x = some (a, c))
    (hy : y = some (a, c)) : Same k x y := by
  refine ⟨hx.trans hy.symm, fun r d h => ?_⟩
  cases hx.symm.trans h
  exact hc

theorem Same.bind {k' : Nat} {x y : Option (α × Context)} {f f' : α × Context → Option (β × Context)}
    (h : Same k x y) (hf : ∀ r d, d.depth = k → Same k' (f (r, d)) (f' (r, d))) :
    Same k' (x.bind f) (y.bind f') := by
  obtain ⟨rfl, hdepth⟩ := h
  cases x with
  | none => exact ⟨rfl, nofun⟩
  | some p => exact hf p.1 p.2 (hdepth p.1 p.2 rfl)

def Level (k : Nat) (w w' : Walk ε α) : Prop := ∀ c, c.depth = k → Same k (w c) (w' c)

def levelling (E : Engine) (k : Nat) : Congruence E E where
  rel w w' := Level k w w'
  pure _ _ hc := .done hc rfl rfl
  throw _ _ hc := .done hc rfl rfl
  bind hw hf c hc := by
    rw [Walk.bind_eq, Walk.bind_eq]
    refine (hw c hc).bind fun r d hd => ?_
    cases r with
    | ok a => exact hf a d hd
    | error e => exact .done hd rfl rfl
  failing _ hw c hc := by
    rw [Walk.failing_eq, Walk.failing_eq]
    exact (hw c hc).bind fun r d hd => .done hd rfl rfl
  recover _ hw hf c hc := by
    rw [Walk.attempt_bind, Walk.attempt_bind]
    exact (hw c hc).bind fun r d hd => hf r d hd
  scope _ hc := .done hc rfl rfl
  mapScope f c hc := .done (c := { c with scope := f c.scope }) hc rfl rfl
  leaf a c hc := .done (c := { c with toSurroundings := (a c.toSurroundings).2 }) hc rfl rfl
  emit {_ _ g g' n n'} h status message data c hc := by
    simp only [Engine.emit, Engine.record, h.graph, h.id, h.kind]
    exact .done (c := E.noted g' n' status message data c) hc rfl rfl

theorem Level.inCall {w w' : Walk ε α} (h : Level (k + 1) w w') : Level k w.inCall w'.inCall := by
  intro c hc
  rw [Walk.inCall_eq, Walk.inCall_eq]
  refine (h { c with depth := c.depth + 1 } (congrArg (· + 1) hc)).bind fun r d hd => ?_
  have hback : d.depth - 1 = k := congrArg (· - 1) hd
  exact .done (c := { d with depth := d.depth - 1 }) hback rfl rfl

theorem Level.call {visit visit' : Visit} {id : String}
    (h : ∀ callee, E.library id = some callee → k < maxDepth →
      Level (k + 1) (visit callee entryId) (visit' callee entryId)) :
    Level k (E.call visit g n id) (E.call visit' g n id) := by
  intro c hc
  rw [Engine.call, Engine.call, Walk.depth_bind, Walk.depth_bind, hc]
  by_cases hk : maxDepth ≤ k
  · rw [if_pos hk, if_pos hk]
    exact .done hc rfl rfl
  · rw [if_neg hk, if_neg hk]
    cases hl : E.library id with
    | none => exact .done hc rfl rfl
    | some callee =>
      have hcall := (h callee hl (Nat.lt_of_not_le hk)).inCall
      exact (levelling E k).callee (.refl g n) visit visit' callee hcall c hc

theorem Level.counting {w w' other : Walk ε α} (hk : k ≤ maxDepth) (h : Level k w w') :
    Level k w (Walk.counting k other w') := by
  intro c hc
  obtain ⟨heq, hdepth⟩ := h c hc
  refine ⟨?_, hdepth⟩
  rw [Walk.counting, if_pos ⟨hc, hk⟩, ← heq]
  cases hw : w c with
  | none => rfl
  | some p => rw [Option.bind_some, if_pos (hdepth p.1 p.2 hw)]

theorem level_counted (other : Visit) (fuel : Nat) (hk : k ≤ maxDepth) (g : Graph) (id : String) :
    Level k (E.visit fuel g id) (E.counted other fuel k g id) := by
  -- only the visits made in a call are one level deeper
  induction fuel generalizing k g id with
  | zero =>
    intro c _
    exact ⟨rfl, fun r d h => nomatch h⟩
  | succ fuel ih =>
    rw [Engine.visit, Engine.counted]
    apply Level.counting hk
    cases g.node? id with
    | none => exact (levelling E k).pure ()
    | some n =>
      dsimp only
      rw [← Engine.visitApart_self]
      apply (levelling E k).visitApart (.refl g n)
      · intro hkind
        rw [NodeKind.calls_eq_zero hkind, Nat.add_zero]
        exact List.forall₂_same.2 fun m _ => ih hk g m.id
      · exact fun b => List.forall₂_same.2 fun m _ => ih hk g m.id
      · intro id hkind
        simp only [hkind, NodeKind.calls]
        exact .call fun callee _ hlt => ih hlt callee entryId

theorem dispatch_tooDeep {visit : Visit} {id : String} (hkind : n.kind = .subprocess id)
    {d : Context} : E.dispatch visit g n c = some (.error (.own .tooDeep), d) ↔
      maxDepth ≤ c.depth ∧ d = c := by
  have hdispatch : E.dispatch visit g n = E.call visit g n id := by
    simp only [Engine.dispatch, hkind]
  rw [hdispatch]
  by_cases hd : maxDepth ≤ c.depth
  · rw [Engine.call, Walk.depth_bind, if_pos hd]
    constructor
    · intro h
      cases h
      exact ⟨hd, rfl⟩
    · rintro ⟨-, rfl⟩
      rfl
  · refine ⟨fun h => ?_, fun h => absurd h.1 hd⟩
    cases hl : E.library id with
    | none =>
      rw [Engine.call, Walk.depth_bind, if_neg hd, hl] at h
      cases h
    | some callee =>
      rw [call_eq hl (Nat.lt_of_not_le hd)] at h
      obtain ⟨⟨r, d'⟩, -, hr⟩ := Option.bind_eq_some_iff.1 h
      cases r <;> cases hr

variable {ps : List Round} {ending : Except Failure Outcome} {r : Except Abort Unit}

def KeepDepth (ts : List Tour) : Prop := ∀ t ∈ ts, t.finish.depth = t.start.depth

theorem Chain.keeps {κ α : Type} {R : κ → Context → α → Except Abort Unit → Context → Prop}
    {ks : List κ} {as : List α} (h : Chain R ks c as r c')
    (hR : ∀ {k c a r c'}, a ∈ as → R k c a r c' → c'.depth = c.depth) :
    c'.depth = c.depth ∧ ∀ a ∈ as, ∃ k d r d', R k d a r d' ∧ d.depth = c.depth := by
  induction h with
  | done c => exact ⟨rfl, by simp⟩
  | next ha h ih =>
    have hfirst := hR List.mem_cons_self ha
    obtain ⟨hrest, hall⟩ := ih fun ha => hR (List.mem_cons_of_mem _ ha)
    refine ⟨hrest.trans hfirst, List.forall_mem_cons.2 ⟨⟨_, _, _, _, ha, rfl⟩, fun a ha => ?_⟩⟩
    obtain ⟨k, d, r, d', hd, hdepth⟩ := hall a ha
    exact ⟨k, d, r, d', hd, hdepth.trans hfirst⟩
  | cut ha =>
    refine ⟨hR List.mem_cons_self ha, fun a h => ?_⟩
    obtain rfl := List.mem_singleton.1 h
    exact ⟨_, _, _, _, ha, rfl⟩

theorem KeepDepth.goes {ns : List Node} {ts : List Tour} (hts : KeepDepth ts)
    (h : Chain (Tour.Goes g) ns c ts r c') :
    c'.depth = c.depth ∧ ∀ t ∈ ts, t.start.depth = c.depth := by
  obtain ⟨hfinish, hall⟩ := h.keeps fun ht h => by
    rw [← h.start, ← h.finish]
    exact hts _ ht
  refine ⟨hfinish, fun t ht => ?_⟩
  obtain ⟨m, d, r, d', hgoes, hd⟩ := hall t ht
  rw [hgoes.start, hd]

structure Round.At (k k' : Nat) (p : Round) : Prop where
  begun : p.begun.depth = k
  finish : p.finish.depth = k
  visits : ∀ t ∈ p.visits, t.start.depth = k'

theorem Round.IsPass.at {p : Round} (hp : KeepDepth p.visits) (h : p.IsPass E g n c r c') :
    p.At c.depth c.depth ∧ c'.depth = c.depth := by
  obtain ⟨s, text, v, h⟩ := h
  obtain ⟨hfinish, hvisits⟩ := hp.goes h.visits
  exact ⟨⟨by rw [h.begun], by rw [h.finish, hfinish]; rfl, hvisits⟩, hfinish⟩

theorem Round.Calls.at {p : Round} {id : String} {callee : Graph} (hp : KeepDepth p.visits)
    (h : p.Calls E g n id callee c) : p.At c.depth (c.depth + 1) := by
  obtain ⟨hbegun, -, -, t, entry, hvisits, -, ht, hfinish⟩ := h
  have hstart : t.start.depth = c.depth + 1 := by rw [ht.start]
  have hback : t.finish.depth = c.depth + 1 := by rw [hp t (by simp [hvisits]), hstart]
  refine ⟨by rw [hbegun], ?_, by simpa [hvisits] using hstart⟩
  rw [hfinish]
  exact congrArg (· - 1) hback

theorem Chain.passes_at {κ : Type} {R : κ → Context → Round → Except Abort Unit → Context → Prop}
    {ks : List κ} (h : Chain R ks c ps r c') (hps : ∀ p ∈ ps, KeepDepth p.visits)
    (hR : ∀ {k c p r c'}, R k c p r c' → p.IsPass E g n c r c') :
    c'.depth = c.depth ∧ ∀ p ∈ ps, p.At c.depth c.depth := by
  obtain ⟨hfinish, hall⟩ := h.keeps fun hp h => ((hR h).at (hps _ hp)).2
  refine ⟨hfinish, fun p hp => ?_⟩
  obtain ⟨m, d, r, d', hpass, hd⟩ := hall p hp
  rw [← hd]
  exact ((hR hpass).at (hps p hp)).1

theorem Works.at {k : NodeKind} (h : Works E g n k c ps ending c')
    (hps : ∀ p ∈ ps, KeepDepth p.visits) :
    c'.depth = c.depth ∧ ∀ p ∈ ps, p.At c.depth (c.depth + k.calls) := by
  cases h with
  | leaf | noList | tooDeep | noWorkflow => exact ⟨rfl, by simp⟩
  | loop h => exact h.passes_at hps fun {_ c _ _ _} h => ⟨c.toSurroundings, _, _, h⟩
  | forEach _ h => exact h.passes_at hps fun h => ⟨_, _, _, h⟩
  | noLonger _ h | unread _ h | brokenOff _ h =>
    exact h.passes_at hps fun {_ c _ _ _} h => ⟨c.toSurroundings, _, _, h.2⟩
  | call _ _ h =>
    have hat := h.at (hps _ List.mem_cons_self)
    exact ⟨hat.finish, by simpa [NodeKind.calls] using hat⟩

structure Tour.Levels (E : Engine) (t : Tour) : Prop where
  points : ∀ d ∈ t.points E, d.depth = t.start.depth
  visits : ∀ p ∈ t.rounds, ∀ u ∈ p.visits, u.start.depth = t.start.depth + t.node.kind.calls
  onward : ∀ u ∈ t.onward, u.start.depth = t.start.depth

theorem Tour.Levels.keeps {t : Tour} (h : t.Levels E) : t.finish.depth = t.start.depth :=
  h.points t.finish (by simp [Tour.points])

theorem closed_depth (E : Engine) (g : Graph) (n : Node) (ending : Except Failure Outcome)
    (c : Context) : (E.closed g n ending c).depth = c.depth := by
  cases ending <;> rfl

theorem Tour.Lawful.levels {t : Tour} (h : t.Lawful E) : t.Levels E := by
  induction h with
  | @intro t hworks hcont _ _ ihrounds ihonward =>
    obtain ⟨hworked, hrounds⟩ := hworks.at fun p hp u hu => (ihrounds p hp u hu).keeps
    have hentered : (E.entered t.graph t.node t.start).depth = t.start.depth := rfl
    have hclosed : (E.closed t.graph t.node t.ending t.worked).depth = t.start.depth := by
      rw [closed_depth, hworked, hentered]
    have hrest : t.finish.depth = t.start.depth ∧ ∀ u ∈ t.onward, u.start.depth = t.start.depth := by
      unfold Tour.Continues at hcont
      split at hcont
      · rw [← hclosed]
        exact KeepDepth.goes (fun u hu => (ihonward u hu).keeps) hcont
      · obtain ⟨honward, -, hfinish⟩ := hcont
        rw [honward, hfinish]
        exact ⟨hclosed, by simp⟩
    refine ⟨fun d hd => ?_, fun p hp => (hrounds p hp).visits, hrest.2⟩
    rcases List.mem_append.1 hd with hd | hd
    · simp only [List.mem_cons, List.not_mem_nil, or_false] at hd
      rcases hd with rfl | rfl | rfl | rfl | rfl
      · rfl
      · exact hentered
      · exact hworked
      · exact hclosed
      · exact hrest.1
    · obtain ⟨p, hp, hd⟩ := List.mem_flatMap.1 hd
      simp only [List.mem_cons, List.not_mem_nil, or_false] at hd
      rcases hd with rfl | rfl | rfl
      · exact (hrounds p hp).begun
      · exact (hrounds p hp).begun
      · exact (hrounds p hp).finish

theorem openCalls_concat (ts : List Tour) (t : Tour) :
    openCalls (ts ++ [t]) = openCalls ts + t.node.kind.calls := by
  induction ts with
  | nil => simp [openCalls]
  | cons u ts ih => rw [List.cons_append, openCalls, openCalls, ih, Nat.add_assoc]

theorem Works.tooDeep_iff {id : String} (h : Works E g n (.subprocess id) c ps ending c') :
    (ending = .error (.own .tooDeep) ↔ maxDepth ≤ c.depth) ∧ (maxDepth ≤ c.depth → ps = []) := by
  cases h with
  | leaf hk => cases hk
  | tooDeep hd => exact ⟨iff_of_true rfl hd, fun _ => rfl⟩
  | noWorkflow hd => exact ⟨iff_of_false nofun (Nat.not_le_of_lt hd), fun _ => rfl⟩
  | @call _ _ _ p hd =>
    refine ⟨iff_of_false ?_ (Nat.not_le_of_lt hd), fun h => absurd h (Nat.not_le_of_lt hd)⟩
    cases p.result <;> exact nofun

theorem Tour.Lawful.calls_le {t : Tour} (h : t.Lawful E) {p : Round} (hp : p ∈ t.rounds)
    (ht : t.start.depth ≤ maxDepth) : t.start.depth + t.node.kind.calls ≤ maxDepth := by
  -- the last level has no calls with visits in them
  cases hk : t.node.kind with
  | subprocess id =>
    have hworks := h.works
    rw [hk] at hworks
    rcases Nat.lt_or_ge t.start.depth maxDepth with hlt | hge
    · exact hlt
    · have hnone := hworks.tooDeep_iff.2 hge
      simp [hnone] at hp
  | _ => exact ht

theorem Tour.Lawful.depth_amid {t u : Tour} {outer : List Tour} (h : t.Lawful E)
    (hu : u.Amid outer t) (ht : t.start.depth ≤ maxDepth) :
    u.start.depth = t.start.depth + openCalls outer ∧ u.start.depth ≤ maxDepth := by
  -- each visit around `u` adds what it has open itself
  induction hu with
  | self => exact ⟨rfl, ht⟩
  | @inside v t outer p hp hv _ ih =>
    have hstart := h.levels.visits p hp v hv
    have hle := h.calls_le hp ht
    obtain ⟨hdepth, hbound⟩ := ih (h.visits hp hv) (by omega)
    refine ⟨?_, hbound⟩
    rw [openCalls_concat]
    omega
  | after hv _ ih =>
    have hstart := h.levels.onward _ hv
    obtain ⟨hdepth, hbound⟩ := ih (h.onward hv) (by omega)
    exact ⟨by omega, hbound⟩

theorem Tour.Lawful.nested {t u : Tour} {outer : List Tour} (h : t.Lawful E)
    (hstart : t.start.depth = 0) (hu : u.Amid outer t) : u.Nested E (t.records E) outer := by
  obtain ⟨hdepth, hbound⟩ := h.depth_amid hu (by omega)
  rw [hstart, Nat.zero_add] at hdepth
  rw [hdepth] at hbound
  have hlaw := h.within hu.within
  have hentered : (E.entered u.graph u.node u.start).depth = openCalls outer := hdepth
  constructor
  case opened =>
    obtain ⟨before, after, hrecords, hbefore⟩ := h.encloses_amid hu [] (by simp)
    rw [List.append_nil] at hbefore
    exact ⟨before, after, hrecords, hbefore⟩
  case counted => exact fun d hd => (hlaw.levels.points d hd).trans hdepth
  case bounded => exact hbound
  case tooDeep =>
    intro id hkind
    have hworks := hlaw.works
    rw [hkind] at hworks
    rw [hworks.tooDeep_iff.1, hentered]
    omega
  case alone =>
    intro id hkind hfull
    have hworks := hlaw.works
    rw [hkind] at hworks
    exact hworks.tooDeep_iff.2 (by omega)

/-- The first part is about every visit of every run, also of one that never ends: `other` is never
asked, so none begins or ends at another depth than the count or below the last level. The last part
is about all points of the runs that end. -/
theorem depth_counts (E : Engine) :
    (∀ other fuel g id c, c.depth ≤ maxDepth →
      E.counted other fuel c.depth g id c = E.visit fuel g id c ∧
      ∀ r c', E.visit fuel g id c = some (r, c') → c'.depth = c.depth) ∧
    (∀ visit g n id c d, n.kind = .subprocess id →
      (E.dispatch visit g n c = some (.error (.own .tooDeep), d) ↔ maxDepth ≤ c.depth ∧ d = c)) ∧
    ∀ (fuel : Nat) (g : Graph) (processId workflowId : String) (trigger : Trigger) (scope : Scope)
      (outside : Outside) (moment : Instant) (r : Result) (c : Context),
      E.Compiled → g.Compiled →
      E.run fuel g (.start processId workflowId trigger scope outside moment) = some (r, c) →
      c.depth = 0 ∧ ∃ t : Tour, t.Lawful E ∧ t.graph = g ∧ g.node? entryId = some t.node ∧
        t.start = .start processId workflowId trigger scope outside moment ∧ t.finish = c ∧
        (∀ y ∈ c.trace.toList, y.status = .running →
          ∃ (u : Tour) (outer : List Tour), u.Amid outer t ∧ y = u.opening E) ∧
        ∀ (u : Tour) (outer : List Tour), u.Amid outer t → u.Nested E c.trace.toList outer := by
  refine ⟨fun other fuel g id c hc => ?_, fun _ _ _ _ _ _ hk => dispatch_tooDeep hk, ?_⟩
  · obtain ⟨hsame, hdepth⟩ := level_counted other fuel hc g id c rfl
    exact ⟨hsame.symm, hdepth⟩
  · intro fuel g processId workflowId trigger scope outside moment r c hE hg h
    obtain ⟨t, entry, hentry, -, ht, hlaw, -⟩ := exists_tour hE hg h
    have htrace := hlaw.trace_of_goes ht
    have hstart : t.start.depth = 0 := by rw [ht.start]; rfl
    refine ⟨?_, t, hlaw, ht.graph, ht.node ▸ hentry, ht.start, ht.finish, ?_, ?_⟩
    · rw [← ht.finish, hlaw.levels.keeps, hstart]
    · intro y hy hrunning
      obtain ⟨u, hu, hopening⟩ := hlaw.exists_opening (htrace ▸ hy) hrunning
      obtain ⟨outer, hamid⟩ := hu.exists_amid
      exact ⟨u, outer, hamid, hopening⟩
    · intro u outer hu
      rw [htrace]
      exact hlaw.nested hstart hu

theorem depth_counts_nested :
    (∀ (other : Visit) (fuel : Nat), (Sample.engine Sample.nested).counted other fuel
      Sample.start.depth Sample.graph entryId Sample.start =
        (Sample.engine Sample.nested).visit fuel Sample.graph entryId Sample.start) ∧
    (∀ (visit : Visit), (Sample.engine Sample.nested).dispatch visit Sample.graph Sample.caller
      { Sample.start with depth := maxDepth } =
        some (.error (.own .tooDeep), { Sample.start with depth := maxDepth })) ∧
    ∃ r c, (Sample.engine Sample.nested).run 70 Sample.graph Sample.start = some (r, c) ∧
      (c.trace.toList.filter (·.status = .info)).length = 33 ∧
      r.failure = some ⟨"child", "1", .tooDeep⟩ ∧ c.depth = 0 ∧
      ∃ t : Tour, t.Lawful (Sample.engine Sample.nested) ∧ t.start = Sample.start ∧ t.finish = c ∧
        ∀ (u : Tour) (outer : List Tour), u.Amid outer t →
          u.Nested (Sample.engine Sample.nested) c.trace.toList outer := by
  obtain ⟨hcounted, hdeep, hruns⟩ := depth_counts (Sample.engine Sample.nested)
  have hrun : ((Sample.engine Sample.nested).run 70 Sample.graph Sample.start).map (fun p =>
      ((p.2.trace.toList.filter (·.status = .info)).length, p.1.failure)) =
        some (33, some ⟨"child", "1", .tooDeep⟩) := by
    decide +kernel
  obtain ⟨⟨r, c⟩, h, htold⟩ := Option.map_eq_some_iff.1 hrun
  obtain ⟨hinfos, hfailure⟩ := Prod.mk.inj htold
  have hE := Sample.engine_compiled (Graph.ofWorkflow_compiled
    (Sample.child (.subprocess "child")) (by decide))
  obtain ⟨hdepth, t, hlaw, -, -, hstart, hfinish, -, hnested⟩ :=
    hruns _ _ _ _ _ _ _ _ r c hE Sample.graph_compiled h
  refine ⟨fun other fuel => ?_, fun visit => ?_, r, c, h, hinfos, hfailure, hdepth, t, hlaw, hstart,
    hfinish, hnested⟩
  · exact (hcounted other fuel Sample.graph entryId Sample.start (Nat.zero_le _)).1
  · exact (hdeep visit Sample.graph Sample.caller "child" _ _ rfl).2 ⟨Nat.le_refl _, rfl⟩

end Run

end FlowGraph
