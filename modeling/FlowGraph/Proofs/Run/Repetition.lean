import FlowGraph.Proofs.Run.Iteration

namespace FlowGraph.Run

variable {E : Engine} {visit visit' : Visit} {g : Graph} {n : Node} {c c' d d' : Context}
  {x : String} {m : Nat}

def verdict (x : String) (s : Scope) : Except Expression.Error Bool :=
  Expression.evaluateBoolean (Round.reading x s)

def ran (passes : Nat) : Outcome :=
  ⟨.default, none, s!"While loop ran {passes} iterations", none⟩

namespace Engine

def repeatPass (E : Engine) (visit : Visit) (g : Graph) (n : Node) (x : String) (m i : Nat)
    (c : Context) : Option (Except Failure Unit × Context) :=
  E.pass visit g n s!"Iteration {i + 1} (limit {m})"
    (.object [("iteration", .nat i), ("expression", .str (Round.reading x c.scope))]) c

inductive Repeats (E : Engine) (visit : Visit) (g : Graph) (n : Node) (x : String) (m : Nat)
    (c : Context) : Nat → Context → Prop
  | start : Repeats E visit g n x m c 0 c
  | again {k : Nat} {d d' : Context} : Repeats E visit g n x m c k d →
    verdict x d.scope = .ok true → E.repeatPass visit g n x m k d = some (.ok (), d') →
    Repeats E visit g n x m c (k + 1) d'

/-- What a `while` does that is entered in `c`, however its nodes are visited. -/
structure Repetition (E : Engine) (visit : Visit) (g : Graph) (n : Node) (x : String) (m : Nat)
    (c : Context) : Prop where
  completes : ∀ k d, E.dispatch visit g n c = some (.ok (ran k), d) ↔
    k ≤ m ∧ E.Repeats visit g n x m c k d ∧
      (verdict x d.scope = .ok false ∨ k = m ∧ verdict x d.scope = .ok true)
  reports : ∀ o d, E.dispatch visit g n c = some (.ok o, d) → ∃ k, o = ran k
  unread : ∀ cause d, E.dispatch visit g n c = some (.error (.own cause), d) ↔
    ∃ j e, j ≤ m ∧ E.Repeats visit g n x m c j d ∧ verdict x d.scope = .error e ∧
      cause = .expression (Round.reading x d.scope) e
  brokenOff : ∀ a d', E.dispatch visit g n c = some (.error (.below a), d') ↔
    ∃ j d, j < m ∧ E.Repeats visit g n x m c j d ∧ verdict x d.scope = .ok true ∧
      E.repeatPass visit g n x m j d = some (.error (.below a), d')
  unending : E.dispatch visit g n c = none ↔
    ∃ j d, j < m ∧ E.Repeats visit g n x m c j d ∧ verdict x d.scope = .ok true ∧
      E.repeatPass visit g n x m j d = none
  few : ∀ visit', (∀ j d, j < m → E.Repeats visit g n x m c j d → verdict x d.scope = .ok true →
      E.repeatPass visit' g n x m j d = E.repeatPass visit g n x m j d) →
    E.dispatch visit' g n c = E.dispatch visit g n c

end Engine

structure Tour.Repetition (E : Engine) (rs : List Record) (u : Tour) (x : String) (m : Nat) :
    Prop where
  records : ∃ before after, rs = before ++ u.opening E ::
    ((u.rounds.flatMap fun p => E.record u.graph u.node .info p.message p.data p.begun ::
      p.visits.flatMap (Tour.records E)) ++ u.closing E :: after)
  passes : ∀ (i : Nat) p, u.rounds[i]? = some p →
    TakesOver (E.entered u.graph u.node u.start) u.rounds i p.begun ∧
    verdict x p.begun.scope = .ok true ∧ p.message = s!"Iteration {i + 1} (limit {m})" ∧
    p.data = .object [("iteration", .nat i),
      ("expression", .str (Round.reading x p.begun.scope))] ∧
    Selected u.graph (u.graph.next u.node.id .body)
      (E.noted u.graph u.node .info p.message p.data p.begun) p.visits p.result p.finish
  few : u.rounds.length ≤ m
  worked : (∀ p ∈ u.rounds, p.result = .ok ()) →
    TakesOver (E.entered u.graph u.node u.start) u.rounds u.rounds.length u.worked
  completes : ∀ k, u.ending = .ok (ran k) ↔
    u.rounds.length = k ∧ (∀ p ∈ u.rounds, p.result = .ok ()) ∧
      (verdict x u.worked.scope = .ok false ∨ k = m ∧ verdict x u.worked.scope = .ok true)
  reports : ∀ o, u.ending = .ok o → ∃ k, o = ran k
  unread : ∀ cause, u.ending = .error (.own cause) ↔
    (∀ p ∈ u.rounds, p.result = .ok ()) ∧ ∃ e, verdict x u.worked.scope = .error e ∧
      cause = .expression (Round.reading x u.worked.scope) e
  brokenOff : ∀ a, u.ending = .error (.below a) ↔ ∃ p ∈ u.rounds, p.result = .error a

theorem ran_injective : Function.Injective ran := by
  intro k l h
  have hmessage : "While loop ran " ++ toString k ++ " iterations" =
      "While loop ran " ++ toString l ++ " iterations" := congrArg Outcome.message h
  have hdigits : Nat.toDigits 10 k = Nat.toDigits 10 l := by
    have hlists := congrArg String.toList hmessage
    simpa [Nat.toString_eq_ofList_toDigits] using hlists
  calc
    k = Nat.ofDigitChars 10 (Nat.toDigits 10 k) 0 := Nat.ofDigitChars_ten_toDigits.symm
    _ = Nat.ofDigitChars 10 (Nat.toDigits 10 l) 0 := by rw [hdigits]
    _ = l := Nat.ofDigitChars_ten_toDigits

theorem whileHolds_eq (E : Engine) (visit : Visit) (g : Graph) (n : Node) (x : String) (m : Nat)
    (c : Context) : E.whileHolds visit g n x m c =
      (E.conditionPasses visit g n x m 0 m c).map fun p => (p.1.map ran, p.2) := by
  rw [Engine.whileHolds, Walk.bind_eq]
  cases E.conditionPasses visit g n x m 0 m c with
  | none => rfl
  | some p =>
    obtain ⟨s, c'⟩ := p
    cases s <;> rfl

theorem whileHolds_ok {o : Outcome} : E.whileHolds visit g n x m c = some (.ok o, d) ↔
    ∃ k, o = ran k ∧ E.conditionPasses visit g n x m 0 m c = some (.ok k, d) := by
  rw [whileHolds_eq]
  cases E.conditionPasses visit g n x m 0 m c with
  | none => simp
  | some p =>
    obtain ⟨s, c'⟩ := p
    cases s with
    | ok k => simp [Except.map, eq_comm]
    | error f => simp [Except.map]

theorem whileHolds_error {f : Failure} : E.whileHolds visit g n x m c = some (.error f, d) ↔
    E.conditionPasses visit g n x m 0 m c = some (.error f, d) := by
  rw [whileHolds_eq]
  cases E.conditionPasses visit g n x m 0 m c with
  | none => simp
  | some p =>
    obtain ⟨s, c'⟩ := p
    cases s with
    | ok k => simp [Except.map]
    | error f => simp [Except.map]

theorem whileHolds_none : E.whileHolds visit g n x m c = none ↔
    E.conditionPasses visit g n x m 0 m c = none := by
  rw [whileHolds_eq, Option.map_eq_none_iff]

theorem condition_keeps (x : String) (c : Context) :
    ∃ r, Engine.condition x c = some (r, c) := by
  rw [condition_eq]
  cases Expression.evaluateBoolean (Round.reading x c.scope) <;> exact ⟨_, rfl⟩

inductive Stands (E : Engine) (visit : Visit) (g : Graph) (n : Node) (x : String) (m k : Nat)
    (d : Context) : Option (Except Failure Nat × Context) → Prop
  | done : verdict x d.scope = .ok false ∨ k = m ∧ verdict x d.scope = .ok true →
    Stands E visit g n x m k d (some (.ok k, d))
  | unread {e : Expression.Error} : verdict x d.scope = .error e →
    Stands E visit g n x m k d (some (.error (.own (.expression (Round.reading x d.scope) e)), d))
  | brokenOff {f : Failure} {d' : Context} : k < m → verdict x d.scope = .ok true →
    E.repeatPass visit g n x m k d = some (.error f, d') →
    Stands E visit g n x m k d (some (.error f, d'))
  | unending : k < m → verdict x d.scope = .ok true → E.repeatPass visit g n x m k d = none →
    Stands E visit g n x m k d none

theorem conditionPasses_zero (done : Nat) : E.conditionPasses visit g n x m done 0 c =
    match verdict x c.scope with
    | .ok _ => some (.ok done, c)
    | .error e => some (.error (.own (.expression (Round.reading x c.scope) e)), c) := by
  rw [Engine.conditionPasses, Walk.bind_eq, condition_eq, verdict]
  cases Expression.evaluateBoolean (Round.reading x c.scope) <;> rfl

theorem conditionPasses_succ (done left : Nat) :
    E.conditionPasses visit g n x m done (left + 1) c =
    match verdict x c.scope with
    | .ok true => (E.repeatPass visit g n x m done c).bind fun p =>
        match p.1 with
        | .ok _ => E.conditionPasses visit g n x m (done + 1) left p.2
        | .error f => some (.error f, p.2)
    | .ok false => some (.ok done, c)
    | .error e => some (.error (.own (.expression (Round.reading x c.scope) e)), c) := by
  rw [Engine.conditionPasses, Walk.bind_eq, condition_eq, verdict]
  cases Expression.evaluateBoolean (Round.reading x c.scope) with
  | error e => rfl
  | ok holds =>
    cases holds with
    | false => rfl
    | true =>
      change (_ >>= _ : Walk Failure Nat) c = _
      rw [Walk.bind_eq]
      refine congrArg _ (funext fun p => ?_)
      obtain ⟨s, c'⟩ := p
      cases s <;> rfl

theorem Stands.eq {k left : Nat} {r : Option (Except Failure Nat × Context)} (hleft : k + left = m)
    (h : Stands E visit g n x m k d r) : E.conditionPasses visit g n x m k left d = r := by
  cases left with
  | zero =>
    rw [conditionPasses_zero]
    cases h with
    | done h => rcases h with h | ⟨-, h⟩ <;> rw [h]
    | unread h => rw [h]
    | brokenOff hk | unending hk => omega
  | succ left =>
    rw [conditionPasses_succ]
    cases h with
    | done h =>
      rcases h with h | ⟨hk, -⟩
      · rw [h]
      · omega
    | unread h => rw [h]
    | brokenOff _ h hpass => simp only [h, hpass, Option.bind_some]
    | unending _ h hpass => simp only [h, hpass, Option.bind_none]

theorem Engine.Repeats.conditionPasses_eq {k left : Nat} (hleft : k + left = m)
    (h : E.Repeats visit g n x m c k d) :
    E.conditionPasses visit g n x m 0 m c = E.conditionPasses visit g n x m k left d := by
  induction h generalizing left with
  | start => rw [← hleft, Nat.zero_add]
  | @again k d d' _ hverdict hpass ih =>
    have hbefore : k + (left + 1) = m := by omega
    rw [ih hbefore, conditionPasses_succ]
    simp only [hverdict, hpass, Option.bind_some]

theorem Engine.Repeats.exists_stands {k left : Nat} (hleft : k + left = m)
    (h : E.Repeats visit g n x m c k d) : ∃ j d', j ≤ m ∧ E.Repeats visit g n x m c j d' ∧
      Stands E visit g n x m j d' (E.conditionPasses visit g n x m k left d) := by
  -- `k` passes are made already
  induction left generalizing k d with
  | zero =>
    refine ⟨k, d, Nat.le_of_eq hleft, h, ?_⟩
    rw [conditionPasses_zero]
    cases hverdict : verdict x d.scope with
    | error e => exact .unread hverdict
    | ok holds =>
      cases holds with
      | false => exact .done (.inl hverdict)
      | true => exact .done (.inr ⟨hleft, hverdict⟩)
  | succ left ih =>
    rw [conditionPasses_succ]
    cases hverdict : verdict x d.scope with
    | error e => exact ⟨k, d, by omega, h, .unread hverdict⟩
    | ok holds =>
      cases holds with
      | false => exact ⟨k, d, by omega, h, .done (.inl hverdict)⟩
      | true =>
        cases hpass : E.repeatPass visit g n x m k d with
        | none => exact ⟨k, d, by omega, h, .unending (by omega) hverdict hpass⟩
        | some p =>
          obtain ⟨s, d'⟩ := p
          cases s with
          | error f => exact ⟨k, d, by omega, h, .brokenOff (by omega) hverdict hpass⟩
          | ok u => exact ih (by omega) (h.again hverdict hpass)

theorem conditionPasses_iff {r : Option (Except Failure Nat × Context)} :
    E.conditionPasses visit g n x m 0 m c = r ↔
      ∃ k d, k ≤ m ∧ E.Repeats visit g n x m c k d ∧ Stands E visit g n x m k d r := by
  constructor
  · rintro rfl
    exact Engine.Repeats.start.exists_stands (Nat.zero_add m)
  · rintro ⟨k, d, hk, hrepeats, hstands⟩
    have hleft : k + (m - k) = m := by omega
    rw [hrepeats.conditionPasses_eq hleft, hstands.eq hleft]

theorem repeatPass_error {k : Nat} {f : Failure}
    (h : E.repeatPass visit g n x m k d = some (.error f, d')) : ∃ a, f = .below a := by
  rw [Engine.repeatPass, Engine.pass, Walk.emit_bind] at h
  obtain ⟨s, -, hs⟩ := Walk.failing_eq_some.1 h
  cases s with
  | ok u => cases hs
  | error a =>
    cases hs
    exact ⟨a, rfl⟩

theorem Engine.Repeats.congr {k : Nat} (hk : k ≤ m) (h : E.Repeats visit g n x m c k d)
    (hsame : ∀ j d, j < m → E.Repeats visit g n x m c j d → verdict x d.scope = .ok true →
      E.repeatPass visit' g n x m j d = E.repeatPass visit g n x m j d) :
    E.Repeats visit' g n x m c k d := by
  induction h with
  | start => exact .start
  | @again k d d' h hverdict hpass ih =>
    refine .again (ih (by omega)) hverdict ?_
    rw [hsame k d (by omega) h hverdict, hpass]

theorem Stands.congr {k : Nat} {r : Option (Except Failure Nat × Context)}
    (h : Stands E visit g n x m k d r)
    (hsame : k < m → verdict x d.scope = .ok true →
      E.repeatPass visit' g n x m k d = E.repeatPass visit g n x m k d) :
    Stands E visit' g n x m k d r := by
  cases h with
  | done h => exact .done h
  | unread h => exact .unread h
  | brokenOff hk hverdict hpass => exact .brokenOff hk hverdict ((hsame hk hverdict).trans hpass)
  | unending hk hverdict hpass => exact .unending hk hverdict ((hsame hk hverdict).trans hpass)

theorem dispatch_whileHolds (hkind : n.kind = .whileHolds x m) :
    E.dispatch visit g n = E.whileHolds visit g n x m := by
  rw [Engine.dispatch, hkind]

theorem repetition_of_kind (hkind : n.kind = .whileHolds x m) :
    E.Repetition visit g n x m c := by
  constructor
  case completes =>
    intro k d
    rw [dispatch_whileHolds hkind, whileHolds_ok]
    constructor
    · rintro ⟨l, hran, h⟩
      obtain rfl := ran_injective hran
      obtain ⟨j, d', hj, hrepeats, hstands⟩ := conditionPasses_iff.1 h
      cases hstands with
      | done hverdict => exact ⟨hj, hrepeats, hverdict⟩
    · rintro ⟨hk, hrepeats, hverdict⟩
      exact ⟨k, rfl, conditionPasses_iff.2 ⟨k, d, hk, hrepeats, .done hverdict⟩⟩
  case reports =>
    intro o d h
    rw [dispatch_whileHolds hkind, whileHolds_ok] at h
    obtain ⟨k, ho, -⟩ := h
    exact ⟨k, ho⟩
  case unread =>
    intro cause d
    rw [dispatch_whileHolds hkind, whileHolds_error, conditionPasses_iff]
    constructor
    · rintro ⟨j, d', hj, hrepeats, hstands⟩
      cases hstands with
      | unread hverdict => exact ⟨j, _, hj, hrepeats, hverdict, rfl⟩
      | brokenOff _ _ hpass =>
        obtain ⟨a, ha⟩ := repeatPass_error hpass
        cases ha
    · rintro ⟨j, e, hj, hrepeats, hverdict, rfl⟩
      exact ⟨j, d, hj, hrepeats, .unread hverdict⟩
  case brokenOff =>
    intro a d'
    rw [dispatch_whileHolds hkind, whileHolds_error, conditionPasses_iff]
    constructor
    · rintro ⟨j, d, -, hrepeats, hstands⟩
      cases hstands with
      | brokenOff hj hverdict hpass => exact ⟨j, d, hj, hrepeats, hverdict, hpass⟩
    · rintro ⟨j, d, hj, hrepeats, hverdict, hpass⟩
      exact ⟨j, d, Nat.le_of_lt hj, hrepeats, .brokenOff hj hverdict hpass⟩
  case unending =>
    rw [dispatch_whileHolds hkind, whileHolds_none, conditionPasses_iff]
    constructor
    · rintro ⟨j, d, -, hrepeats, hstands⟩
      cases hstands with
      | unending hj hverdict hpass => exact ⟨j, d, hj, hrepeats, hverdict, hpass⟩
    · rintro ⟨j, d, hj, hrepeats, hverdict, hpass⟩
      exact ⟨j, d, Nat.le_of_lt hj, hrepeats, .unending hj hverdict hpass⟩
  case few =>
    intro visit' hsame
    obtain ⟨k, d, hk, hrepeats, hstands⟩ :=
      conditionPasses_iff.1 (rfl : E.conditionPasses visit g n x m 0 m c = _)
    rw [dispatch_whileHolds hkind, dispatch_whileHolds hkind, whileHolds_eq, whileHolds_eq,
      conditionPasses_iff.2 ⟨k, d, hk, hrepeats.congr hk hsame,
        hstands.congr fun hk => hsame k d hk hrepeats⟩]

theorem Chain.takesOver_finish {κ : Type}
    {R : κ → Context → Round → Except Abort Unit → Context → Prop} {ks : List κ} {ps : List Round}
    (h : Chain R ks c ps (.ok ()) c')
    (hR : ∀ {k c p r c'}, R k c p r c' → p.result = r ∧ p.finish = c') :
    TakesOver c ps ps.length c' := by
  generalize hr : Except.ok () = r at h
  induction h with
  | done c => rfl
  | next hp _ ih =>
    obtain ⟨hresult, hfinish⟩ := hR hp
    subst hfinish
    exact .succ hresult (ih hr)
  | cut => cases hr

theorem Tour.Lawful.only_next {t : Tour} (h : t.Lawful E) {o : Outcome} (ho : t.ending = .ok o)
    (hnext : t.graph.next t.node.id o.branch = [n]) : ∃ u, t.onward = [u] ∧
      u.Goes t.graph n (E.closed t.graph t.node t.ending t.worked) t.result t.finish := by
  have hcontinues := h.continues
  simp only [Tour.Continues, ho] at hcontinues
  rw [← ho, Follows, hnext] at hcontinues
  exact hcontinues.of_singleton

theorem Round.Repeats.ends {i : Nat} {p : Round} {r : Except Abort Unit}
    (h : Round.Repeats E g n x m i c p r c') : p.result = r ∧ p.finish = c' :=
  ⟨h.2.result, h.2.finish⟩

theorem Works.repeats {ps : List Round} {ending : Except Failure Outcome}
    (h : Works E g n (.whileHolds x m) c ps ending c') :
    ∃ passes r s, passes ≤ m ∧ Chain (Round.Repeats E g n x m) (List.range passes) c ps r c' ∧
      Repeated x 0 passes m c' r s ∧ ending = s.map ran := by
  cases h with
  | leaf hk => cases hk
  | @noLonger _ _ passes _ _ _ _ hle h hh hp =>
    refine ⟨passes, _, _, hle, h, .finished hh hp, ?_⟩
    rw [Nat.zero_add]
    rfl
  | unread hle h he => exact ⟨_, _, _, hle, h, .unread he, rfl⟩
  | brokenOff hle h => exact ⟨_, _, _, hle, h, .brokenOff _, rfl⟩

theorem Tour.Lawful.repetition {t u : Tour} (h : t.Lawful E) (hu : u.Within t)
    (hkind : u.node.kind = .whileHolds x m) : u.Repetition E (t.records E) x m := by
  have hworks := (h.within hu).works
  rw [hkind] at hworks
  obtain ⟨passes, r, s, hle, hchain, hrepeated, hending⟩ := hworks.repeats
  have hhalts : Halts (fun p r => p.result = r) u.rounds r := hchain.halts fun hp => hp.ends.1
  constructor
  case records =>
    obtain ⟨before, after, -, hrecords, -⟩ := h.encloses hu [] (by simp)
    exact ⟨before, after, by rw [hrecords, roundRecords_eq_flatMap]⟩
  case passes =>
    intro i p hp
    obtain ⟨k, d, hk, hd, hverdict, hpass⟩ := hchain.takesOver Round.Repeats.ends hp
    obtain ⟨_, rfl⟩ : i < passes ∧ i = k := by
      simpa [List.getElem?_eq_some_iff] using hk
    rw [hpass.begun]
    exact ⟨hd, hverdict, hpass.message, hpass.data, hpass.begun ▸ hpass.selected⟩
  case few => exact hworks.whileHolds_length
  case worked =>
    intro hok
    obtain rfl := hhalts.forall_ok_iff.1 hok
    exact hchain.takesOver_finish Round.Repeats.ends
  case completes =>
    intro k
    rw [hhalts.forall_ok_iff, hending]
    cases hrepeated with
    | @finished holds hh hp =>
      have hlength : u.rounds.length = passes := by simpa using hchain.length_eq
      rw [Nat.zero_add, hlength, verdict, hh]
      constructor
      · intro hran
        obtain rfl := ran_injective (Except.ok.inj hran)
        refine ⟨rfl, rfl, ?_⟩
        cases holds with
        | false => exact .inl rfl
        | true => exact .inr ⟨hp rfl, rfl⟩
      · rintro ⟨rfl, -, -⟩
        rfl
    | unread he => simp [Except.map, verdict, he]
    | brokenOff a => simp [Except.map]
  case reports =>
    intro o ho
    rw [hending] at ho
    cases s with
    | ok k =>
      cases ho
      exact ⟨k, rfl⟩
    | error f => cases ho
  case unread =>
    intro cause
    rw [hhalts.forall_ok_iff, hending]
    cases hrepeated with
    | finished hh hp => simp [Except.map, verdict, hh]
    | unread he => simp [Except.map, verdict, he, eq_comm]
    | brokenOff a => simp [Except.map]
  case brokenOff =>
    intro a
    rw [hhalts.exists_error_iff, hending]
    cases hrepeated with
    | finished hh hp => simp [Except.map]
    | unread he => simp [Except.map]
    | brokenOff b => simp [Except.map]

/-- The first part is about every visit of a `while`, also in a run that never ends; the last is
about those of a run that does, as its records tell of them. -/
theorem while_repeats (E : Engine) :
    (∀ visit g n x m c, n.kind = .whileHolds x m → E.Repetition visit g n x m c) ∧
    (∀ x c, ∃ r, Engine.condition x c = some (r, c)) ∧
    ∀ (fuel : Nat) (g : Graph) (processId workflowId : String) (trigger : Trigger) (scope : Scope)
      (outside : Outside) (moment : Instant) (r : Result) (c : Context),
      E.Compiled → g.Compiled →
      E.run fuel g (.start processId workflowId trigger scope outside moment) = some (r, c) →
      ∃ t : Tour, t.Lawful E ∧ t.graph = g ∧ g.node? entryId = some t.node ∧
        t.start = .start processId workflowId trigger scope outside moment ∧ t.finish = c ∧
        c.trace.toList = t.records E ∧
        (∀ y ∈ c.trace.toList, y.status = .running → ∃ u : Tour, u.Within t ∧ y = u.opening E) ∧
        ∀ u : Tour, u.Within t → ∀ x m, u.node.kind = .whileHolds x m →
          u.Repetition E c.trace.toList x m := by
  refine ⟨fun visit g n x m c => repetition_of_kind, condition_keeps, ?_⟩
  intro fuel g processId workflowId trigger scope outside moment r c hE hg h
  obtain ⟨t, entry, hentry, -, ht, hlaw, -⟩ := exists_tour hE hg h
  have htrace := hlaw.trace_of_goes ht
  refine ⟨t, hlaw, ht.graph, ht.node ▸ hentry, ht.start, ht.finish, htrace, ?_, ?_⟩
  · intro y hy hrunning
    exact hlaw.exists_opening (htrace ▸ hy) hrunning
  · intro u hu x m hkind
    rw [htrace]
    exact hlaw.repetition hu hkind

namespace Sample

def below : String := "\x7b\x7bn\x7d\x7d < 2"

def straying : Workflow where
  id := "straying"
  name := "Straying"
  description := ""
  nodes := [⟨"0", "", .setVariable "n" (.nat 0)⟩, ⟨"1", "", .whileHolds below 1⟩,
    ⟨"2", "", .text "odd" "n"⟩]
  edges := [⟨"a", "0", "", "1"⟩, ⟨"b", "1", "output", "2"⟩]

def strayed : Graph := .ofWorkflow straying (by decide)

end Sample

theorem while_repeats_strayed : ∃ r c,
    (Sample.engine Sample.sound).run 10 Sample.strayed Sample.start = some (r, c) ∧
    (c.trace.toList.filter (·.status = .info)).map (·.message) = ["Iteration 1 (limit 1)"] ∧
    r.failure = some ⟨"straying", "1", .expression "odd < 2" (.mixedComparison .string .number)⟩ ∧
    ∃ t u : Tour, t.Lawful (Sample.engine Sample.sound) ∧ t.graph = Sample.strayed ∧
      t.start = Sample.start ∧ t.finish = c ∧ t.onward = [u] ∧
      u.Repetition (Sample.engine Sample.sound) c.trace.toList Sample.below 1 ∧
      (Sample.engine Sample.sound).Repetition ((Sample.engine Sample.sound).visit 10) u.graph u.node
        Sample.below 1 u.start := by
  have hrun : ((Sample.engine Sample.sound).run 10 Sample.strayed Sample.start).map (fun p =>
      ((p.2.trace.toList.filter (·.status = .info)).map (·.message), p.1.failure)) =
        some (["Iteration 1 (limit 1)"], some ⟨"straying", "1",
          .expression "odd < 2" (.mixedComparison .string .number)⟩) := by
    decide +kernel
  obtain ⟨⟨r, c⟩, h, htold⟩ := Option.map_eq_some_iff.1 hrun
  obtain ⟨hinfos, hfailure⟩ := Prod.mk.inj htold
  have hE := Sample.engine_compiled (Graph.ofWorkflow_compiled (Sample.child (.log "done"))
    (by decide))
  obtain ⟨hvisits, -, hruns⟩ := while_repeats (Sample.engine Sample.sound)
  obtain ⟨t, hlaw, hgraph, hentry, hstart, hfinish, -, -, hwhile⟩ :=
    hruns _ _ _ _ _ _ _ _ r c hE (Graph.ofWorkflow_compiled Sample.straying (by decide)) h
  have hnode : t.node = ⟨"0", "", .setVariable "n" (.nat 0)⟩ :=
    Option.some.inj (hentry.symm.trans (by decide +kernel))
  have hnext : Sample.strayed.next "0" .all = [⟨"1", "", .whileHolds Sample.below 1⟩] := by
    decide +kernel
  obtain ⟨-, hending, -⟩ := hlaw.works.leaf_works (by rw [hnode]; rfl)
  have hok : t.ending = .ok (Leaf.stored (.nat 0) "Variable n set") := by
    rw [hending, hnode, hstart]
    rfl
  obtain ⟨u, honward, hu⟩ := hlaw.only_next hok (by rw [hgraph, hnode]; exact hnext)
  have hkind : u.node.kind = .whileHolds Sample.below 1 := by rw [hu.node]
  refine ⟨r, c, h, hinfos, hfailure, t, u, hlaw, hgraph, hstart, hfinish, honward, ?_, ?_⟩
  · exact hwhile u (.after (honward ▸ List.mem_cons_self) (.self u)) _ _ hkind
  · exact hvisits _ _ _ _ _ _ hkind

end FlowGraph.Run
