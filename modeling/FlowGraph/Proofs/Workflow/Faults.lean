import FlowGraph.Proofs.Keyed
import FlowGraph.Proofs.Workflow.Routes

namespace FlowGraph

namespace Workflow

def Joined (w : Workflow) (es : List Edge) : Prop :=
  ∀ e ∈ es, e.source ∈ w.ids ∧ e.target ∈ w.ids

structure Valid (w : Workflow) : Prop where
  ids : w.ids.Nodup
  entry : entryId ∈ w.ids
  edges : w.Joined w.edges

/-- Each fault counts only if there is none that comes before it. -/
inductive FirstFault (w : Workflow) : Fault → Prop
  | duplicate {before after : List Node} {n : Node} (hnodes : w.nodes = before ++ n :: after)
      (hbefore : (before.map Node.id).Nodup) (hn : n.id ∈ before.map Node.id) :
      FirstFault w (.duplicateNode w.id n.id)
  | entry (hids : w.ids.Nodup) (hentry : entryId ∉ w.ids) : FirstFault w (.missingEntry w.id)
  | source {before after : List Edge} {e : Edge} (hids : w.ids.Nodup) (hentry : entryId ∈ w.ids)
      (hedges : w.edges = before ++ e :: after) (hbefore : w.Joined before)
      (hsource : e.source ∉ w.ids) : FirstFault w (.danglingEdge w.id e.id e.source)
  | target {before after : List Edge} {e : Edge} (hids : w.ids.Nodup) (hentry : entryId ∈ w.ids)
      (hedges : w.edges = before ++ e :: after) (hbefore : w.Joined before)
      (hsource : e.source ∈ w.ids) (htarget : e.target ∉ w.ids) :
      FirstFault w (.danglingEdge w.id e.id e.target)

theorem exists_first_duplicate {α : Type} {as : List α} (h : ¬as.Nodup) :
    ∃ before a after, as = before ++ a :: after ∧ before.Nodup ∧ a ∈ before := by
  induction as using List.reverseRecOn with
  | nil => exact absurd List.nodup_nil h
  | append_singleton as a ih =>
    by_cases has : as.Nodup
    · have hmem : a ∈ as := by
        by_contra hnew
        have hapart : ∀ b ∈ as, ∀ c ∈ [a], b ≠ c := by
          rintro b hb c hc rfl
          exact hnew (List.mem_singleton.1 hc ▸ hb)
        exact h (List.nodup_append.2 ⟨has, List.nodup_singleton a, hapart⟩)
      exact ⟨as, a, [], rfl, has, hmem⟩
    · obtain ⟨before, b, after, rfl, hbefore, hb⟩ := ih has
      exact ⟨before, b, after ++ [a], by simp, hbefore, hb⟩

theorem exists_first_not {α : Type} {P : α → Prop} {as : List α} (h : ¬∀ a ∈ as, P a) :
    ∃ before a after, as = before ++ a :: after ∧ (∀ b ∈ before, P b) ∧ ¬P a := by
  induction as with
  | nil => exact absurd nofun h
  | cons a as ih =>
    by_cases ha : P a
    · have has : ¬∀ b ∈ as, P b := fun has => h (List.forall_mem_cons.2 ⟨ha, has⟩)
      obtain ⟨before, b, after, rfl, hbefore, hb⟩ := ih has
      exact ⟨a :: before, b, after, rfl, List.forall_mem_cons.2 ⟨ha, hbefore⟩, hb⟩
    · exact ⟨[], a, as, rfl, List.forall_mem_nil _, ha⟩

theorem exists_firstFault {w : Workflow} (h : ¬w.Valid) : ∃ f, w.FirstFault f := by
  by_cases hids : w.ids.Nodup
  · by_cases hentry : entryId ∈ w.ids
    · have hedges : ¬w.Joined w.edges := fun hedges => h ⟨hids, hentry, hedges⟩
      obtain ⟨before, e, after, heq, hbefore, he⟩ := exists_first_not hedges
      by_cases hsource : e.source ∈ w.ids
      · exact ⟨_, .target hids hentry heq hbefore hsource fun htarget => he ⟨hsource, htarget⟩⟩
      · exact ⟨_, .source hids hentry heq hbefore hsource⟩
    · exact ⟨_, .entry hids hentry⟩
  · obtain ⟨ids, id, rest, heq, hbefore, hid⟩ := exists_first_duplicate hids
    obtain ⟨before, ns, hnodes, rfl, hns⟩ := List.map_eq_append_iff.1 heq
    obtain ⟨n, after, rfl, rfl, -⟩ := List.map_eq_cons_iff.1 hns
    exact ⟨_, .duplicate hnodes hbefore hid⟩

end Workflow

namespace Graph

variable {w : Workflow} {m : Keyed Nat}

theorem place_duplicate {i : Nat} {before after : List Node} {n : Node}
    (hbefore : (before.map Node.id).Nodup) (hfree : ∀ a ∈ before, m.contains a.id = false)
    (hn : n.id ∈ before.map Node.id ∨ m.contains n.id = true) :
    place w i m (before ++ n :: after) = .error (.duplicateNode w.id n.id) := by
  induction before generalizing i m with
  | nil =>
    have hn : m.contains n.id = true := hn.resolve_left List.not_mem_nil
    rw [List.nil_append, place, if_pos hn]
  | cons a before ih =>
    obtain ⟨ha, hfree⟩ := List.forall_mem_cons.1 hfree
    rw [List.map_cons, List.nodup_cons] at hbefore
    rw [List.cons_append, place, ha]
    apply ih hbefore.2
    · exact free_put hbefore.1 hfree
    · rw [Keyed.contains, Keyed.get?_put]
      by_cases hid : a.id = n.id
      · rw [if_pos hid]
        exact .inr rfl
      · rw [if_neg hid]
        rw [List.map_cons, List.mem_cons] at hn
        exact hn.imp_left fun h => h.resolve_left (Ne.symm hid)

theorem endpoint_dangling {e : Edge} {id : String} (h : m.contains id = false) :
    endpoint w m e id = .error (.danglingEdge w.id e.id id) := by
  rw [endpoint, Keyed.get?_of_not_contains h]

theorem route_dangling {k : Nat} {rs : List (List Route)} {before after : List Edge} {e : Edge}
    {f : Workflow.Fault}
    (hbefore : ∀ d ∈ before, m.contains d.source = true ∧ m.contains d.target = true)
    (he : ∀ k rs, route w m k rs (e :: after) = .error f) :
    route w m k rs (before ++ e :: after) = .error f := by
  induction before generalizing k rs with
  | nil => exact he k rs
  | cons d before ih =>
    obtain ⟨⟨hs, ht⟩, hbefore⟩ := List.forall_mem_cons.1 hbefore
    obtain ⟨source, hsource⟩ := endpoint_isOk (w := w) (e := d) hs
    obtain ⟨target, htarget⟩ := endpoint_isOk (w := w) (e := d) ht
    rw [List.cons_append, route, hsource, htarget]
    exact ih hbefore

theorem compile_edge {before after : List Edge} {e : Edge} {f : Workflow.Fault}
    (hids : w.ids.Nodup) (hentry : entryId ∈ w.ids) (hedges : w.edges = before ++ e :: after)
    (hbefore : w.Joined before)
    (he : ∀ m, (∀ id, m.contains id = true ↔ id ∈ w.ids) →
      ∀ k rs, route w m k rs (e :: after) = .error f) : compile w = .error f := by
  obtain ⟨m, hm, hcontains⟩ := exists_place hids
  have hbefore : ∀ d ∈ before, m.contains d.source = true ∧ m.contains d.target = true := by
    simp only [hcontains]
    exact hbefore
  have hroute : route w m 0 (w.nodes.map fun _ => []) w.edges = .error f := by
    rw [hedges]
    exact route_dangling hbefore (he m hcontains)
  simp only [compile, hm, (hcontains _).2 hentry, hroute, bind, Except.bind]
  rfl

theorem compile_firstFault {f : Workflow.Fault} (h : w.FirstFault f) : compile w = .error f := by
  cases h with
  | @duplicate before after n hnodes hbefore hn =>
    have hplace : place w 0 .empty (before ++ n :: after) = .error (.duplicateNode w.id n.id) :=
      place_duplicate hbefore (fun _ _ => rfl) (.inl hn)
    rw [compile, hnodes, hplace]
    rfl
  | entry hids hentry =>
    obtain ⟨m, hm, hcontains⟩ := exists_place hids
    have hnone : m.contains entryId = false :=
      eq_false_of_ne_true fun h => hentry ((hcontains _).1 h)
    simp only [compile, hm, hnone, bind, Except.bind]
    rfl
  | source hids hentry hedges hbefore hsource =>
    apply compile_edge hids hentry hedges hbefore
    intro m hcontains k rs
    rw [route, endpoint_dangling (eq_false_of_ne_true fun h => hsource ((hcontains _).1 h))]
    rfl
  | target hids hentry hedges hbefore hsource htarget =>
    apply compile_edge hids hentry hedges hbefore
    intro m hcontains k rs
    obtain ⟨i, hi⟩ := endpoint_isOk (w := w) ((hcontains _).2 hsource)
    rw [route, hi, endpoint_dangling (eq_false_of_ne_true fun h => htarget ((hcontains _).1 h))]
    rfl

theorem exists_compile_iff : (∃ g, compile w = .ok g) ↔ w.Valid := by
  rw [compile_isOk_iff]
  constructor
  · rintro ⟨hids, hentry, hedges⟩
    exact ⟨hids, hentry, hedges⟩
  · rintro ⟨hids, hentry, hedges⟩
    exact ⟨hids, hentry, hedges⟩

theorem compile_eq_error_iff {f : Workflow.Fault} : compile w = .error f ↔ w.FirstFault f := by
  constructor
  · intro h
    have hinvalid : ¬w.Valid := by
      intro hvalid
      obtain ⟨g, hg⟩ := exists_compile_iff.2 hvalid
      rw [hg] at h
      cases h
    -- it has a first fault and is refused for that one, which then is `f`
    obtain ⟨f', hf'⟩ := Workflow.exists_firstFault hinvalid
    have hsame := compile_firstFault hf'
    rw [h] at hsame
    cases hsame
    exact hf'
  · exact compile_firstFault

theorem compile_decides (w : Workflow) :
    ((∃ g, compile w = .ok g) ↔ w.Valid) ∧ (∀ f, compile w = .error f ↔ w.FirstFault f) ∧
      ∀ g, compile w = .ok g → g.workflow = w :=
  ⟨exists_compile_iff, fun _ => compile_eq_error_iff, fun _ hg => (compile_ok hg).1⟩

end Graph

end FlowGraph
