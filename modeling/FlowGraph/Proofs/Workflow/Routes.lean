import FlowGraph.Proofs.Except
import FlowGraph.Proofs.Sorting
import FlowGraph.Proofs.Workflow.Compiled
import FlowGraph.Proofs.Workflow.Paths

namespace FlowGraph

namespace Workflow

def ids (w : Workflow) : List String := w.nodes.map (·.id)

def outgoing (w : Workflow) (id : String) : List (String × String) :=
  (w.edges.filter (·.source = id)).map fun e => (e.handle, e.target)

theorem mem_outgoing {w : Workflow} {id : String} {p : String × String} :
    p ∈ w.outgoing id ↔ ∃ e ∈ w.edges, e.source = id ∧ (e.handle, e.target) = p := by
  simp [outgoing, and_assoc]

theorem joins_iff {w : Workflow} {a b : String} :
    w.Joins a b ↔ ∃ handle, (handle, b) ∈ w.outgoing a := by
  constructor
  · rintro ⟨e, he, hsource, rfl⟩
    exact ⟨e.handle, mem_outgoing.2 ⟨e, he, hsource, rfl⟩⟩
  · rintro ⟨handle, h⟩
    obtain ⟨e, he, hsource, hpair⟩ := mem_outgoing.1 h
    exact ⟨e, he, hsource, congrArg Prod.snd hpair⟩

end Workflow

namespace Graph

variable {w : Workflow} {g : Graph} {m m' : Keyed Nat} {i k : Nat} {ns : List Node}
  {es : List Edge} {rs rs' : List (List Route)}

theorem endpoint_eq_ok {e : Edge} {id : String} :
    endpoint w m e id = .ok i ↔ m.get? id = some i := by
  unfold endpoint
  split
  · next j hj => simp [hj]
  · next hj => simp [hj]

theorem compile_routes (h : compile w = .ok g) :
    route w g.positions 0 (w.nodes.map fun _ => []) w.edges = .ok g.routes := by
  obtain ⟨positions, -, h⟩ := bind_eq_ok.1 h
  split at h
  · cases h
  · obtain ⟨routes, hroutes, h⟩ := bind_eq_ok.1 h
    cases h
    exact hroutes

theorem free_put {n : Node} (hn : n.id ∉ ns.map Node.id)
    (hm : ∀ a ∈ ns, m.contains a.id = false) :
    ∀ a ∈ ns, (m.put n.id i).contains a.id = false := by
  intro a ha
  have hne : n.id ≠ a.id := fun h => hn (h ▸ List.mem_map_of_mem ha)
  rw [Keyed.contains, Keyed.get?_put, if_neg hne]
  exact hm a ha

theorem place_isOk (hn : (ns.map Node.id).Nodup) (hm : ∀ n ∈ ns, m.contains n.id = false) :
    ∃ m', place w i m ns = .ok m' := by
  induction ns generalizing i m with
  | nil => exact ⟨m, rfl⟩
  | cons n ns ih =>
    obtain ⟨hfree, hrest⟩ := List.forall_mem_cons.1 hm
    rw [List.map_cons, List.nodup_cons] at hn
    obtain ⟨m', hm'⟩ := ih (i := i + 1) hn.2 (free_put hn.1 hrest)
    exact ⟨m', by rw [place, hfree]; exact hm'⟩

theorem place_nodup (h : place w i m ns = .ok m') :
    (ns.map Node.id).Nodup ∧ ∀ n ∈ ns, m.contains n.id = false := by
  induction ns generalizing i m with
  | nil => simp
  | cons n ns ih =>
    rw [place] at h
    split at h
    · cases h
    · next hfree =>
      obtain ⟨hns, hput⟩ := ih h
      have hne : ∀ a ∈ ns, n.id ≠ a.id ∧ m.contains a.id = false := by
        intro a ha
        have hfresh := hput a ha
        rw [Keyed.contains, Keyed.get?_put] at hfresh
        by_cases hid : n.id = a.id
        · simp [hid] at hfresh
        · rw [if_neg hid] at hfresh
          exact ⟨hid, hfresh⟩
      constructor
      · rw [List.map_cons, List.nodup_cons]
        refine ⟨fun hmem => ?_, hns⟩
        obtain ⟨a, ha, hid⟩ := List.mem_map.1 hmem
        exact (hne a ha).1 hid.symm
      · intro a ha
        rcases List.mem_cons.1 ha with rfl | ha
        · exact eq_false_of_ne_true hfree
        · exact (hne a ha).2

theorem contains_place (h : place w 0 .empty w.nodes = .ok m) (id : String) :
    m.contains id = true ↔ id ∈ w.ids := by
  constructor
  · intro hc
    obtain ⟨j, hj⟩ := Option.isSome_iff_exists.1 hc
    rcases place_origin h hj with hnone | ⟨k, n, -, hn, rfl⟩
    · cases hnone
    · exact List.mem_map_of_mem (List.mem_of_getElem? hn)
  · intro hid
    obtain ⟨n, hn, rfl⟩ := List.mem_map.1 hid
    obtain ⟨k, hk⟩ := List.mem_iff_getElem?.1 hn
    rw [Keyed.contains, place_placed h hk]
    rfl

theorem exists_place (hids : w.ids.Nodup) :
    ∃ m, place w 0 .empty w.nodes = .ok m ∧ ∀ id, m.contains id = true ↔ id ∈ w.ids := by
  have hfree : ∀ n ∈ w.nodes, (Keyed.empty : Keyed Nat).contains n.id = false := fun _ _ => rfl
  obtain ⟨m, hm⟩ := place_isOk (w := w) (i := 0) hids hfree
  exact ⟨m, hm, contains_place hm⟩

theorem endpoint_isOk {e : Edge} {id : String} (h : m.contains id = true) :
    ∃ i, endpoint w m e id = .ok i := by
  obtain ⟨i, hi⟩ := Option.isSome_iff_exists.1 h
  exact ⟨i, endpoint_eq_ok.2 hi⟩

theorem route_isOk (h : ∀ e ∈ es, m.contains e.source = true ∧ m.contains e.target = true) :
    ∃ rs', route w m k rs es = .ok rs' := by
  induction es generalizing k rs with
  | nil => exact ⟨rs, rfl⟩
  | cons e es ih =>
    obtain ⟨⟨hs, ht⟩, hes⟩ := List.forall_mem_cons.1 h
    obtain ⟨source, hsource⟩ := endpoint_isOk (w := w) (e := e) hs
    obtain ⟨target, htarget⟩ := endpoint_isOk (w := w) (e := e) ht
    obtain ⟨rs', hrs⟩ := ih hes
    exact ⟨rs', by rw [route, hsource, htarget]; exact hrs⟩

theorem route_endpoints (h : route w m k rs es = .ok rs') :
    ∀ e ∈ es, m.contains e.source = true ∧ m.contains e.target = true := by
  induction es generalizing k rs with
  | nil => simp
  | cons e es ih =>
    obtain ⟨source, hsource, h⟩ := bind_eq_ok.1 h
    obtain ⟨target, htarget, h⟩ := bind_eq_ok.1 h
    rw [endpoint_eq_ok] at hsource htarget
    refine List.forall_mem_cons.2 ⟨?_, ih h⟩
    simp [Keyed.contains, hsource, htarget]

theorem compile_isOk_iff : (∃ g, compile w = .ok g) ↔
    w.ids.Nodup ∧ entryId ∈ w.ids ∧ ∀ e ∈ w.edges, e.source ∈ w.ids ∧ e.target ∈ w.ids := by
  constructor
  · rintro ⟨g, hg⟩
    obtain ⟨rfl, hplace, hentry⟩ := compile_ok hg
    have hends := route_endpoints (compile_routes hg)
    refine ⟨(place_nodup hplace).1, (contains_place hplace _).1 hentry, fun e he => ?_⟩
    obtain ⟨hs, ht⟩ := hends e he
    exact ⟨(contains_place hplace _).1 hs, (contains_place hplace _).1 ht⟩
  · rintro ⟨hn, hentry, hedges⟩
    obtain ⟨m, hm, hcontains⟩ := exists_place hn
    have hends : ∀ e ∈ w.edges, m.contains e.source = true ∧ m.contains e.target = true := by
      simp only [hcontains]
      exact hedges
    obtain ⟨rs, hrs⟩ : ∃ rs, route w m 0 (w.nodes.map fun _ => []) w.edges = .ok rs :=
      route_isOk hends
    have hc : m.contains entryId = true := (hcontains _).2 hentry
    refine ⟨⟨w, m, rs⟩, ?_⟩
    simp only [compile, hm, hc, hrs, bind, Except.bind, pure, Except.pure]
    rfl

def leaving (m : Keyed Nat) (i : Nat) : (order : Nat) → List Edge → List Route
  | _, [] => []
  | k, e :: es =>
    match m.get? e.source, m.get? e.target with
    | some s, some t =>
      if s = i then ⟨k, e.handle, t⟩ :: leaving m i (k + 1) es else leaving m i (k + 1) es
    | _, _ => leaving m i (k + 1) es

theorem leaving_cons {e : Edge} {source target : Nat} (hsource : m.get? e.source = some source)
    (htarget : m.get? e.target = some target) : leaving m i k (e :: es) =
      if source = i then ⟨k, e.handle, target⟩ :: leaving m i (k + 1) es
      else leaving m i (k + 1) es := by
  rw [leaving, hsource, htarget]

theorem route_leaving (h : route w m k rs es = .ok rs') (i : Nat) :
    rs'[i]? = (rs[i]?).map ((leaving m i k es).reverse ++ ·) := by
  induction es generalizing k rs with
  | nil =>
    cases h
    simp [leaving]
  | cons e es ih =>
    obtain ⟨source, hsource, h⟩ := bind_eq_ok.1 h
    obtain ⟨target, htarget, h⟩ := bind_eq_ok.1 h
    rw [endpoint_eq_ok] at hsource htarget
    rw [ih h, List.getElem?_modify, leaving_cons hsource htarget]
    by_cases hi : source = i
    · simp [hi, Function.comp_def]
    · simp [hi]

theorem order_le_of_mem_leaving {r : Route} (h : r ∈ leaving m i k es) : k ≤ r.order := by
  induction es generalizing k with
  | nil => cases h
  | cons e es ih =>
    rw [leaving] at h
    split at h
    · split at h
      · rcases List.mem_cons.1 h with rfl | h
        · exact Nat.le_refl k
        · have := ih h
          omega
      · have := ih h
        omega
    · have := ih h
      omega

theorem leaving_ascending : (leaving m i k es).Pairwise (·.order < ·.order) := by
  induction es generalizing k with
  | nil => exact .nil
  | cons e es ih =>
    rw [leaving]
    split
    · split
      · refine List.pairwise_cons.2 ⟨fun r hr => ?_, ih⟩
        have := order_le_of_mem_leaving hr
        dsimp only
        omega
      · exact ih
    · exact ih

theorem Compiled.routesFrom_eq (hg : g.Compiled) {id : String} (hi : g.positions.get? id = some i) :
    g.routesFrom id = (leaving g.positions i 0 g.workflow.edges).reverse := by
  obtain ⟨w, hw⟩ := hg
  obtain ⟨rfl, hplace, -⟩ := compile_ok hw
  have hroutes := route_leaving (compile_routes hw) i
  obtain ⟨n, hn, -⟩ := Compiled.position ⟨_, hw⟩ hi
  rw [List.getElem?_map, hn, Option.map_some, Option.map_some, List.append_nil] at hroutes
  rw [routesFrom, hi, Option.bind_some, hroutes, Option.getD_some]

theorem Compiled.taken_eq (hg : g.Compiled) {id : String} (hi : g.positions.get? id = some i)
    (b : Branch) :
    (((g.routesFrom id).filter (b.accepts ·.handle)).mergeSort fun r s => r.order ≤ s.order) =
      (leaving g.positions i 0 g.workflow.edges).filter (b.accepts ·.handle) := by
  -- routes are listed from the last to the first, and sorting by their order turns them round
  rw [hg.routesFrom_eq hi, List.filter_reverse]
  apply mergeSort_of_perm (List.reverse_perm _)
  exact leaving_ascending.filter _

theorem Compiled.endpoints (hg : g.Compiled) {e : Edge} (he : e ∈ g.workflow.edges) :
    g.positions.contains e.source = true ∧ g.positions.contains e.target = true := by
  obtain ⟨w, hw⟩ := hg
  obtain ⟨rfl, -, -⟩ := compile_ok hw
  exact route_endpoints (compile_routes hw) e he

theorem Compiled.position_inj (hg : g.Compiled) {id id' : String}
    (h : g.positions.get? id = some i) (h' : g.positions.get? id' = some i) : id = id' := by
  obtain ⟨n, hn, rfl⟩ := hg.position h
  obtain ⟨n', hn', rfl⟩ := hg.position h'
  rw [hn] at hn'
  cases hn'
  rfl

theorem leaving_targets {id : String} (hid : ∀ s, m.get? s = some i ↔ s = id)
    (hends : ∀ e ∈ es, m.contains e.source = true ∧ m.contains e.target = true) (b : Branch)
    (node? : Nat → Option Node) :
    ((leaving m i k es).filter (b.accepts ·.handle)).filterMap (fun r => node? r.target) =
      (((es.filter (·.source = id)).map fun e => (e.handle, e.target)).filter
        (b.accepts ·.1)).filterMap fun p => (m.get? p.2).bind node? := by
  induction es generalizing k with
  | nil => rfl
  | cons e es ih =>
    obtain ⟨⟨hs, ht⟩, hes⟩ := List.forall_mem_cons.1 hends
    obtain ⟨source, hsource⟩ := Option.isSome_iff_exists.1 hs
    obtain ⟨target, htarget⟩ := Option.isSome_iff_exists.1 ht
    have hmatch : source = i ↔ e.source = id := by
      rw [← hid, hsource, Option.some.injEq]
    have hrest := ih (k := k + 1) hes
    rw [leaving_cons hsource htarget]
    by_cases hi : source = i
    · by_cases hb : b.accepts e.handle = true
      · simp [hi, hmatch.1 hi, hb, List.filterMap_cons, htarget, hrest]
      · simp [hi, hmatch.1 hi, hb, hrest]
    · have hne : e.source ≠ id := fun h => hi (hmatch.2 h)
      simp [hi, hne, hrest]

theorem Compiled.next_eq (hg : g.Compiled) (id : String) (b : Branch) :
    g.next id b = ((g.workflow.outgoing id).filter (b.accepts ·.1)).filterMap (g.node? ·.2) := by
  cases hi : g.positions.get? id with
  | none =>
    have hnone : g.workflow.edges.filter (·.source = id) = [] := by
      apply List.filter_eq_nil_iff.2
      intro e he hsource
      obtain ⟨hs, -⟩ := hg.endpoints he
      rw [Keyed.contains, of_decide_eq_true hsource, hi] at hs
      cases hs
    simp [next, routesFrom, hi, Workflow.outgoing, hnone]
  | some i =>
    rw [next, hg.taken_eq hi b]
    apply leaving_targets
    · intro s
      constructor
      · intro hs
        exact hg.position_inj hs hi
      · rintro rfl
        exact hi
    · exact fun e he => hg.endpoints he

theorem Compiled.node?_eq_some_iff (hg : g.Compiled) {id : String} {n : Node} :
    g.node? id = some n ↔ n ∈ g.workflow.nodes ∧ n.id = id := by
  constructor
  · intro h
    obtain ⟨j, -, hj⟩ := Option.bind_eq_some_iff.1 h
    exact ⟨List.mem_of_getElem? hj, hg.id_of_node? h⟩
  · rintro ⟨hn, rfl⟩
    exact hg.node?_id hn

theorem Compiled.exists_target (hg : g.Compiled) {e : Edge} (he : e ∈ g.workflow.edges) :
    ∃ n, g.node? e.target = some n := by
  obtain ⟨-, ht⟩ := hg.endpoints he
  obtain ⟨j, hj⟩ := Option.isSome_iff_exists.1 ht
  obtain ⟨n, hn, -⟩ := hg.position hj
  exact ⟨n, by rw [node?, hj, Option.bind_some, hn]⟩

theorem forall₂_filterMap {α β : Type} {f : α → Option β} {P : α → β → Prop} {as : List α}
    (h : ∀ a ∈ as, ∃ b, f a = some b ∧ P a b) : List.Forall₂ P as (as.filterMap f) := by
  induction as with
  | nil => exact .nil
  | cons a as ih =>
    obtain ⟨⟨b, hb, hP⟩, has⟩ := List.forall_mem_cons.1 h
    rw [List.filterMap_cons_some hb]
    exact .cons hP (ih has)

theorem Compiled.next_targets (hg : g.Compiled) (id : String) (b : Branch) :
    List.Forall₂ (fun e n => n ∈ g.workflow.nodes ∧ n.id = e.target)
      (g.workflow.edges.filter fun e => e.source = id ∧ b.accepts e.handle = true)
      (g.next id b) := by
  have hnext : g.next id b = (g.workflow.edges.filter fun e =>
      e.source = id ∧ b.accepts e.handle = true).filterMap (g.node? ·.target) := by
    rw [hg.next_eq, Workflow.outgoing, List.filter_map, List.filterMap_map, List.filter_filter]
    simp [Bool.and_comm]
  rw [hnext]
  apply forall₂_filterMap
  intro e he
  obtain ⟨n, hn⟩ := hg.exists_target (List.mem_of_mem_filter he)
  exact ⟨n, hn, hg.node?_eq_some_iff.1 hn⟩

theorem Compiled.next_ids (hg : g.Compiled) (id : String) (b : Branch) :
    (g.next id b).map (·.id) = (g.workflow.edges.filter fun e =>
      e.source = id ∧ b.accepts e.handle = true).map (·.target) := by
  have h : List.Forall₂ (· = ·)
      ((g.workflow.edges.filter fun e => e.source = id ∧ b.accepts e.handle = true).map (·.target))
      ((g.next id b).map (·.id)) := by
    rw [List.forall₂_map_left_iff, List.forall₂_map_right_iff]
    exact (hg.next_targets id b).imp fun e n hn => hn.2.symm
  rw [List.forall₂_eq_eq_eq] at h
  exact h.symm

theorem exits_fst (g : Graph) (id : String) (b : Branch) : (g.exits id b).1 = g.next id b := by
  rw [exits]
  split
  · next hi => simp [next, routesFrom, hi]
  · rfl

theorem exits_snd (g : Graph) (id : String) (b : Branch) :
    (g.exits id b).2 = true ↔ (g.exits id b).1 ≠ [] := by
  rw [exits]
  split
  · simp
  · simp

/-- The graph tells of every id and every branch what the lists of nodes and edges tell. -/
structure Agrees (g : Graph) (w : Workflow) : Prop where
  node : ∀ id n, g.node? id = some n ↔ n ∈ w.nodes ∧ n.id = id
  targets : ∀ id b, List.Forall₂ (fun e n => n ∈ w.nodes ∧ n.id = e.target)
    (w.edges.filter fun e => e.source = id ∧ b.accepts e.handle = true) (g.exits id b).1
  found : ∀ id b, (g.exits id b).2 = true ↔ (g.exits id b).1 ≠ []

theorem agrees_of_compile (h : compile w = .ok g) : g.Agrees w := by
  have hg : g.Compiled := ⟨w, h⟩
  obtain ⟨rfl, -, -⟩ := compile_ok h
  refine ⟨fun id n => hg.node?_eq_some_iff, fun id b => ?_, g.exits_snd⟩
  rw [exits_fst]
  exact hg.next_targets id b

theorem Compiled.joins_of_mem_next (hg : g.Compiled) {id : String} {b : Branch} {n : Node}
    (h : n ∈ g.next id b) : g.workflow.Joins id n.id := by
  rw [hg.next_eq, List.mem_filterMap] at h
  obtain ⟨p, hp, hn⟩ := h
  rw [hg.id_of_node? hn, Workflow.joins_iff]
  exact ⟨p.1, List.mem_of_mem_filter hp⟩

end Graph

end FlowGraph
