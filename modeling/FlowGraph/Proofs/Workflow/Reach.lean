import FlowGraph.Proofs.Workflow.Routes

namespace FlowGraph.Graph

open Relation

variable {w : Workflow} {g : Graph} {m : Keyed Nat} {i j k : Nat} {es : List Edge}
  {seen todo : List Nat}

def successors (g : Graph) (i : Nat) : List Nat := ((g.routes[i]?).getD []).map (·.target)

theorem mem_leaving_targets {t : Nat} : t ∈ (leaving m i k es).map (·.target) ↔
    ∃ e ∈ es, m.get? e.source = some i ∧ m.get? e.target = some t := by
  induction es generalizing k with
  | nil => simp [leaving]
  | cons e es ih =>
    have hrest := ih (k := k + 1)
    rw [leaving]
    split
    · next source target hsource htarget =>
      by_cases hi : source = i
      · simp [hi, hsource, htarget, hrest, eq_comm]
      · simp [hi, hsource, htarget, hrest]
    · next hnone =>
      have hout : ¬(m.get? e.source = some i ∧ m.get? e.target = some t) := by
        rintro ⟨hs, ht⟩
        exact hnone i t hs ht
      rw [hrest, List.exists_mem_cons_iff]
      exact ⟨.inr, fun h => h.resolve_left hout⟩

theorem length_leaving_le :
    (leaving m i k es).length ≤ es.countP fun e => m.get? e.source = some i := by
  induction es generalizing k with
  | nil => simp [leaving]
  | cons e es ih =>
    have hrest := ih (k := k + 1)
    rw [leaving, List.countP_cons]
    split
    · next source target hsource _ =>
      by_cases hi : source = i
      · simp only [hi, ↓reduceIte, List.length_cons, hsource, decide_true]
        omega
      · simp only [hi, ↓reduceIte]
        omega
    · omega

theorem Compiled.successors_eq (hg : g.Compiled) (i : Nat) : g.successors i = [] ∨
    g.successors i = (leaving g.positions i 0 g.workflow.edges).reverse.map (·.target) := by
  obtain ⟨w, hw⟩ := hg
  obtain ⟨rfl, -, -⟩ := compile_ok hw
  rw [successors, route_leaving (compile_routes hw) i, List.getElem?_map]
  cases g.workflow.nodes[i]? with
  | none => exact .inl rfl
  | some n => exact .inr (by simp)

theorem Compiled.successors_length_le (hg : g.Compiled) (i : Nat) :
    (g.successors i).length ≤ g.workflow.edges.countP fun e => g.positions.get? e.source = some i := by
  rcases hg.successors_eq i with h | h
  · simp [h]
  · rw [h, List.length_map, List.length_reverse]
    exact length_leaving_le

theorem Compiled.mem_successors (hg : g.Compiled) {id : String}
    (hi : g.positions.get? id = some i) :
    j ∈ g.successors i ↔ ∃ t, g.positions.get? t = some j ∧ g.workflow.Joins id t := by
  have hroutes : g.successors i = (g.routesFrom id).map (·.target) := by
    rw [successors, routesFrom, hi, Option.bind_some]
  rw [hroutes, hg.routesFrom_eq hi, List.map_reverse, List.mem_reverse, mem_leaving_targets]
  constructor
  · rintro ⟨e, he, hsource, htarget⟩
    exact ⟨e.target, htarget, e, he, hg.position_inj hsource hi, rfl⟩
  · rintro ⟨t, ht, e, he, rfl, rfl⟩
    exact ⟨e, he, hi, ht⟩

theorem reach_cons (g : Graph) (fuel : Nat) (seen : List Nat) (i : Nat) (todo : List Nat) :
    g.reach (fuel + 1) seen (i :: todo) = if i ∈ seen then g.reach fuel seen todo
      else g.reach fuel (i :: seen) (g.successors i ++ todo) := by
  simp only [reach, List.contains_iff_mem, successors]

theorem reach_sound {P : Nat → Prop} (hP : ∀ i j, P i → j ∈ g.successors i → P j) {fuel : Nat}
    (hseen : ∀ i ∈ seen, P i) (htodo : ∀ i ∈ todo, P i) : ∀ i ∈ g.reach fuel seen todo, P i := by
  induction fuel generalizing seen todo with
  | zero => exact hseen
  | succ fuel ih =>
    cases todo with
    | nil => exact hseen
    | cons i todo =>
      obtain ⟨hi, hrest⟩ := List.forall_mem_cons.1 htodo
      rw [reach_cons]
      split
      · exact ih hseen hrest
      · apply ih (List.forall_mem_cons.2 ⟨hi, hseen⟩)
        intro j hj
        rcases List.mem_append.1 hj with hj | hj
        · exact hP i j hi hj
        · exact hrest j hj

def unseen (g : Graph) (seen : List Nat) : Nat :=
  g.workflow.edges.countP fun e => (g.positions.get? e.source).all (· ∉ seen)

theorem unseen_cons (hi : i ∉ seen) : g.unseen (i :: seen) +
    (g.workflow.edges.countP fun e => g.positions.get? e.source = some i) = g.unseen seen := by
  unfold unseen
  induction g.workflow.edges with
  | nil => rfl
  | cons e es ih =>
    have hhead : (if (g.positions.get? e.source).all (· ∉ i :: seen) = true then 1 else 0) +
        (if decide (g.positions.get? e.source = some i) = true then 1 else 0) =
        if (g.positions.get? e.source).all (· ∉ seen) = true then 1 else 0 := by
      cases g.positions.get? e.source with
      | none => rfl
      | some p =>
        by_cases hp : p = i
        · simp [hp, hi]
        · simp [hp]
    simp only [List.countP_cons]
    omega

theorem skip_subset (hi : i ∈ seen) : seen ++ i :: todo ⊆ seen ++ todo := by
  intro j hj
  simp only [List.mem_append, List.mem_cons] at hj ⊢
  rcases hj with hj | rfl | hj
  · exact .inl hj
  · exact .inl hi
  · exact .inr hj

theorem search_subset : seen ++ i :: todo ⊆ (i :: seen) ++ (g.successors i ++ todo) := by
  intro j hj
  simp only [List.mem_append, List.mem_cons] at hj ⊢
  tauto

theorem Compiled.reach_closed (hg : g.Compiled) {fuel : Nat}
    (hfuel : g.unseen seen + todo.length ≤ fuel)
    (hseen : ∀ i ∈ seen, g.successors i ⊆ seen ++ todo) :
    seen ++ todo ⊆ g.reach fuel seen todo ∧
      ∀ i ∈ g.reach fuel seen todo, g.successors i ⊆ g.reach fuel seen todo := by
  -- all that is led to is found: each place is searched once, so the fuel is one for each edge
  induction fuel generalizing seen todo with
  | zero =>
    have hnil : todo = [] := List.length_eq_zero_iff.1 (by omega)
    subst hnil
    simpa [reach] using hseen
  | succ fuel ih =>
    cases todo with
    | nil => simpa [reach] using hseen
    | cons i todo =>
      rw [List.length_cons] at hfuel
      rw [reach_cons]
      split
      · next hi =>
        have hskip : seen ++ i :: todo ⊆ seen ++ todo := skip_subset hi
        have hfuel' : g.unseen seen + todo.length ≤ fuel := by omega
        obtain ⟨hfound, hclosed⟩ := ih hfuel' fun j hj => List.Subset.trans (hseen j hj) hskip
        exact ⟨List.Subset.trans hskip hfound, hclosed⟩
      · next hi =>
        have hsearch : seen ++ i :: todo ⊆ (i :: seen) ++ (g.successors i ++ todo) := search_subset
        have hless := unseen_cons (g := g) hi
        have hlength := hg.successors_length_le i
        have hfuel' : g.unseen (i :: seen) + (g.successors i ++ todo).length ≤ fuel := by
          rw [List.length_append]
          omega
        have hseen' : ∀ j ∈ i :: seen, g.successors j ⊆ (i :: seen) ++ (g.successors i ++ todo) := by
          refine List.forall_mem_cons.2 ⟨?_, fun j hj => List.Subset.trans (hseen j hj) hsearch⟩
          exact List.subset_append_of_subset_right _ (List.subset_append_left _ _)
        obtain ⟨hfound, hclosed⟩ := ih hfuel' hseen'
        exact ⟨List.Subset.trans hsearch hfound, hclosed⟩

theorem Compiled.mem_reachable_iff (hg : g.Compiled) {id : String} :
    id ∈ g.reachable ↔ ReflTransGen g.workflow.Joins entryId id := by
  have hentry : ∃ i, g.positions.get? entryId = some i := by
    obtain ⟨n, hn⟩ := hg.exists_entry
    obtain ⟨i, hi, -⟩ := Option.bind_eq_some_iff.1 hn
    exact ⟨i, hi⟩
  obtain ⟨i, hi⟩ := hentry
  rw [reachable, hi]
  simp only [List.mem_filterMap, Option.map_eq_some_iff]
  constructor
  · rintro ⟨j, hj, n, hn, rfl⟩
    have hpath : ∀ j ∈ g.reach (g.workflow.edges.length + 1) [] [i],
        ∃ t, g.positions.get? t = some j ∧ ReflTransGen g.workflow.Joins entryId t := by
      apply reach_sound
      · rintro a b ⟨t, ht, hpath⟩ hb
        obtain ⟨t', ht', hjoins⟩ := (hg.mem_successors ht).1 hb
        exact ⟨t', ht', hpath.tail hjoins⟩
      · nofun
      · intro a ha
        obtain rfl := List.mem_singleton.1 ha
        exact ⟨entryId, hi, .refl⟩
    obtain ⟨t, ht, hpath⟩ := hpath j hj
    obtain ⟨n', hn', rfl⟩ := hg.position ht
    rw [hn] at hn'
    cases hn'
    exact hpath
  · intro hpath
    have hfuel : g.unseen [] + [i].length ≤ g.workflow.edges.length + 1 :=
      Nat.add_le_add_right List.countP_le_length 1
    obtain ⟨hfound, hclosed⟩ := hg.reach_closed hfuel nofun
    have hplace : ∃ j ∈ g.reach (g.workflow.edges.length + 1) [] [i],
        g.positions.get? id = some j := by
      induction hpath with
      | refl => exact ⟨i, hfound List.mem_cons_self, hi⟩
      | @tail a b _ hjoins ih =>
        obtain ⟨j, hj, ha⟩ := ih
        have ⟨e, he, _, htarget⟩ := hjoins
        obtain ⟨-, hc⟩ := hg.endpoints he
        obtain ⟨k, hk⟩ := Option.isSome_iff_exists.1 hc
        rw [htarget] at hk
        exact ⟨k, hclosed j hj ((hg.mem_successors ha).2 ⟨b, hk, hjoins⟩), hk⟩
    obtain ⟨j, hj, hid⟩ := hplace
    obtain ⟨n, hn, rfl⟩ := hg.position hid
    exact ⟨j, hj, n, hn, rfl⟩

end FlowGraph.Graph
