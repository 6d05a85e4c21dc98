import FlowGraph.Workflow.Graph

namespace FlowGraph.Graph

theorem place_kept {w : Workflow} {i j : Nat} {m m' : Keyed Nat} {ns : List Node} {id : String}
    (h : place w i m ns = .ok m') (hm : m.get? id = some j) : m'.get? id = some j := by
  induction ns generalizing i m with
  | nil =>
    cases h
    exact hm
  | cons n ns ih =>
    simp only [place] at h
    split at h
    · cases h
    · next hn =>
      apply ih h
      have hne : n.id ≠ id := by
        rintro rfl
        simp [Keyed.contains, hm] at hn
      simp [hne, hm]

theorem place_placed {w : Workflow} {i k : Nat} {m m' : Keyed Nat} {ns : List Node} {n : Node}
    (h : place w i m ns = .ok m') (hk : ns[k]? = some n) : m'.get? n.id = some (i + k) := by
  induction ns generalizing i m k with
  | nil => simp at hk
  | cons a ns ih =>
    simp only [place] at h
    split at h
    · cases h
    · cases k with
      | zero =>
        obtain rfl : a = n := by simpa using hk
        exact place_kept h (by simp)
      | succ k =>
        have := ih h (by simpa using hk)
        rw [this]
        congr 1
        omega

theorem place_origin {w : Workflow} {i j : Nat} {m m' : Keyed Nat} {ns : List Node} {id : String}
    (h : place w i m ns = .ok m') (hj : m'.get? id = some j) :
    m.get? id = some j ∨ ∃ k n, j = i + k ∧ ns[k]? = some n ∧ n.id = id := by
  induction ns generalizing i m with
  | nil =>
    cases h
    exact .inl hj
  | cons n ns ih =>
    simp only [place] at h
    split at h
    · cases h
    · rcases ih h with hm | ⟨k, p, hk, hp, hid⟩
      · by_cases hn : n.id = id
        · refine .inr ⟨0, n, ?_, by simp, hn⟩
          simpa [hn, eq_comm] using hm
        · exact .inl (by simpa [hn] using hm)
      · exact .inr ⟨k + 1, p, by omega, by simpa using hp, hid⟩

def Compiled (g : Graph) : Prop := ∃ w, compile w = .ok g

theorem compile_ok {w : Workflow} {g : Graph} (h : compile w = .ok g) :
    g.workflow = w ∧ place w 0 .empty w.nodes = .ok g.positions ∧
      g.positions.contains entryId = true := by
  simp only [compile, bind, Except.bind, pure, Except.pure] at h
  split at h
  · cases h
  next ps hp =>
  by_cases hc : ps.contains entryId = true
  · simp only [hc, Bool.not_true, Bool.false_eq_true, ↓reduceIte] at h
    split at h
    · cases h
    · cases h
      exact ⟨rfl, hp, hc⟩
  · simp [hc] at h

def ofWorkflow (w : Workflow) (h : (compile w).toOption.isSome = true) : Graph :=
  (compile w).toOption.get h

theorem compile_ofWorkflow (w : Workflow) (h : (compile w).toOption.isSome = true) :
    compile w = .ok (ofWorkflow w h) := by
  have hg : (compile w).toOption = some (ofWorkflow w h) := (Option.some_get h).symm
  revert hg
  generalize ofWorkflow w h = g
  cases compile w <;> simp [Except.toOption]

theorem ofWorkflow_compiled (w : Workflow) (h : (compile w).toOption.isSome = true) :
    (ofWorkflow w h).Compiled :=
  ⟨w, compile_ofWorkflow w h⟩

theorem ofWorkflow_workflow (w : Workflow) (h : (compile w).toOption.isSome = true) :
    (ofWorkflow w h).workflow = w :=
  (compile_ok (compile_ofWorkflow w h)).1

theorem Compiled.position {g : Graph} (hg : g.Compiled) {id : String} {j : Nat}
    (h : g.positions.get? id = some j) : ∃ n, g.workflow.nodes[j]? = some n ∧ n.id = id := by
  obtain ⟨w, hw⟩ := hg
  obtain ⟨rfl, hp, -⟩ := compile_ok hw
  rcases place_origin hp h with h | ⟨k, n, hk, hn, hid⟩
  · cases h
  · obtain rfl : j = k := by omega
    exact ⟨n, hn, hid⟩

theorem Compiled.id_of_node? {g : Graph} (hg : g.Compiled) {id : String} {n : Node}
    (h : g.node? id = some n) : n.id = id := by
  obtain ⟨j, hj, hn⟩ := Option.bind_eq_some_iff.1 h
  obtain ⟨m, hm, hid⟩ := hg.position hj
  rw [hm] at hn
  cases hn
  exact hid

theorem Compiled.node?_id {g : Graph} (hg : g.Compiled) {n : Node} (h : n ∈ g.workflow.nodes) :
    g.node? n.id = some n := by
  obtain ⟨w, hw⟩ := hg
  obtain ⟨rfl, hp, -⟩ := compile_ok hw
  obtain ⟨k, hk⟩ := List.mem_iff_getElem?.1 h
  have := place_placed hp hk
  simp only [Nat.zero_add] at this
  simp [node?, this, hk]

theorem Compiled.exists_entry {g : Graph} (hg : g.Compiled) : ∃ n, g.node? entryId = some n := by
  have ⟨w, hw⟩ := hg
  obtain ⟨-, -, hc⟩ := compile_ok hw
  obtain ⟨j, hj⟩ := Option.isSome_iff_exists.1 hc
  obtain ⟨n, hn, -⟩ := hg.position hj
  exact ⟨n, by simp [node?, hj, hn]⟩

theorem mem_nodes_of_mem_next {g : Graph} {id : String} {b : Branch} {n : Node}
    (h : n ∈ g.next id b) : n ∈ g.workflow.nodes := by
  obtain ⟨r, -, hr⟩ := List.mem_filterMap.1 h
  exact List.mem_of_getElem? hr

theorem Compiled.node?_of_mem_next {g : Graph} (hg : g.Compiled) {id : String} {b : Branch}
    {n : Node} (h : n ∈ g.next id b) : g.node? n.id = some n :=
  hg.node?_id (mem_nodes_of_mem_next h)

end FlowGraph.Graph
