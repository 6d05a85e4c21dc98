import FlowGraph.Proofs.Workflow.Reach

namespace FlowGraph

open Relation

variable {g g' : Graph} {w w' : Workflow} {id : String}

namespace Graph

structure SameReach (g g' : Graph) : Prop where
  id : g.id = g'.id
  reachable : ∀ id, id ∈ g.reachable ↔ id ∈ g'.reachable
  kinds : ∀ id ∈ g.reachable, (g.node? id).map (·.kind) = (g'.node? id).map (·.kind)
  outgoing : ∀ id ∈ g.reachable, g.workflow.outgoing id = g'.workflow.outgoing id

theorem SameReach.refl (g : Graph) : g.SameReach g :=
  ⟨rfl, fun _ => .rfl, fun _ _ => rfl, fun _ _ => rfl⟩

theorem SameReach.trans {g₁ g₂ g₃ : Graph} (h : g₁.SameReach g₂) (h' : g₂.SameReach g₃) :
    g₁.SameReach g₃ where
  id := h.id.trans h'.id
  reachable id := (h.reachable id).trans (h'.reachable id)
  kinds id hid := (h.kinds id hid).trans (h'.kinds id ((h.reachable id).1 hid))
  outgoing id hid := (h.outgoing id hid).trans (h'.outgoing id ((h.reachable id).1 hid))

theorem Compiled.reachable_entry (hg : g.Compiled) : entryId ∈ g.reachable :=
  hg.mem_reachable_iff.2 .refl

theorem Compiled.reachable_target (hg : g.Compiled) (hid : id ∈ g.reachable) {p : String × String}
    (hp : p ∈ g.workflow.outgoing id) : p.2 ∈ g.reachable := by
  rw [hg.mem_reachable_iff] at hid ⊢
  exact hid.tail (Workflow.joins_iff.2 ⟨p.1, hp⟩)

theorem SameReach.of_outgoing (hg : g.Compiled) (hg' : g'.Compiled) (hid : g.id = g'.id)
    (hnode : ∀ id ∈ g.reachable, g.node? id = g'.node? id)
    (houtgoing : ∀ id ∈ g.reachable, g.workflow.outgoing id = g'.workflow.outgoing id) :
    g.SameReach g' := by
  have hjoins : ∀ a ∈ g.reachable, ∀ b, g.workflow.Joins a b ↔ g'.workflow.Joins a b := by
    intro a ha b
    rw [Workflow.joins_iff, Workflow.joins_iff, houtgoing a ha]
  refine ⟨hid, fun id => ?_, fun id h => by rw [hnode id h], houtgoing⟩
  constructor
  · intro h
    rw [hg'.mem_reachable_iff]
    rw [hg.mem_reachable_iff] at h
    induction h with
    | refl => exact .refl
    | @tail a b hpath hj ih => exact ih.tail ((hjoins a (hg.mem_reachable_iff.2 hpath) b).1 hj)
  · intro h
    rw [hg'.mem_reachable_iff] at h
    induction h with
    | refl => exact hg.reachable_entry
    | @tail a b _ hj ih =>
      rw [hg.mem_reachable_iff] at ih ⊢
      exact ih.tail ((hjoins a (hg.mem_reachable_iff.2 ih) b).2 hj)

theorem Compiled.node?_congr (hg : g.Compiled) (hg' : g'.Compiled)
    (h : ∀ n : Node, n.id = id → (n ∈ g.workflow.nodes ↔ n ∈ g'.workflow.nodes)) :
    g.node? id = g'.node? id := by
  ext n
  rw [hg.node?_eq_some_iff, hg'.node?_eq_some_iff]
  constructor
  · rintro ⟨hn, hid⟩
    exact ⟨(h n hid).1 hn, hid⟩
  · rintro ⟨hn, hid⟩
    exact ⟨(h n hid).2 hn, hid⟩

end Graph

namespace Workflow

inductive Edit : Workflow → Workflow → Prop
  | prune {w : Workflow} {keep : String → Bool}
      (h : ∀ id, ReflTransGen w.Joins entryId id → keep id = true) :
      Edit w { w with
        nodes := w.nodes.filter (keep ·.id)
        edges := w.edges.filter fun e => keep e.source && keep e.target }
  | permute {w : Workflow} {nodes : List Node} (h : w.nodes.Perm nodes) :
      Edit w { w with nodes := nodes }
  | reorder {w : Workflow} {edges : List Edge}
      (h : ∀ id, w.edges.filter (·.source = id) = edges.filter (·.source = id)) :
      Edit w { w with edges := edges }

theorem mem_of_reordered {es es' : List Edge}
    (h : ∀ id, es.filter (·.source = id) = es'.filter (·.source = id)) {e : Edge} (he : e ∈ es') :
    e ∈ es := by
  have hmem : e ∈ es'.filter (·.source = e.source) := by simpa using he
  rw [← h] at hmem
  exact List.mem_of_mem_filter hmem

theorem Edit.compile_isOk (h : Edit w w') (hw : ∃ g, Graph.compile w = .ok g) :
    ∃ g', Graph.compile w' = .ok g' := by
  obtain ⟨hnodup, hentry, hedges⟩ := Graph.compile_isOk_iff.1 hw
  apply Graph.compile_isOk_iff.2
  cases h with
  | @prune keep hkeep =>
    have hkept : ∀ id ∈ w.ids, keep id = true → id ∈ (w.nodes.filter (keep ·.id)).map (·.id) := by
      intro id hid hk
      obtain ⟨n, hn, rfl⟩ := List.mem_map.1 hid
      exact List.mem_map_of_mem (List.mem_filter.2 ⟨hn, hk⟩)
    refine ⟨hnodup.sublist (List.filter_sublist.map _), hkept _ hentry (hkeep _ .refl), ?_⟩
    intro e he
    obtain ⟨he, hk⟩ := List.mem_filter.1 he
    obtain ⟨hs, ht⟩ := Bool.and_eq_true_iff.1 hk
    exact ⟨hkept _ (hedges e he).1 hs, hkept _ (hedges e he).2 ht⟩
  | permute hperm =>
    have hids : w.ids.Perm (ids { w with nodes := _ }) := hperm.map _
    exact ⟨hids.nodup_iff.1 hnodup, hids.mem_iff.1 hentry, fun e he =>
      ⟨hids.mem_iff.1 (hedges e he).1, hids.mem_iff.1 (hedges e he).2⟩⟩
  | reorder hsame => exact ⟨hnodup, hentry, fun e he => hedges e (mem_of_reordered hsame he)⟩

theorem Edit.sameReach (hg : g.Compiled) (h : Edit g.workflow w') (hw' : Graph.compile w' = .ok g') :
    g.SameReach g' := by
  obtain ⟨rfl, -, -⟩ := Graph.compile_ok hw'
  have hg' : g'.Compiled := ⟨_, hw'⟩
  generalize hu : g'.workflow = u at h
  cases h with
  | @prune keep hkeep =>
    have hreach : ∀ id ∈ g.reachable, keep id = true := fun id hid =>
      hkeep id (hg.mem_reachable_iff.1 hid)
    refine .of_outgoing hg hg' (congrArg Workflow.id hu).symm ?_ ?_
    · intro id hid
      apply hg.node?_congr hg'
      rintro n rfl
      simp [hu, hreach _ hid]
    · intro id hid
      have hedges : g.workflow.edges.filter (·.source = id) =
          g'.workflow.edges.filter (·.source = id) := by
        rw [hu, List.filter_filter]
        apply List.filter_congr
        intro e he
        by_cases hs : e.source = id
        · have htarget : e.target ∈ g.reachable := hg.reachable_target hid
            (mem_outgoing.2 ⟨e, he, hs, rfl⟩)
          simp [hs, hreach _ hid, hreach _ htarget]
        · simp [hs]
      rw [outgoing, hedges, outgoing]
  | permute hperm =>
    refine .of_outgoing hg hg' (congrArg Workflow.id hu).symm ?_ ?_
    · intro id _
      apply hg.node?_congr hg'
      intro n _
      rw [hu]
      exact hperm.mem_iff
    · intro id _
      rw [hu]
      rfl
  | reorder hsame =>
    refine .of_outgoing hg hg' (congrArg Workflow.id hu).symm ?_ ?_
    · intro id _
      apply hg.node?_congr hg'
      intro n _
      rw [hu]
    · intro id _
      rw [outgoing, outgoing, hsame, hu]

theorem Edit.compile_sameReach (hg : g.Compiled) (h : ReflTransGen Edit g.workflow w') :
    ∃ g', Graph.compile w' = .ok g' ∧ g.SameReach g' := by
  induction h with
  | refl =>
    obtain ⟨w, hw⟩ := hg
    obtain ⟨rfl, -, -⟩ := Graph.compile_ok hw
    exact ⟨g, hw, .refl g⟩
  | tail _ hedit ih =>
    obtain ⟨g₁, hw₁, hreach⟩ := ih
    obtain ⟨g₂, hw₂⟩ := hedit.compile_isOk ⟨g₁, hw₁⟩
    have hworkflow : g₁.workflow = _ := (Graph.compile_ok hw₁).1
    rw [← hworkflow] at hedit
    exact ⟨g₂, hw₂, hreach.trans (hedit.sameReach ⟨_, hw₁⟩ hw₂)⟩

end Workflow

end FlowGraph
