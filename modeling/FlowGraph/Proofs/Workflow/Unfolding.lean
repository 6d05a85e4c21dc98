import FlowGraph.Workflow.Basic
import Mathlib.Data.Set.Card
/-!
A workflow as a tree. Below each node stand the targets of the edges that leave it, in the order of
the edges and with what is below them in turn; a node that many paths lead to stands in the tree
once for each of them.
-/

namespace FlowGraph

namespace Workflow

def targets (w : Workflow) (id : String) : List String :=
  (w.edges.filter (·.source = id)).map (·.target)

/-- The edges at the positions `is` lead from `a` to `b`, one after another. -/
def Path (w : Workflow) : (a : String) → (is : List Nat) → (b : String) → Prop
  | a, [], b => a = b
  | a, i :: is, b => ∃ e, w.edges[i]? = some e ∧ e.source = a ∧ Path w e.target is b

end Workflow

inductive Unfolding where
  | node (root : String) (children : List Unfolding)

namespace Unfolding

def root : Unfolding → String
  | node a _ => a

mutual

def preorder : Unfolding → List String
  | node a ts => a :: preorders ts

def preorders : List Unfolding → List String
  | [] => []
  | t :: ts => t.preorder ++ preorders ts

end

/-- The tree follows every edge of `w` and ends only where none leaves. -/
inductive Full (w : Workflow) : Unfolding → Prop
  | intro {a : String} {ts : List Unfolding} : ts.map root = w.targets a → (∀ t ∈ ts, Full w t) →
    Full w (node a ts)

variable {w : Workflow} {t t' : Unfolding} {ts ts' : List Unfolding}

theorem eq_of_roots (h : ∀ t ∈ ts, ∀ t', Full w t' → t'.root = t.root → t' = t)
    (hts' : ∀ t' ∈ ts', Full w t') (hroots : ts'.map root = ts.map root) : ts' = ts := by
  induction ts generalizing ts' with
  | nil => exact List.map_eq_nil_iff.1 hroots
  | cons t ts ih =>
    cases ts' with
    | nil => cases hroots
    | cons t' ts' =>
      obtain ⟨hroot, hrest⟩ := List.cons.inj hroots
      obtain ⟨ht, hts⟩ := List.forall_mem_cons.1 h
      obtain ⟨ht', hts'⟩ := List.forall_mem_cons.1 hts'
      rw [ht t' ht' hroot, ih hts hts' hrest]

theorem Full.unique (h : t.Full w) (h' : t'.Full w) (hroot : t'.root = t.root) : t' = t := by
  induction h generalizing t' with
  | @intro a ts hroots _ ih =>
    cases h' with
    | @intro a' ts' hroots' hts' =>
      obtain rfl : a' = a := hroot
      rw [eq_of_roots (fun t ht t' h' hr => ih t ht h' hr) hts' (hroots'.trans hroots.symm)]

def leaving (w : Workflow) (a : String) : List (Edge × Nat) :=
  w.edges.zipIdx.filter (·.1.source = a)

theorem mem_leaving {a : String} {e : Edge} {i : Nat} :
    (e, i) ∈ leaving w a ↔ w.edges[i]? = some e ∧ e.source = a := by
  rw [leaving, List.mem_filter, List.mk_mem_zipIdx_iff_getElem?, decide_eq_true_iff]

theorem leaving_targets (w : Workflow) (a : String) :
    (leaving w a).map (·.1.target) = w.targets a := by
  have hedges : (leaving w a).map Prod.fst = w.edges.filter (·.source = a) := by
    conv_rhs => rw [← List.zipIdx_map_fst 0 w.edges, List.filter_map]
    rfl
  rw [Workflow.targets, ← hedges, List.map_map]
  rfl

theorem leaving_nodup (w : Workflow) (a : String) : ((leaving w a).map Prod.snd).Nodup := by
  have hsub : ((leaving w a).map Prod.snd).Sublist (w.edges.zipIdx.map Prod.snd) :=
    List.filter_sublist.map _
  apply hsub.nodup
  rw [List.zipIdx_map_snd]
  exact List.nodup_range'

theorem encard_onward {os : List (Edge × Nat)} {b : String} (hnodup : (os.map Prod.snd).Nodup)
    (hroots : ts.map root = os.map (·.1.target))
    (hts : ∀ t ∈ ts, {is | w.Path t.root is b}.encard = t.preorder.count b) :
    {is | ∃ p ∈ os, ∃ rest, is = p.2 :: rest ∧ w.Path p.1.target rest b}.encard =
      (preorders ts).count b := by
  induction os generalizing ts with
  | nil =>
    obtain rfl := List.map_eq_nil_iff.1 hroots
    simp [preorders]
  | cons p os ih =>
    cases ts with
    | nil => cases hroots
    | cons t ts =>
      obtain ⟨hroot, hrest⟩ := List.cons.inj hroots
      obtain ⟨ht, hts⟩ := List.forall_mem_cons.1 hts
      obtain ⟨hp, hnodup⟩ := List.nodup_cons.1 hnodup
      have hsplit : {is | ∃ q ∈ p :: os, ∃ rest, is = q.2 :: rest ∧ w.Path q.1.target rest b} =
          (p.2 :: ·) '' {is | w.Path t.root is b} ∪
            {is | ∃ q ∈ os, ∃ rest, is = q.2 :: rest ∧ w.Path q.1.target rest b} := by
        ext is
        simp [hroot, eq_comm, and_comm]
      have hdisjoint : Disjoint ((p.2 :: ·) '' {is | w.Path t.root is b})
          {is | ∃ q ∈ os, ∃ rest, is = q.2 :: rest ∧ w.Path q.1.target rest b} := by
        rw [Set.disjoint_left]
        rintro _ ⟨is, -, rfl⟩ ⟨q, hq, rest, heq, -⟩
        exact hp ((List.cons.inj heq).1 ▸ List.mem_map_of_mem hq)
      rw [hsplit, Set.encard_union_eq hdisjoint, List.cons_injective.encard_image, ht,
        ih hnodup hrest hts, preorders, List.count_append, Nat.cast_add]

theorem path_iff {a b : String} {is : List Nat} : w.Path a is b ↔
    is = [] ∧ a = b ∨ ∃ p ∈ leaving w a, ∃ rest, is = p.2 :: rest ∧ w.Path p.1.target rest b := by
  cases is with
  | nil => simp [Workflow.Path]
  | cons i is =>
    constructor
    · rintro ⟨e, he, hsource, hpath⟩
      exact .inr ⟨(e, i), mem_leaving.2 ⟨he, hsource⟩, is, rfl, hpath⟩
    · rintro (⟨h, -⟩ | ⟨⟨e, j⟩, hp, rest, heq, hpath⟩)
      · cases h
      · cases heq
        obtain ⟨he, hsource⟩ := mem_leaving.1 hp
        exact ⟨e, he, hsource, hpath⟩

theorem Full.encard_paths (h : t.Full w) (b : String) :
    {is | w.Path t.root is b}.encard = t.preorder.count b := by
  induction h with
  | @intro a ts hroots _ ih =>
    have honward := encard_onward (leaving_nodup w a) (hroots.trans (leaving_targets w a).symm) ih
    have hsplit : {is | w.Path a is b} = {is | is = [] ∧ a = b} ∪
        {is | ∃ p ∈ leaving w a, ∃ rest, is = p.2 :: rest ∧ w.Path p.1.target rest b} :=
      Set.ext fun is => path_iff
    rw [root, hsplit, preorder, List.count_cons]
    by_cases hab : a = b
    · have hempty : {is : List Nat | is = [] ∧ a = b} = {[]} := by
        ext is
        simp [hab]
      have hdisjoint : Disjoint {is : List Nat | is = [] ∧ a = b}
          {is | ∃ p ∈ leaving w a, ∃ rest, is = p.2 :: rest ∧ w.Path p.1.target rest b} := by
        rw [Set.disjoint_left]
        rintro _ ⟨rfl, -⟩ ⟨p, -, rest, heq, -⟩
        cases heq
      rw [Set.encard_union_eq hdisjoint, honward, hempty, Set.encard_singleton]
      simp [hab, add_comm]
    · have hempty : {is : List Nat | is = [] ∧ a = b} = ∅ := by
        ext is
        simp [hab]
      rw [hempty, Set.empty_union, honward]
      simp [hab]

end Unfolding

end FlowGraph
