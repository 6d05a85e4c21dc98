import Mathlib.Data.Int.Order.Basic
import Mathlib.Data.Nat.Basic
import Mathlib.Order.Lattice

namespace FlowGraph

variable {α β : Type} [LinearOrder β] {key : α → β}

theorem mergeSort_ascending {as : List α} (h : as.Pairwise fun a b => key a ≠ key b) :
    (as.mergeSort fun a b => key a ≤ key b).Pairwise fun a b => key a < key b := by
  have hsorted : (as.mergeSort fun a b => key a ≤ key b).Pairwise
      fun a b => decide (key a ≤ key b) = true :=
    List.pairwise_mergeSort (by intro a b c; simp only [decide_eq_true_eq]; exact le_trans)
      (by intro a b; simp only [Bool.or_eq_true, decide_eq_true_eq]; exact le_total _ _) as
  have hdistinct := (List.mergeSort_perm as fun a b => key a ≤ key b).symm.pairwise h
    fun hab => hab.symm
  apply (hsorted.and hdistinct).imp
  rintro a b ⟨hle, hne⟩
  exact lt_of_le_of_ne (of_decide_eq_true hle) hne

theorem eq_of_ascending_perm {as bs : List α} (hperm : as.Perm bs)
    (ha : as.Pairwise fun a b => key a < key b) (hb : bs.Pairwise fun a b => key a < key b) :
    as = bs := by
  apply List.Perm.eq_of_pairwise _ ha hb hperm
  intro a b _ _ hab hba
  exact absurd hab (lt_asymm hba)

theorem mergeSort_of_perm {as bs : List α} (hperm : as.Perm bs)
    (h : bs.Pairwise fun a b => key a < key b) :
    (as.mergeSort fun a b => key a ≤ key b) = bs := by
  have hdistinct : bs.Pairwise fun a b => key a ≠ key b := h.imp ne_of_lt
  have hmerged := (List.mergeSort_perm as fun a b => key a ≤ key b).trans hperm
  exact eq_of_ascending_perm hmerged
    (mergeSort_ascending (hperm.symm.pairwise hdistinct fun hab => hab.symm)) h

end FlowGraph
