import FlowGraph.Proofs.Store.History

namespace FlowGraph.Store

open Run (Record)
open ReplayRow (ofRecord sameKey)

/-- A record that the table gives back as it is. -/
structure Storable (x : Record) : Prop where
  sequence : x.sequence < 2 ^ 63
  createdAt : x.createdAt.Ordinary
  settled : x.data.Settled
  numbers : x.data.ReadsBack
  legible : Legible x

instance (x : Record) : Decidable (Storable x) :=
  decidable_of_iff (x.sequence < 2 ^ 63 ∧ x.createdAt.Ordinary ∧ x.data.Settled ∧ x.data.ReadsBack ∧
    Legible x) ⟨fun ⟨hs, hc, hd, hn, hl⟩ => ⟨hs, hc, hd, hn, hl⟩,
    fun h => ⟨h.sequence, h.createdAt, h.settled, h.numbers, h.legible⟩⟩

theorem Storable.sound {x : Record} (h : Storable x) : Sound x where
  sequence := Nat.lt_trans h.sequence (by decide)
  createdAt := h.createdAt
  settled := h.settled
  numbers := h.numbers

namespace Replay

variable {t : Replay} {rs : List Record} {x y : Record} {processId : String}

theorem insert_fails_iff :
    (∃ fault, t.insert x = .error fault) ↔ ∃ row ∈ t, sameKey (ofRecord x) row = true := by
  rw [← List.any_eq_true]
  rcases insert_cases t x with ⟨hold, h⟩ | ⟨hnew, h⟩
  · simp [h, hold]
  · simp [h, hnew]

theorem insertAll_concat (t : Replay) (rs : List Record) (x : Record) :
    t.insertAll (rs ++ [x]) = (((t.insertAll rs).insert x).toOption).getD (t.insertAll rs) := by
  rw [insertAll, List.foldl_append]
  rfl

theorem taken_new (t : Replay) (rs : List Record) :
    (∀ x ∈ t.taken rs, ∀ row ∈ t, sameKey (ofRecord x) row = false) ∧
      (t.taken rs).Pairwise fun x y => sameKey (ofRecord y) (ofRecord x) = false := by
  induction rs generalizing t with
  | nil => exact ⟨List.forall_mem_nil _, .nil⟩
  | cons x rs ih =>
    rw [taken]
    rcases insert_cases t x with ⟨-, h⟩ | ⟨hnew, h⟩ <;> rw [h]
    · exact ih t
    · obtain ⟨hrows, hpairs⟩ := ih (ofRecord x :: t)
      have hfirst : ∀ row ∈ t, sameKey (ofRecord x) row = false := by
        simpa using List.any_eq_false.1 hnew
      refine ⟨List.forall_mem_cons.2 ⟨hfirst, fun y hy => ?_⟩, List.pairwise_cons.2 ⟨?_, hpairs⟩⟩
      · exact (List.forall_mem_cons.1 (hrows y hy)).2
      · exact fun y hy => (List.forall_mem_cons.1 (hrows y hy)).1

section

variable (hrs : ∀ x ∈ rs, Storable x)
include hrs

theorem storable_taken : ∀ x ∈ taken [] rs, Storable x :=
  fun x hx => hrs x ((taken_sublist [] rs).subset hx)

theorem refused_iff (hx : Storable x) :
    (∃ fault, (insertAll [] rs).insert x = .error fault) ↔
      ∃ y ∈ taken [] rs, y.processId = x.processId ∧ y.sequence = x.sequence := by
  have hkey : ∀ y ∈ taken [] rs, sameKey (ofRecord x) (ofRecord y) = true ↔
      y.processId = x.processId ∧ y.sequence = x.sequence := by
    intro y hy
    rw [sameKey_ofRecord hx.sound.sequence (storable_taken hrs y hy).sound.sequence, eq_comm,
      eq_comm (a := x.sequence)]
  rw [insert_fails_iff, insertAll_eq, List.append_nil]
  constructor
  · rintro ⟨row, hrow, hsame⟩
    obtain ⟨y, hy, rfl⟩ := List.mem_map.1 (List.mem_reverse.1 hrow)
    exact ⟨y, hy, (hkey y hy).1 hsame⟩
  · rintro ⟨y, hy, hsame⟩
    exact ⟨ofRecord y, List.mem_reverse.2 (List.mem_map_of_mem hy), (hkey y hy).2 hsame⟩

theorem distinct_taken (processId : String) :
    ((taken [] rs).filter (·.processId = processId)).Pairwise
      fun x y => x.sequence ≠ y.sequence := by
  have hpairs := (taken_new [] rs).2.sublist (List.filter_sublist (p := (·.processId = processId)))
  apply hpairs.imp_of_mem
  intro x y hx hy hkeys hsame
  obtain ⟨hx, hxp⟩ := List.mem_filter.1 hx
  obtain ⟨hy, hyp⟩ := List.mem_filter.1 hy
  have hprocess : y.processId = x.processId := (of_decide_eq_true hyp).trans (of_decide_eq_true hxp).symm
  have hold := (sameKey_ofRecord (storable_taken hrs y hy).sound.sequence
    (storable_taken hrs x hx).sound.sequence).2 ⟨hprocess, hsame.symm⟩
  rw [hold] at hkeys
  cases hkeys

theorem records_taken (processId : String) : ∃ xs,
    (insertAll [] rs).records processId = .ok xs ∧
      xs.Perm ((taken [] rs).filter (·.processId = processId)) ∧
      xs.Pairwise fun x y => x.sequence < y.sequence := by
  let own := (taken [] rs).filter (·.processId = processId)
  let xs := own.mergeSort fun x y => x.sequence ≤ y.sequence
  have hperm : xs.Perm own := List.mergeSort_perm _ _
  have hstorable : ∀ x ∈ xs, Storable x := fun x hx =>
    storable_taken hrs x (List.mem_of_mem_filter (hperm.mem_iff.1 hx))
  have hordered : Ordered processId xs :=
    ⟨fun x hx => of_decide_eq_true (List.mem_filter.1 (hperm.mem_iff.1 hx)).2,
      mergeSort_ascending (distinct_taken hrs processId), fun x hx => (hstorable x hx).sequence⟩
  have hrows : ((insertAll [] rs).filter (·.processId = processId)).Perm (xs.map ofRecord) := by
    rw [insertAll_eq, List.append_nil, List.filter_reverse, List.filter_map]
    exact (List.reverse_perm _).trans (hperm.symm.map ofRecord)
  refine ⟨xs, ?_, hperm, hordered.ascending⟩
  rw [records_eq hordered hrows]
  exact (mapM_record fun x hx => (hstorable x hx).sound).2 ⟨rfl, fun x hx => (hstorable x hx).legible⟩

end

end Replay

/-- `Replay.taken` are the records that were inserted without a fault. -/
theorem records_kept {rs : List Record} (hrs : ∀ x ∈ rs, Storable x) :
    (∀ x, Storable x →
      ((∃ fault, (Replay.insertAll [] rs).insert x = .error fault) ↔
        ∃ y ∈ Replay.taken [] rs, y.processId = x.processId ∧ y.sequence = x.sequence) ∧
      ((∃ fault, (Replay.insertAll [] rs).insert x = .error fault) →
        Replay.insertAll [] (rs ++ [x]) = Replay.insertAll [] rs)) ∧
    (∀ processId, ∃ xs, (Replay.insertAll [] rs).records processId = .ok xs ∧
      xs.Perm ((Replay.taken [] rs).filter (·.processId = processId)) ∧
      xs.Pairwise fun x y => x.sequence < y.sequence) ∧
    ∀ ys, (∀ y ∈ ys, Storable y) → (Replay.taken [] ys).Perm (Replay.taken [] rs) →
      ∀ processId, (Replay.insertAll [] ys).records processId =
        (Replay.insertAll [] rs).records processId := by
  refine ⟨fun x hx => ⟨Replay.refused_iff hrs hx, ?_⟩, Replay.records_taken hrs, ?_⟩
  · rintro ⟨fault, hfault⟩
    rw [Replay.insertAll_concat, hfault]
    rfl
  · intro ys hys hperm processId
    obtain ⟨xs, hxs, hxsperm, hxsorder⟩ := Replay.records_taken hrs processId
    obtain ⟨zs, hzs, hzsperm, hzsorder⟩ := Replay.records_taken hys processId
    have hsame : zs.Perm xs := hzsperm.trans ((hperm.filter _).trans hxsperm.symm)
    rw [hxs, hzs, eq_of_ascending_perm hsame hzsorder hxsorder]

namespace Sample

def entry (sequence : Nat) (message : String) : Record :=
  { later with
    processId := "p"
    subprocessId := some ""
    sequence := sequence
    message := message
    data := Run.Sample.nest 126 }

def entries : List Record := [entry 7 "second", later, entry 2 "first"]

end Sample

theorem records_kept_entries :
    (∃ fault, (Replay.insertAll [] Sample.entries).insert (Sample.entry 7 "third") = .error fault) ∧
    Replay.insertAll [] (Sample.entries ++ [Sample.entry 7 "third"]) =
      Replay.insertAll [] Sample.entries ∧
    (Replay.insertAll [] Sample.entries).records "p" =
      .ok [Sample.entry 2 "first", Sample.entry 7 "second"] := by
  have hentries : ∀ x ∈ Sample.entries, Storable x := by decide +kernel
  have hthird : Storable (Sample.entry 7 "third") := by decide +kernel
  have htaken : Replay.taken [] Sample.entries = Sample.entries := by decide +kernel
  obtain ⟨hrefused, hkept, -⟩ := records_kept hentries
  obtain ⟨hiff, hunchanged⟩ := hrefused _ hthird
  have hfault := hiff.2 ⟨Sample.entry 7 "second", by rw [htaken]; exact List.mem_cons_self, rfl, rfl⟩
  obtain ⟨xs, hxs, hperm, horder⟩ := hkept "p"
  refine ⟨hfault, hunchanged hfault, ?_⟩
  have hown : ((Replay.taken [] Sample.entries).filter (·.processId = "p")).Perm
      [Sample.entry 2 "first", Sample.entry 7 "second"] := by
    rw [htaken]
    exact List.Perm.swap _ _ []
  rw [hxs, eq_of_ascending_perm (hperm.trans hown) horder (by decide)]

end FlowGraph.Store
