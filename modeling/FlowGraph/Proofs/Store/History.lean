import FlowGraph.Proofs.Run.Failing
import FlowGraph.Proofs.Store.Replay
import FlowGraph.Proofs.Time.Order
import FlowGraph.Store.History
import Mathlib.Order.Bounds.Basic

namespace FlowGraph.Store

open Run (Record)
open ReplayRow (ofRecord sameKey)

namespace Replay

variable {t : Replay} {rs : List Record} {processId : String}

def taken (t : Replay) : List Record → List Record
  | [] => []
  | x :: rs =>
    match t.insert x with
    | .ok t' => x :: taken t' rs
    | .error _ => taken t rs

theorem insert_cases (t : Replay) (x : Record) :
    (t.any (sameKey (ofRecord x)) = true ∧ t.insert x = .error .taken) ∨
      t.any (sameKey (ofRecord x)) = false ∧ t.insert x = .ok (ofRecord x :: t) := by
  rw [insert, add]
  cases h : t.any (sameKey (ofRecord x))
  · exact .inr ⟨rfl, rfl⟩
  · exact .inl ⟨rfl, rfl⟩

theorem insertAll_eq (t : Replay) (rs : List Record) :
    t.insertAll rs = ((t.taken rs).map ofRecord).reverse ++ t := by
  induction rs generalizing t with
  | nil => rfl
  | cons x rs ih =>
    rw [insertAll, List.foldl_cons, taken]
    rcases insert_cases t x with ⟨-, h⟩ | ⟨-, h⟩
    · rw [h]
      exact ih t
    · rw [h, List.map_cons, List.reverse_cons, List.append_assoc]
      exact ih _

theorem taken_sublist (t : Replay) (rs : List Record) : (t.taken rs).Sublist rs := by
  induction rs generalizing t with
  | nil => exact List.Sublist.refl _
  | cons x rs ih =>
    rw [taken]
    rcases insert_cases t x with ⟨-, h⟩ | ⟨-, h⟩ <;> rw [h]
    · exact (ih t).cons x
    · exact (ih _).cons_cons x

theorem any_filter_sameKey (t : Replay) {x : Record} (hx : x.processId = processId) :
    (t.filter (·.processId = processId)).any (sameKey (ofRecord x)) =
      t.any (sameKey (ofRecord x)) := by
  rw [List.any_filter]
  congr 1
  funext row
  by_cases hrow : row.processId = processId
  · simp [hrow]
  · have hother : sameKey (ofRecord x) row = false := by
      apply sameKey_eq_false.2
      intro hsame
      exact absurd (hsame.symm.trans hx) hrow
    simp [hother]

theorem filter_taken (t : Replay) (rs : List Record) (processId : String) :
    (t.taken rs).filter (·.processId = processId) =
      taken (t.filter (·.processId = processId)) (rs.filter (·.processId = processId)) := by
  induction rs generalizing t with
  | nil => rfl
  | cons x rs ih =>
    by_cases hx : x.processId = processId
    · have hrow : (ofRecord x).processId = processId := hx
      have hany := any_filter_sameKey t hx
      have hfilter : (x :: rs).filter (·.processId = processId) =
          x :: rs.filter (·.processId = processId) := List.filter_cons_of_pos (by simp [hx])
      rw [hfilter, taken, taken]
      rcases insert_cases t x with ⟨hold, h⟩ | ⟨hnew, h⟩
      · rcases insert_cases (t.filter (·.processId = processId)) x with ⟨-, h'⟩ | ⟨hnew, -⟩
        · rw [h, h']
          exact ih t
        · rw [hany, hold] at hnew
          cases hnew
      · rcases insert_cases (t.filter (·.processId = processId)) x with ⟨hold, -⟩ | ⟨-, h'⟩
        · rw [hany, hnew] at hold
          cases hold
        · rw [h, h', ← List.filter_cons_of_pos (by simpa using hrow)]
          simp [hx, ih]
    · have hfilter : (x :: rs).filter (·.processId = processId) =
          rs.filter (·.processId = processId) := List.filter_cons_of_neg (by simp [hx])
      rw [hfilter, taken]
      rcases insert_cases t x with ⟨-, h⟩ | ⟨-, h⟩
      · rw [h]
        exact ih t
      · rw [h]
        have hrow : (ofRecord x :: t).filter (·.processId = processId) =
            t.filter (·.processId = processId) :=
          List.filter_cons_of_neg (by simp [ofRecord, hx])
        simp [hx, ih, hrow]

theorem taken_of_new (hnew : ∀ x ∈ rs, ∀ row ∈ t, sameKey (ofRecord x) row = false)
    (hrs : rs.Pairwise fun x y => sameKey (ofRecord y) (ofRecord x) = false) : t.taken rs = rs := by
  have hall := insertAll_of_new hnew hrs
  rw [insertAll_eq, List.append_cancel_right_eq, List.reverse_inj] at hall
  apply (taken_sublist t rs).eq_of_length
  simpa using congrArg List.length hall

end Replay

theorem nodup_eraseDups {α : Type} [BEq α] [LawfulBEq α] (as : List α) : as.eraseDups.Nodup := by
  induction h : as.length using Nat.strongRecOn generalizing as with
  | ind n ih =>
    cases as with
    | nil => simp
    | cons a as =>
      rw [List.eraseDups_cons, List.nodup_cons]
      constructor
      · simp [List.mem_eraseDups]
      · have hle := List.length_filter_le (fun b => !b == a) as
        rw [List.length_cons] at h
        exact ih _ (by omega) _ rfl

def Group.key (g : Group) : String × String := (g.processId, g.workflowId)

namespace Replay

theorem mem_groups {t : Replay} {g : Group} : g ∈ t.groups ↔
    (∃ r ∈ t, r.processId = g.processId ∧ r.workflowId = g.workflowId) ∧
      g.rows = t.filter fun r => r.processId = g.processId && r.workflowId = g.workflowId := by
  obtain ⟨processId, workflowId, rows⟩ := g
  simp only [groups, List.mem_map, List.mem_mergeSort, List.mem_eraseDups]
  constructor
  · rintro ⟨_, ⟨r, hr, rfl⟩, h⟩
    cases h
    exact ⟨⟨r, hr, rfl, rfl⟩, rfl⟩
  · rintro ⟨⟨r, hr, hprocess, hworkflow⟩, hrows⟩
    exact ⟨(processId, workflowId), ⟨r, hr, by rw [hprocess, hworkflow]⟩, by rw [hrows]⟩

theorem nodup_groups (t : Replay) : (t.groups.map Group.key).Nodup := by
  have hkeys : t.groups.map Group.key = ((t.map fun r => (r.processId, r.workflowId)).eraseDups).mergeSort
      fun a b => a.1 < b.1 || (a.1 = b.1 && a.2 ≤ b.2) := by
    rw [groups, List.map_map]
    exact List.map_id _
  rw [hkeys]
  exact (List.mergeSort_perm _ _).nodup_iff.2 (nodup_eraseDups _)

end Replay

theorem Group.exists_first {before : String → String → Bool} {R : Instant → Instant → Prop}
    (hR : ∀ i j : Instant, i.Ordinary → j.Ordinary → (before i.kept j.kept = true ↔ R i j))
    (htotal : ∀ i j, R i j ∨ R j i) (htrans : ∀ i j k, R i j → R j k → R i k) {xs : List Record}
    (hne : xs ≠ []) (hxs : ∀ x ∈ xs, x.createdAt.Ordinary) :
    ∃ x ∈ xs, first before (xs.map ofRecord) = x.createdAt.kept ∧
      ∀ y ∈ xs, R x.createdAt y.createdAt := by
  induction xs with
  | nil => exact absurd rfl hne
  | cons x xs ih =>
    obtain ⟨hx, hrest⟩ := List.forall_mem_cons.1 hxs
    have hself : R x.createdAt x.createdAt := (htotal _ _).elim id id
    cases xs with
    | nil => exact ⟨x, List.mem_cons_self, rfl, by simpa using hself⟩
    | cons x' xs =>
      obtain ⟨y, hy, hfirst, hyall⟩ := ih nofun hrest
      have heq : first before ((x :: x' :: xs).map ofRecord) =
          if before x.createdAt.kept y.createdAt.kept then x.createdAt.kept else y.createdAt.kept := by
        rw [← hfirst]
        rfl
      by_cases hb : before x.createdAt.kept y.createdAt.kept = true
      · have hxy := (hR _ _ hx (hrest y hy)).1 hb
        refine ⟨x, List.mem_cons_self, by rw [heq, if_pos hb], ?_⟩
        exact List.forall_mem_cons.2 ⟨hself, fun z hz => htrans _ _ _ hxy (hyall z hz)⟩
      · have hyx : R y.createdAt x.createdAt :=
          (htotal _ _).resolve_left fun hxy => hb ((hR _ _ hx (hrest y hy)).2 hxy)
        refine ⟨y, List.mem_cons_of_mem x hy, by rw [heq, if_neg hb], ?_⟩
        exact List.forall_mem_cons.2 ⟨hyx, hyall⟩

theorem Group.exists_earliest {g : Group} {xs : List Record} (hrows : g.rows = xs.map ofRecord)
    (hne : xs ≠ []) (hxs : ∀ x ∈ xs, x.createdAt.Ordinary) : ∃ x ∈ xs,
      g.earliest = x.createdAt.kept ∧ ∀ y ∈ xs, x.createdAt ≤ y.createdAt := by
  rw [earliest, hrows]
  apply exists_first _ le_total (fun _ _ _ => le_trans) hne hxs
  intro i j hi hj
  rw [decide_eq_true_eq, Instant.kept_le_kept_iff hi hj]

theorem Group.exists_latest {g : Group} {xs : List Record} (hrows : g.rows = xs.map ofRecord)
    (hne : xs ≠ []) (hxs : ∀ x ∈ xs, x.createdAt.Ordinary) : ∃ x ∈ xs,
      g.latest = x.createdAt.kept ∧ ∀ y ∈ xs, y.createdAt ≤ x.createdAt := by
  rw [latest, hrows]
  apply exists_first _ (fun i j => le_total j i) (fun _ _ _ hij hjk => le_trans hjk hij) hne hxs
  intro i j hi hj
  rw [decide_eq_true_eq, Instant.kept_le_kept_iff hj hi]

def ofRun (processId workflowId : String) (xs : List Record) : List Record :=
  xs.filter fun x => x.processId = processId && x.workflowId = workflowId

structure Summary.Sums (s : Summary) (xs : List Record) : Prop where
  startedAt : IsLeast {i | ∃ x ∈ ofRun s.processId s.workflowId xs, x.createdAt = i} s.startedAt
  finishedAt : IsGreatest {i | ∃ x ∈ ofRun s.processId s.workflowId xs, x.createdAt = i} s.finishedAt
  records : s.records = (ofRun s.processId s.workflowId xs).length
  failed : s.failed = true ↔ ∃ x ∈ ofRun s.processId s.workflowId xs, x.status = .failed

def Summary.key (s : Summary) : String × String := (s.processId, s.workflowId)

/-- One summary for each run and workflow on record, newest first. -/
structure Summarizes (ss : List Summary) (xs : List Record) : Prop where
  once : (ss.map Summary.key).Nodup
  all : ∀ x ∈ xs, ∃ s ∈ ss, s.key = (x.processId, x.workflowId)
  sums : ∀ s ∈ ss, s.Sums xs
  newest : ss.Pairwise fun a b => b.startedAt ≤ a.startedAt

section Rows

variable {xs : List Record} {g : Group}

theorem mem_ofRun {processId workflowId : String} {x : Record} :
    x ∈ ofRun processId workflowId xs ↔
      x ∈ xs ∧ x.processId = processId ∧ x.workflowId = workflowId := by
  simp [ofRun]

theorem Group.rows_ofRun (hg : g ∈ Replay.groups (xs.map ofRecord)) :
    g.rows = (ofRun g.processId g.workflowId xs).map ofRecord ∧
      ofRun g.processId g.workflowId xs ≠ [] := by
  obtain ⟨⟨row, hrow, hprocess, hworkflow⟩, hrows⟩ := Replay.mem_groups.1 hg
  constructor
  · rw [hrows, List.filter_map]
    rfl
  · obtain ⟨x, hx, rfl⟩ := List.mem_map.1 hrow
    exact List.ne_nil_of_mem (mem_ofRun.2 ⟨hx, hprocess, hworkflow⟩)

theorem name_eq_failed {s : Run.Status} : s.name = Run.Status.failed.name ↔ s = .failed := by
  cases s <;> decide

theorem Group.failed_iff (hrows : g.rows = xs.map ofRecord) :
    g.failed = true ↔ ∃ x ∈ xs, x.status = .failed := by
  simp [failed, hrows, ofRecord, name_eq_failed]

structure Group.Summed (g : Group) (xs : List Record) (s : Summary) : Prop where
  key : g.key = s.key
  earliest : g.earliest = s.startedAt.kept
  ordinary : s.startedAt.Ordinary
  sums : s.Sums xs

theorem Group.exists_summary (hxs : ∀ x ∈ xs, x.createdAt.Ordinary) (names : Definitions)
    (hg : g ∈ Replay.groups (xs.map ofRecord)) :
    ∃ s, g.summary names = .ok s ∧ g.Summed xs s := by
  obtain ⟨hrows, hne⟩ := rows_ofRun hg
  have hown : ∀ x ∈ ofRun g.processId g.workflowId xs, x.createdAt.Ordinary := by
    intro x hx
    exact hxs x (mem_ofRun.1 hx).1
  have hread : ∀ x ∈ ofRun g.processId g.workflowId xs,
      instantOf x.createdAt.kept = .ok x.createdAt := by
    intro x hx
    rw [instantOf, Instant.read?_kept (hown x hx)]
  obtain ⟨x, hx, hearliest, hleast⟩ := exists_earliest hrows hne hown
  obtain ⟨y, hy, hlatest, hgreatest⟩ := exists_latest hrows hne hown
  refine ⟨⟨g.processId, g.workflowId, ((names.get? g.workflowId).map (·.name)).getD g.workflowId,
    x.createdAt, y.createdAt, g.rows.length, g.failed⟩, ?_, rfl, hearliest, hown x hx, ?_⟩
  · rw [summary, hearliest, hlatest]
    apply bind_eq_ok.2
    exact ⟨_, hread x hx, bind_eq_ok.2 ⟨_, hread y hy, rfl⟩⟩
  · constructor
    · apply And.intro ⟨x, hx, rfl⟩
      rintro _ ⟨z, hz, rfl⟩
      exact hleast z hz
    · apply And.intro ⟨y, hy, rfl⟩
      rintro _ ⟨z, hz, rfl⟩
      exact hgreatest z hz
    · simp [hrows]
    · exact failed_iff hrows

theorem newest_first (gs : List Group) :
    (gs.mergeSort fun a b => b.earliest ≤ a.earliest).Pairwise fun a b => b.earliest ≤ a.earliest := by
  have hsorted := @List.pairwise_mergeSort Group (fun a b => b.earliest ≤ a.earliest)
    (fun a b c => by simpa only [decide_eq_true_eq] using fun hab hbc => le_trans hbc hab)
    (fun a b => by simpa only [Bool.or_eq_true, decide_eq_true_eq] using le_total _ _) gs
  simpa only [decide_eq_true_eq] using hsorted

theorem exists_summaries (hxs : ∀ x ∈ xs, x.createdAt.Ordinary) (names : Definitions) :
    ∃ ss, Replay.history (xs.map ofRecord) names none = .ok ss ∧ Summarizes ss xs := by
  have hperm := List.mergeSort_perm (Replay.groups (xs.map ofRecord)) fun a b => b.earliest ≤ a.earliest
  obtain ⟨ss, hss, hsummed⟩ := exists_mapM fun g hg =>
    Group.exists_summary hxs names (hperm.mem_iff.1 hg)
  refine ⟨ss, hss, ?_, ?_, ?_, ?_⟩
  · have hkeys := List.forall₂_map_left_iff.2 (List.forall₂_map_right_iff.2
      (hsummed.imp fun _ _ hg => hg.key))
    rw [List.forall₂_eq_eq_eq] at hkeys
    rw [← hkeys]
    exact (hperm.map _).nodup_iff.2 (Replay.nodup_groups _)
  · intro x hx
    have hkey : (x.processId, x.workflowId) ∈ (Replay.groups (xs.map ofRecord)).map Group.key := by
      apply List.mem_map.2
      refine ⟨⟨x.processId, x.workflowId, (xs.map ofRecord).filter fun r =>
        r.processId = x.processId && r.workflowId = x.workflowId⟩, Replay.mem_groups.2 ?_, rfl⟩
      exact ⟨⟨ofRecord x, List.mem_map_of_mem hx, rfl, rfl⟩, rfl⟩
    obtain ⟨g, hg, hgx⟩ := List.mem_map.1 hkey
    obtain ⟨s, hs, hsg⟩ := exists_of_forall₂ (List.Forall₂.flip hsummed) g (hperm.mem_iff.2 hg)
    exact ⟨s, hs, hsg.key.symm.trans hgx⟩
  · intro s hs
    obtain ⟨g, -, hg⟩ := exists_of_forall₂ hsummed s hs
    exact hg.sums
  · apply pairwise_of_forall₂ _ hsummed (newest_first _)
    intro g g' s s' hs hs' h
    rw [hs.earliest, hs'.earliest] at h
    exact (Instant.kept_le_kept_iff hs'.ordinary hs.ordinary).1 h

theorem Summary.Sums.perm {ys : List Record} {s : Summary} (h : s.Sums xs) (hperm : xs.Perm ys) :
    s.Sums ys := by
  have hown : (ofRun s.processId s.workflowId xs).Perm (ofRun s.processId s.workflowId ys) :=
    hperm.filter _
  obtain ⟨hstarted, hfinished, hrecords, hfailed⟩ := h
  constructor
  · simpa only [hown.mem_iff] using hstarted
  · simpa only [hown.mem_iff] using hfinished
  · rw [hrecords, hown.length_eq]
  · simpa only [hown.mem_iff] using hfailed

theorem Summarizes.perm {ys : List Record} {ss : List Summary} (h : Summarizes ss xs)
    (hperm : xs.Perm ys) : Summarizes ss ys where
  once := h.once
  all x hx := h.all x (hperm.mem_iff.2 hx)
  sums s hs := (h.sums s hs).perm hperm
  newest := h.newest

end Rows

def asked (workflowId : Option String) (xs : List Record) : List Record :=
  match workflowId with
  | some id => xs.filter (·.workflowId = id)
  | none => xs

theorem history_asked (xs : List Record) (names : Definitions) (workflowId : Option String) :
    Replay.history (xs.map ofRecord) names workflowId =
      Replay.history ((asked workflowId xs).map ofRecord) names none := by
  cases workflowId with
  | none => rfl
  | some id =>
    have hfilter : (xs.map ofRecord).filter (·.workflowId = id) =
        (xs.filter (·.workflowId = id)).map ofRecord := List.filter_map
    simp only [Replay.history, hfilter, asked]

theorem asked_sublist (workflowId : Option String) (xs : List Record) :
    (asked workflowId xs).Sublist xs := by
  cases workflowId with
  | none => exact List.Sublist.refl xs
  | some id => exact List.filter_sublist

section Runs

variable {E : Run.Engine} {g : Graph} {processId started : String} {trigger : Run.Trigger}
  {scope : Scope} {outside : Outside} {moment : Instant} {fuel : Nat} {r : Run.Result}
  {c : Run.Context}

theorem taken_of_run {ys : List Record} (hE : E.Compiled) (hg : g.Compiled)
    (h : E.run fuel g (.start processId started trigger scope outside moment) = some (r, c))
    (hsize : c.trace.size ≤ wordSize) (hys : ys.Perm c.trace.toList) : Replay.taken [] ys = ys := by
  have hnumbered := Run.numbered_of_run hE hg h
  have hbound : ∀ x ∈ c.trace.toList, x.sequence < wordSize := by
    intro x hx
    have hmem : x.sequence ∈ List.range c.trace.size := hnumbered ▸ List.mem_map_of_mem hx
    exact Nat.lt_of_lt_of_le (List.mem_range.1 hmem) hsize
  have hdistinct : c.trace.toList.Pairwise fun x y => x.sequence ≠ y.sequence := by
    apply List.pairwise_map.1
    rw [hnumbered]
    exact List.nodup_range
  apply Replay.taken_of_new
  · simp
  · apply (hys.pairwise_iff _).2
    · apply hdistinct.imp_of_mem
      intro x y hx hy hxy
      rw [Bool.eq_false_iff]
      intro hsame
      exact hxy ((Replay.sameKey_ofRecord (hbound y hy) (hbound x hx)).1 hsame).2.symm
    · intro x y hxy
      rw [Replay.sameKey_eq_false] at hxy ⊢
      exact fun hprocess hsequence => hxy hprocess.symm hsequence.symm

theorem failed_iff_of_run (hE : E.Compiled) (hg : g.Compiled)
    (h : E.run fuel g (.start processId started trigger scope outside moment) = some (r, c)) :
    r.succeeded = false ↔ ∃ x ∈ c.trace.toList, x.status = .failed := by
  obtain ⟨t, entry, -, -, ht, hlaw, -, hfailure⟩ := Run.exists_tour hE hg h
  have htrace := hlaw.trace_of_goes ht
  have hclean := hlaw.faultless_iff
  have hexists : (∃ x ∈ c.trace.toList, x.status = .failed) ↔ ¬ Run.Faultless (t.records E) := by
    simp [Run.Faultless, htrace]
  rw [hexists, hclean]
  cases hresult : t.result <;> simp_all [Run.Result.succeeded]

theorem opened_of_run (hE : E.Compiled) (hg : g.Compiled)
    (h : E.run fuel g (.start processId started trigger scope outside moment) = some (r, c)) :
    ∃ x, x ∈ c.trace.toList := by
  obtain ⟨t, entry, -, -, ht, hlaw, -⟩ := Run.exists_tour hE hg h
  have htrace := hlaw.trace_of_goes ht
  refine ⟨t.opening E, ?_⟩
  rw [htrace, Run.Tour.records_eq]
  exact List.mem_cons_self

theorem filter_asked {xs : List Record} {workflowId : Option String}
    (hxs : ∀ x ∈ xs, x.processId = processId → x.workflowId = started)
    (hasked : ∀ id ∈ workflowId, id = started) :
    (asked workflowId xs).filter (·.processId = processId) =
      xs.filter (·.processId = processId) := by
  cases workflowId with
  | none => rfl
  | some id =>
    obtain rfl := hasked id rfl
    rw [asked, List.filter_filter]
    apply List.filter_congr
    intro x hx
    by_cases hp : x.processId = processId
    · simp [hp, hxs x hx hp]
    · simp [hp]

theorem summary_of_run {rs : List Record} {workflowId : Option String} {ss : List Summary}
    (hss : Summarizes ss (asked workflowId (Replay.taken [] rs))) (hE : E.Compiled)
    (hg : g.Compiled)
    (h : E.run fuel g (.start processId started trigger scope outside moment) = some (r, c))
    (hsize : c.trace.size ≤ wordSize)
    (hrs : (rs.filter (·.processId = processId)).Perm c.trace.toList)
    (hasked : ∀ id ∈ workflowId, id = started) :
    ∃ s, ss.filter (·.processId = processId) = [s] ∧ s.workflowId = started ∧
      s.records = c.trace.size ∧ s.failed = !r.succeeded := by
  have hnamed := Run.named_of_run hE hg h
  have htaken : ((Replay.taken [] rs).filter (·.processId = processId)).Perm c.trace.toList := by
    rw [Replay.filter_taken, List.filter_nil, taken_of_run hE hg h hsize hrs]
    exact hrs
  have hown : ∀ x ∈ Replay.taken [] rs, x.processId = processId → x.workflowId = started := by
    intro x hx hp
    have hmem := htaken.mem_iff.1 (List.mem_filter.2 ⟨hx, by simpa using hp⟩)
    exact (hnamed x hmem).2
  have hperm : ((asked workflowId (Replay.taken [] rs)).filter (·.processId = processId)).Perm
      c.trace.toList := by
    rw [filter_asked hown hasked]
    exact htaken
  have hmem : ∀ x ∈ asked workflowId (Replay.taken [] rs), x.processId = processId →
      x ∈ c.trace.toList := by
    intro x hx hp
    exact hperm.mem_iff.1 (List.mem_filter.2 ⟨hx, by simpa using hp⟩)
  -- all that has the id of the run is of the workflow that was started
  have hrun : ofRun processId started (asked workflowId (Replay.taken [] rs)) =
      (asked workflowId (Replay.taken [] rs)).filter (·.processId = processId) := by
    apply List.filter_congr
    intro x hx
    by_cases hp : x.processId = processId
    · simp [hp, (hnamed x (hmem x hx hp)).2]
    · simp [hp]
  have hkey : ∀ s ∈ ss, s.processId = processId → s.key = (processId, started) := by
    intro s hs hp
    obtain ⟨⟨x, hx, -⟩, -⟩ := (hss.sums s hs).startedAt
    obtain ⟨hx, hprocess, hworkflow⟩ := mem_ofRun.1 hx
    have hstarted := (hnamed x (hmem x hx (hprocess.trans hp))).2
    rw [Summary.key, hp, ← hworkflow, hstarted]
  obtain ⟨x, hx⟩ := opened_of_run hE hg h
  obtain ⟨hprocess, hworkflow⟩ := hnamed x hx
  obtain ⟨s, hs, hsx⟩ := hss.all x (List.mem_of_mem_filter (hperm.mem_iff.2 hx))
  rw [hprocess, hworkflow] at hsx
  have hsums := hss.sums s hs
  obtain ⟨rfl, rfl⟩ := Prod.mk.inj hsx
  refine ⟨s, ?_, rfl, ?_, ?_⟩
  · apply List.perm_singleton.1
    apply (List.perm_ext_iff_of_nodup ((hss.once.of_map _).filter _) (List.nodup_singleton s)).2
    intro s'
    simp only [List.mem_filter, decide_eq_true_eq, List.mem_singleton]
    constructor
    · rintro ⟨hs', hp⟩
      exact List.inj_on_of_nodup_map hss.once hs' hs (hkey s' hs' hp)
    · rintro rfl
      exact ⟨hs, rfl⟩
  · rw [hsums.records, hrun, hperm.length_eq, Array.length_toList]
  · have hfailed := hsums.failed
    rw [hrun] at hfailed
    simp only [hperm.mem_iff, ← failed_iff_of_run hE hg h] at hfailed
    cases hr : r.succeeded <;> simp [hr] at hfailed <;> simp [hfailed]

end Runs

/-- Records are inserted in any order, and those with the id of a run may be all that it made. -/
theorem history_summarizes {rs : List Record} (hrs : ∀ x ∈ rs, x.createdAt.Ordinary)
    (names : Definitions) (workflowId : Option String) :
    ∃ ss, (Replay.insertAll [] rs).history names workflowId = .ok ss ∧
      Summarizes ss (asked workflowId (Replay.taken [] rs)) ∧
      ∀ {E : Run.Engine} {g : Graph} {processId started : String} {trigger : Run.Trigger}
        {scope : Scope} {outside : Outside} {moment : Instant} {fuel : Nat} {r : Run.Result}
        {c : Run.Context}, E.Compiled → g.Compiled →
        E.run fuel g (.start processId started trigger scope outside moment) = some (r, c) →
        c.trace.size ≤ wordSize →
        (rs.filter (·.processId = processId)).Perm c.trace.toList →
        (∀ id ∈ workflowId, id = started) →
        ∃ s, ss.filter (·.processId = processId) = [s] ∧ s.workflowId = started ∧
          s.records = c.trace.size ∧ s.failed = !r.succeeded := by
  have htable : Replay.insertAll [] rs = (Replay.taken [] rs).reverse.map ofRecord := by
    rw [Replay.insertAll_eq, List.append_nil, List.map_reverse]
  have hordinary : ∀ x ∈ asked workflowId (Replay.taken [] rs).reverse, x.createdAt.Ordinary := by
    intro x hx
    have htaken := (asked_sublist workflowId _).subset hx
    exact hrs x ((Replay.taken_sublist [] rs).subset (List.mem_reverse.1 htaken))
  obtain ⟨ss, hhistory, hss⟩ := exists_summaries hordinary names
  have hperm : (asked workflowId (Replay.taken [] rs).reverse).Perm
      (asked workflowId (Replay.taken [] rs)) := by
    cases workflowId with
    | none => exact List.reverse_perm _
    | some id => exact (List.reverse_perm _).filter _
  have hsummarizes := hss.perm hperm
  refine ⟨ss, ?_, hsummarizes, fun hE hg h hsize hown hasked => ?_⟩
  · rw [htable, history_asked, hhistory]
  · exact summary_of_run hsummarizes hE hg h hsize hown hasked

namespace Sample

theorem half_legal : 0 < 24 ∧ 0 < 60 ∧ 0 < 60 ∧ 500000000 < 2 * nanosPerSecond := by
  decide

def later : Record where
  processId := "q"
  workflowId := "parent"
  subprocessId := none
  sequence := 0
  nodeId := "0"
  nodeType := "loop"
  status := .running
  message := "Running loop node"
  data := .null
  vars := .empty
  createdAt := { Run.Sample.moment with time := ⟨0, 0, 0, 500000000, half_legal⟩ }

end Sample

theorem history_summarizes_broken : ∃ r c ss s,
    (Run.Sample.engine Run.Sample.broken).run 10 Run.Sample.graph Run.Sample.start = some (r, c) ∧
    r.succeeded = false ∧
    (Replay.insertAll [] (Sample.later :: c.trace.toList.reverse)).history .empty none = .ok ss ∧
    Summarizes ss (asked none (Replay.taken [] (Sample.later :: c.trace.toList.reverse))) ∧
    ss.filter (·.processId = "p") = [s] ∧ s.failed = true := by
  have hrun : ((Run.Sample.engine Run.Sample.broken).run 10 Run.Sample.graph
      Run.Sample.start).any (fun p => decide (p.1.succeeded = false ∧ p.2.trace.size ≤ wordSize ∧
        ∀ x ∈ p.2.trace.toList, x.createdAt.Ordinary)) = true := by
    decide +kernel
  obtain ⟨⟨r, c⟩, h, hc⟩ := (Option.any_eq_true ..).1 hrun
  obtain ⟨hfailed, hsize, hordinary⟩ := of_decide_eq_true hc
  have hE : (Run.Sample.engine Run.Sample.broken).Compiled :=
    Run.Sample.engine_compiled (Graph.ofWorkflow_compiled _ _)
  have hrs : ∀ x ∈ Sample.later :: c.trace.toList.reverse, x.createdAt.Ordinary := by
    rw [List.forall_mem_cons]
    constructor
    · decide
    · intro x hx
      exact hordinary x (List.mem_reverse.1 hx)
  have hown : ((Sample.later :: c.trace.toList.reverse).filter (·.processId = "p")).Perm
      c.trace.toList := by
    have hnamed : c.trace.toList.reverse.filter (·.processId = "p") = c.trace.toList.reverse := by
      apply List.filter_eq_self.2
      intro x hx
      simpa using (Run.named_of_run hE Run.Sample.graph_compiled h x (List.mem_reverse.1 hx)).1
    rw [List.filter_cons_of_neg (by decide), hnamed]
    exact List.reverse_perm _
  obtain ⟨ss, hss, hsummarizes, hruns⟩ := history_summarizes hrs .empty none
  obtain ⟨s, hs, -, -, hflag⟩ := hruns hE Run.Sample.graph_compiled h hsize hown (by simp)
  exact ⟨r, c, ss, s, h, hfailed, hss, hsummarizes, hs, by rw [hflag, hfailed]; rfl⟩

end FlowGraph.Store
