import FlowGraph.Proofs.Json.Room
import FlowGraph.Proofs.Run.Course
import FlowGraph.Proofs.Run.Settled
import FlowGraph.Proofs.Run.Stretch
import FlowGraph.Proofs.Sorting
import FlowGraph.Proofs.Store.Column
import FlowGraph.Proofs.Time.Kept
import FlowGraph.Proofs.Wire.Slots
import FlowGraph.Store.Replay
/-!
What the table of records gives back of a run. The rows of the run come in the order of its records,
and a row gives its record back unless the data are a bare number, whose text the column loses, or
too deep for the reader. One record that cannot be read takes all of the run with it.
-/

namespace FlowGraph

open Run (Record textsJson textMap)

theorem mem_members_textsJson {m : Keyed String} {x : Json} (h : x ∈ (textsJson m).members) :
    ∃ s, x = .str s := by
  obtain ⟨e, he, rfl⟩ := List.mem_map.1 h
  obtain ⟨e', -, rfl⟩ := List.mem_map.1 he
  exact ⟨e'.2, rfl⟩

theorem readsBack_textsJson (m : Keyed String) : (textsJson m).ReadsBack := by
  intro n hn
  rcases Json.mem_numbers.1 hn with hnum | ⟨x, hx, hn⟩
  · cases hnum
  · obtain ⟨s, rfl⟩ := mem_members_textsJson hx
    cases hn

theorem nesting_textsJson (m : Keyed String) : (textsJson m).nesting ≤ Json.maxNesting := by
  have hmembers : ∀ x ∈ (textsJson m).members, x.nesting ≤ 0 := by
    intro x hx
    obtain ⟨s, rfl⟩ := mem_members_textsJson hx
    exact Nat.le_refl 0
  exact Nat.le_trans (Json.nesting_le_succ.2 hmembers) (by decide)

theorem settledFields_map (m : Keyed String) :
    Json.settledFields (m.map Json.str).entries = (m.map Json.str).entries := by
  rw [Json.settledFields_eq, Keyed.map, List.map_map]
  rfl

theorem textMap_textsJson (m : Keyed String) : textMap (textsJson m) = .ok m := by
  have hmap : Wire.map (textsJson m) = .ok (m.map Json.str).entries := by
    rw [textsJson, Wire.map, settledFields_map, Entries.ofList_of_ascending (m.map Json.str).ascending]
  have hentries : (m.map Json.str).entries.mapM
      (fun e => do return (e.1, ← Wire.text e.2) : String × Json → Wire.Decoded (String × String)) =
      .ok m.entries := by
    apply mapM_eq_ok.2
    apply List.forall₂_map_left_iff.2
    exact List.forall₂_same.2 fun e _ => rfl
  rw [textMap, hmap]
  apply bind_eq_ok.2
  refine ⟨_, rfl, bind_eq_ok.2 ⟨_, hentries, ?_⟩⟩
  rw [Keyed.ofList_entries]
  rfl

namespace Store

theorem textsOf_compact (m : Keyed String) : textsOf (textsJson m).compact = .ok m := by
  have hread := Json.asWritten?_compact (readsBack_textsJson m) (nesting_textsJson m)
  rw [textsOf, hread, Option.map_some, textMap_textsJson]

theorem textKept_textsJson (m : Keyed String) :
    textKept (textsJson m).compact = some (textsJson m).compact :=
  (textKept_compact (readsBack_textsJson m)).2 ⟨rfl, nofun⟩

theorem textOf_eq_ok {o : Option String} {s : String} : textOf o = .ok s ↔ o = some s := by
  cases o <;> simp [textOf]

theorem jsonOf_eq_ok {s : String} {v : Json} : jsonOf s = .ok v ↔ Json.parse s = some v := by
  rw [jsonOf]
  cases Json.parse s <;> simp

structure Sound (x : Record) : Prop where
  sequence : x.sequence < wordSize
  createdAt : x.createdAt.Ordinary
  settled : x.data.Settled
  numbers : x.data.ReadsBack

/-- The table gives the data back. -/
structure Legible (x : Record) : Prop where
  nesting : x.data.nesting ≤ Json.maxNesting
  notNumber : ∀ n, x.data ≠ .num n

/-- What is taken for granted about the records of a run: there are not too many, they are from
ordinary years, and the numbers in them are read as they are written. -/
structure Plain (rs : List Record) : Prop where
  length : rs.length ≤ 2 ^ 63
  moments : ∀ x ∈ rs, x.createdAt.Ordinary
  numbers : ∀ x ∈ rs, x.data.ReadsBack

instance (rs : List Record) : Decidable (Plain rs) :=
  decidable_of_iff (rs.length ≤ 2 ^ 63 ∧ (∀ x ∈ rs, x.createdAt.Ordinary) ∧ ∀ x ∈ rs, x.data.ReadsBack)
    ⟨fun ⟨h, h', h''⟩ => ⟨h, h', h''⟩, fun ⟨h, h', h''⟩ => ⟨h, h', h''⟩⟩

def decidableNotNumber : (v : Json) → Decidable (∀ n, v ≠ .num n)
  | .num n => .isFalse fun h => h n rfl
  | .null | .bool _ | .str _ | .arr _ | .obj _ => .isTrue nofun

instance (x : Record) : Decidable (Legible x) :=
  have := decidableNotNumber x.data
  decidable_of_iff (x.data.nesting ≤ Json.maxNesting ∧ ∀ n, x.data ≠ .num n)
    ⟨fun h => ⟨h.1, h.2⟩, fun h => ⟨h.1, h.2⟩⟩

namespace ReplayRow

theorem data_ofRecord {x : Record} (h : x.data.ReadsBack) {s : String} :
    textOf (ofRecord x).data = .ok s ↔ s = x.data.compact ∧ ∀ n, x.data ≠ .num n := by
  simp only [ofRecord]
  exact textOf_eq_ok.trans (textKept_compact h)

theorem vars_ofRecord (x : Record) : textOf (ofRecord x).vars = .ok (textsJson x.vars).compact := by
  simp only [ofRecord]
  exact textOf_eq_ok.2 (textKept_textsJson x.vars)

theorem jsonOf_compact {v w : Json} (h : v.ReadsBack) (hv : v.Settled) :
    jsonOf v.compact = .ok w ↔ w = v ∧ v.nesting ≤ Json.maxNesting :=
  jsonOf_eq_ok.trans (Json.parse_compact_eq_some_iff h hv)

theorem record_ofRecord {x y : Record} (h : Sound x) :
    (ofRecord x).record = .ok y ↔ y = x ∧ Legible x := by
  have hstatus : statusOf (ofRecord x).status = .ok x.status := by
    rw [ofRecord, statusOf, Run.Status.ofName?_name]
  have hinstant : instantOf (ofRecord x).createdAt = .ok x.createdAt := by
    rw [ofRecord, instantOf, Instant.read?_kept h.createdAt]
  have hback : ({ x with sequence := unsigned (ofRecord x).sequence } : Record) = x := by
    rw [ofRecord, unsigned_signed h.sequence]
  rw [record]
  constructor
  · intro hy
    obtain ⟨s, hs, hy⟩ := bind_eq_ok.1 hy
    obtain ⟨rfl, hnumber⟩ := (data_ofRecord h.numbers).1 hs
    obtain ⟨t, ht, hy⟩ := bind_eq_ok.1 hy
    cases (vars_ofRecord x).symm.trans ht
    obtain ⟨status, hst, hy⟩ := bind_eq_ok.1 hy
    cases hstatus.symm.trans hst
    obtain ⟨v, hv, hy⟩ := bind_eq_ok.1 hy
    obtain ⟨rfl, hdeep⟩ := (jsonOf_compact h.numbers h.settled).1 hv
    obtain ⟨m, hm, hy⟩ := bind_eq_ok.1 hy
    cases (textsOf_compact x.vars).symm.trans hm
    obtain ⟨i, hi, hy⟩ := bind_eq_ok.1 hy
    cases hinstant.symm.trans hi
    cases hy
    exact ⟨hback, hdeep, hnumber⟩
  · rintro ⟨rfl, hx⟩
    have hdata := (data_ofRecord h.numbers).2 ⟨rfl, hx.notNumber⟩
    have hjson := (jsonOf_compact h.numbers h.settled).2 ⟨rfl, hx.nesting⟩
    refine bind_eq_ok.2 ⟨_, hdata, bind_eq_ok.2 ⟨_, vars_ofRecord y, bind_eq_ok.2 ⟨_, hstatus, ?_⟩⟩⟩
    refine bind_eq_ok.2 ⟨_, hjson, bind_eq_ok.2 ⟨_, textsOf_compact y.vars, ?_⟩⟩
    exact bind_eq_ok.2 ⟨_, hinstant, congrArg Except.ok hback⟩

end ReplayRow

theorem signed_eq {n : Nat} (h : n < 2 ^ 63) : signed n = n := by
  have hsize : wordSize = 2 ^ 64 := by decide
  rw [signed, hsize]
  apply Int.bmod_eq_of_le_mul_two <;> omega

theorem signed_inj {m n : Nat} (hm : m < wordSize) (hn : n < wordSize) (h : signed m = signed n) :
    m = n := by
  rw [← unsigned_signed hm, h, unsigned_signed hn]

namespace Replay

open ReplayRow (ofRecord sameKey)

variable {t : Replay} {rs : List Record} {processId : String}

theorem sameKey_eq_false {a b : ReplayRow} :
    sameKey a b = false ↔ (a.processId = b.processId → a.sequence ≠ b.sequence) := by
  simp [sameKey]

theorem sameKey_ofRecord {x y : Record} (hx : x.sequence < wordSize) (hy : y.sequence < wordSize) :
    sameKey (ofRecord x) (ofRecord y) = true ↔
      x.processId = y.processId ∧ x.sequence = y.sequence := by
  have hsigned : signed x.sequence = signed y.sequence ↔ x.sequence = y.sequence :=
    ⟨signed_inj hx hy, congrArg signed⟩
  rw [sameKey, Bool.and_eq_true, decide_eq_true_iff, decide_eq_true_iff]
  simp only [ofRecord, hsigned]

theorem insertAll_of_new (ht : ∀ x ∈ rs, ∀ row ∈ t, sameKey (ofRecord x) row = false)
    (hrs : rs.Pairwise fun x y => sameKey (ofRecord y) (ofRecord x) = false) :
    t.insertAll rs = (rs.map ofRecord).reverse ++ t := by
  induction rs generalizing t with
  | nil => rfl
  | cons x rs ih =>
    obtain ⟨hfirst, hrs⟩ := List.pairwise_cons.1 hrs
    obtain ⟨hx, ht⟩ := List.forall_mem_cons.1 ht
    have hnone : t.any (sameKey (ofRecord x)) = false := by
      rw [List.any_eq_false]
      intro row hrow
      rw [hx row hrow]
      exact Bool.false_ne_true
    have hinsert : t.insert x = .ok (ofRecord x :: t) := by
      rw [insert, add, hnone]
      rfl
    have hrest : insertAll (ofRecord x :: t) rs = (rs.map ofRecord).reverse ++ ofRecord x :: t := by
      apply ih _ hrs
      intro y hy
      exact List.forall_mem_cons.2 ⟨hfirst y hy, ht y hy⟩
    rw [insertAll, List.foldl_cons, hinsert, List.map_cons, List.reverse_cons, List.append_assoc]
    exact hrest

theorem mapM_record {ys : List Record} (h : ∀ x ∈ rs, Sound x) :
    (rs.map ofRecord).mapM ReplayRow.record = .ok ys ↔ ys = rs ∧ ∀ x ∈ rs, Legible x := by
  rw [mapM_eq_ok, List.forall₂_map_left_iff]
  induction rs generalizing ys with
  | nil => simp
  | cons x rs ih =>
    obtain ⟨hx, hrs⟩ := List.forall_mem_cons.1 h
    rw [List.forall₂_cons_left_iff]
    constructor
    · rintro ⟨y, ys, hy, hys, rfl⟩
      obtain ⟨rfl, hlegible⟩ := (ReplayRow.record_ofRecord hx).1 hy
      obtain ⟨rfl, hrest⟩ := (ih hrs).1 hys
      exact ⟨rfl, List.forall_mem_cons.2 ⟨hlegible, hrest⟩⟩
    · rintro ⟨rfl, hlegible⟩
      obtain ⟨hfirst, hrest⟩ := List.forall_mem_cons.1 hlegible
      exact ⟨x, rs, (ReplayRow.record_ofRecord hx).2 ⟨rfl, hfirst⟩, (ih hrs).2 ⟨rfl, hrest⟩, rfl⟩

structure Ordered (processId : String) (rs : List Record) : Prop where
  processId : ∀ x ∈ rs, x.processId = processId
  ascending : rs.Pairwise fun x y => x.sequence < y.sequence
  bounded : ∀ x ∈ rs, x.sequence < 2 ^ 63

theorem Ordered.rows (h : Ordered processId rs) :
    (rs.map ofRecord).Pairwise fun a b => a.sequence < b.sequence := by
  apply List.pairwise_map.2
  apply h.ascending.imp_of_mem
  intro x y hx hy hxy
  rw [ofRecord, ofRecord, signed_eq (h.bounded x hx), signed_eq (h.bounded y hy)]
  exact Int.ofNat_lt.2 hxy

theorem records_eq (hrs : Ordered processId rs)
    (hrows : (t.filter (·.processId = processId)).Perm (rs.map ofRecord)) :
    t.records processId = (rs.map ofRecord).mapM ReplayRow.record := by
  -- the order in which the rows were added does not matter
  rw [records, mergeSort_of_perm hrows hrs.rows]

theorem records_insertAll (hrs : Ordered processId rs) (ht : ∀ row ∈ t, row.processId ≠ processId) :
    (t.insertAll rs).records processId = (rs.map ofRecord).mapM ReplayRow.record := by
  have hnew : ∀ x ∈ rs, ∀ row ∈ t, sameKey (ofRecord x) row = false := by
    intro x hx row hrow
    apply sameKey_eq_false.2
    intro hsame
    exact absurd (hsame.symm.trans (hrs.processId x hx)) (ht row hrow)
  have hkeys : rs.Pairwise fun x y => sameKey (ofRecord y) (ofRecord x) = false := by
    apply (List.pairwise_map.1 hrs.rows).imp
    intro x y hxy
    apply sameKey_eq_false.2
    intro hsame
    omega
  have hown : (rs.map ofRecord).reverse.filter (·.processId = processId) = (rs.map ofRecord).reverse := by
    apply List.filter_eq_self.2
    intro row hrow
    obtain ⟨x, hx, rfl⟩ := List.mem_map.1 (List.mem_reverse.1 hrow)
    exact decide_eq_true (hrs.processId x hx)
  have hothers : t.filter (·.processId = processId) = [] := by
    apply List.filter_eq_nil_iff.2
    intro row hrow
    rw [decide_eq_true_eq]
    exact ht row hrow
  apply records_eq hrs
  rw [insertAll_of_new hnew hkeys, List.filter_append, hown, hothers, List.append_nil]
  exact List.reverse_perm _

end Replay

end Store

namespace Run

open Store

variable {E : Engine} {g : Graph} {processId workflowId : String} {trigger : Trigger} {scope : Scope}
  {outside : Outside} {moment : Instant} {fuel : Nat} {r : Result} {c : Context}

theorem named_of_run (hE : E.Compiled) (hg : g.Compiled)
    (h : E.run fuel g (.start processId workflowId trigger scope outside moment) = some (r, c)) :
    ∀ x ∈ c.trace.toList, x.processId = processId ∧ x.workflowId = workflowId := by
  obtain ⟨t, entry, -, -, ht, hlaw, -⟩ := exists_tour hE hg h
  have hadds := hlaw.stepwise (stepwise_adds E)
  rw [ht.start] at hadds
  have htrace := hlaw.trace_of_goes ht
  rw [htrace]
  exact hadds.named

theorem numbered_of_run (hE : E.Compiled) (hg : g.Compiled)
    (h : E.run fuel g (.start processId workflowId trigger scope outside moment) = some (r, c)) :
    c.trace.toList.map (·.sequence) = List.range c.trace.size := by
  obtain ⟨t, entry, -, -, ht, hlaw, -⟩ := exists_tour hE hg h
  have hadds := hlaw.stepwise (stepwise_adds E)
  rw [ht.start] at hadds
  have htrace := hlaw.trace_of_goes ht
  rw [htrace, hadds.numbered, ← htrace, Array.length_toList, List.range_eq_range']
  rfl

theorem ordered_of_run (hE : E.Compiled) (hg : g.Compiled)
    (h : E.run fuel g (.start processId workflowId trigger scope outside moment) = some (r, c))
    (hsize : c.trace.toList.length ≤ 2 ^ 63) : Replay.Ordered processId c.trace.toList := by
  have hnumbered := numbered_of_run hE hg h
  constructor
  · exact fun x hx => (named_of_run hE hg h x hx).1
  · apply List.pairwise_map.1
    rw [hnumbered]
    exact List.pairwise_lt_range
  · intro x hx
    have hmem : x.sequence ∈ List.range c.trace.size := hnumbered ▸ List.mem_map_of_mem hx
    exact Nat.lt_of_lt_of_le (List.mem_range.1 hmem) hsize

theorem sound_of_run (hE : E.Compiled) (hg : g.Compiled) (hlibrary : E.Settled)
    (hworkflow : g.workflow.Settled) (hscope : scope.Settled)
    (h : E.run fuel g (.start processId workflowId trigger scope outside moment) = some (r, c))
    (hc : Plain c.trace.toList) : ∀ x ∈ c.trace.toList, Sound x := by
  have hordered := ordered_of_run hE hg h hc.length
  have hstart : (Context.start processId workflowId trigger scope outside moment).Settled := by
    refine ⟨hscope, fun x hx => ?_⟩
    cases hx
  have hsettled := (run_settled hlibrary hworkflow hstart h).trace
  intro x hx
  have hbound : x.sequence < wordSize := Nat.lt_trans (hordered.bounded x hx) (by decide)
  exact ⟨hbound, hc.moments x hx, hsettled x hx, hc.numbers x hx⟩

/-- A run is read from the table as it was recorded, if each of its records is legible; if one is
not, nothing is read. -/
theorem run_read_iff (hE : E.Compiled) (hg : g.Compiled) (hlibrary : E.Settled)
    (hworkflow : g.workflow.Settled) (hscope : scope.Settled)
    (h : E.run fuel g (.start processId workflowId trigger scope outside moment) = some (r, c))
    (hc : Plain c.trace.toList) {t : Replay} (ht : ∀ row ∈ t, row.processId ≠ processId)
    {rs : List Record} : (t.insertAll c.trace.toList).records processId = .ok rs ↔
      rs = c.trace.toList ∧ ∀ x ∈ c.trace.toList, Legible x := by
  have hsound := sound_of_run hE hg hlibrary hworkflow hscope h hc
  rw [Replay.records_insertAll (ordered_of_run hE hg h hc.length) ht, Replay.mapM_record hsound]

namespace Sample

theorem sound_compiled : (engine sound).Compiled := engine_compiled (Graph.ofWorkflow_compiled _ _)

theorem sound_settled : (engine sound).Settled := by
  intro id g hg
  simp only [engine] at hg
  split at hg
  · cases hg
    rw [sound, Graph.ofWorkflow_workflow]
    decide
  · cases hg

end Sample

theorem run_read_sound : ∃ r c,
    (Sample.engine Sample.sound).run 10 Sample.graph Sample.start = some (r, c) ∧
    (Replay.insertAll [] c.trace.toList).records "p" = .ok c.trace.toList := by
  have hrun : ((Sample.engine Sample.sound).run 10 Sample.graph Sample.start).any (fun p =>
      decide (Plain p.2.trace.toList ∧ ∀ x ∈ p.2.trace.toList, Legible x)) = true := by
    decide +kernel
  obtain ⟨⟨r, c⟩, h, hc⟩ := (Option.any_eq_true ..).1 hrun
  obtain ⟨hplain, hlegible⟩ := of_decide_eq_true hc
  have hworkflow : Sample.graph.workflow.Settled := by
    rw [Sample.graph, Graph.ofWorkflow_workflow]
    decide
  refine ⟨r, c, h, (run_read_iff Sample.sound_compiled Sample.graph_compiled Sample.sound_settled
    hworkflow Scope.settled_initial h hplain (List.forall_mem_nil _)).2 ?_⟩
  exact ⟨rfl, hlegible⟩

namespace Sample

def nest : Nat → Json
  | 0 => .arr []
  | n + 1 => .arr [nest n]

def walker : Workflow where
  id := "walker"
  name := "Walker"
  description := ""
  nodes := [⟨"0", "", .forEach "seeds"⟩]
  edges := []

def walk : Graph := .ofWorkflow walker (by decide)

def seeded : Scope := Scope.initial.bind "seeds" (.arr [nest 126])

end Sample

/-- The item of the loop is as deep as a value can be that is read, so the record of the item is too
deep. -/
theorem run_unread_deep : ∃ r c,
    (Sample.engine Sample.sound).run 10 Sample.walk (.start "p" "walker" .manual Sample.seeded
      Sample.start.outside Sample.moment) = some (r, c) ∧
    Plain c.trace.toList ∧ ∀ rs, (Replay.insertAll [] c.trace.toList).records "p" ≠ .ok rs := by
  have hrun : ((Sample.engine Sample.sound).run 10 Sample.walk (.start "p" "walker" .manual
      Sample.seeded Sample.start.outside Sample.moment)).any (fun p =>
      decide (Plain p.2.trace.toList ∧ ¬ ∀ x ∈ p.2.trace.toList, Legible x)) = true := by
    decide +kernel
  obtain ⟨⟨r, c⟩, h, hc⟩ := (Option.any_eq_true ..).1 hrun
  obtain ⟨hplain, hillegible⟩ := of_decide_eq_true hc
  have hg : Sample.walk.Compiled := Graph.ofWorkflow_compiled _ _
  have hworkflow : Sample.walk.workflow.Settled := by
    rw [Sample.walk, Graph.ofWorkflow_workflow]
    decide
  have hseeds : (Json.arr [Sample.nest 126]).Settled := by
    decide +kernel
  have hsound := sound_of_run Sample.sound_compiled hg Sample.sound_settled hworkflow
    (Scope.settled_initial.bind hseeds "seeds") h hplain
  refine ⟨r, c, h, hplain, fun rs hrs => ?_⟩
  rw [Replay.records_insertAll (ordered_of_run Sample.sound_compiled hg h hplain.length)
    (List.forall_mem_nil _)] at hrs
  exact hillegible ((Replay.mapM_record hsound).1 hrs).2

end Run

end FlowGraph
