import FlowGraph.Proofs.Json.Written
import FlowGraph.Proofs.Store.Column
import FlowGraph.Proofs.Workflow.RoundTrip
import FlowGraph.Store.Definitions

namespace FlowGraph

open Json (fits_bool fits_null fits_num fits_str fits_arr fits_object)

theorem fits_nat {room n : Nat} (h : n < 2 ^ 64) : (Json.nat n).Fits room :=
  fits_num ⟨by omega, by omega⟩

theorem fits_int {room : Nat} {i : Int} (h : -2 ^ 63 ≤ i ∧ i ≤ 2 ^ 63 - 1) : (Json.int i).Fits room :=
  fits_num ⟨h.1, by omega⟩

theorem fits_map {α : Type} {room : Nat} {f : α → Json} {as : List α}
    (h : ∀ a ∈ as, (f a).Fits room) : (Json.arr (as.map f)).Fits (room + 1) :=
  fits_arr (List.forall_mem_map.2 h)

theorem KeyValue.fits_toJson (kv : KeyValue) (room : Nat) : kv.toJson.Fits (room + 1) :=
  fits_object (by simp [fits_str])

theorem TypedList.fits_toJson {l : TypedList} (h : ∀ i ∈ l.ints, -2 ^ 63 ≤ i ∧ i ≤ 2 ^ 63 - 1)
    (room : Nat) : l.toJson.Fits (room + 3) := by
  have hstrings : (Json.strings l.strings).Fits (room + 2) := fits_map fun s _ => fits_str _ s
  have hints : (Json.arr (l.ints.map Json.int)).Fits (room + 2) := fits_map fun i hi => fits_int (h i hi)
  have hbools : (Json.arr (l.bools.map Json.bool)).Fits (room + 2) := fits_map fun b _ => fits_bool _ b
  have hkvs : (Json.arr (l.keyValues.map KeyValue.toJson)).Fits (room + 2) :=
    fits_map fun kv _ => kv.fits_toJson room
  exact fits_object (by simp [fits_str, hstrings, hints, hbools, hkvs])

theorem NodeKind.fits_data {k : NodeKind} {data : Json} {room : Nat} (h : k.From data)
    (hdata : data.Fits (room + 4)) : k.data.Fits (room + 4) := by
  cases k with
  | plain | webhook | events => exact .of_members nofun nofun
  | unknown type v =>
    obtain ⟨-, rfl⟩ := h
    exact hdata
  | interval t =>
    have hlength : (Json.nat t.length).Fits (room + 3) := fits_nat h
    have hdays : (Json.arr (t.weekdays.map Json.bool)).Fits (room + 3) :=
      fits_map fun b _ => fits_bool _ b
    exact fits_object (by simp [fits_str, hlength, hdays])
  | setVariable name v =>
    have hv : v.Fits (room + 3) := by
      rcases h with rfl | ⟨x, hx, rfl⟩
      · exact fits_null _
      · exact (hdata.member hx).settled
    exact fits_object (by simp [fits_str, hv])
  | list into l =>
    have hl : l.toJson.Fits (room + 3) := l.fits_toJson h room
    exact fits_object (by simp [fits_str, hl])
  | loop n =>
    have hn : n < 2 ^ 32 := h
    have hfits : (Json.nat n).Fits (room + 3) := fits_nat (by omega)
    exact fits_object (by simp [hfits])
  | whileHolds expression n =>
    have hn : n < 2 ^ 32 := h
    have hfits : (Json.nat n).Fits (room + 3) := fits_nat (by omega)
    exact fits_object (by simp [fits_str, hfits])
  | api c =>
    have hheaders : (Json.arr (c.headers.map KeyValue.toJson)).Fits (room + 3) :=
      fits_map fun kv _ => kv.fits_toJson _
    exact fits_object (by simp [fits_str, hheaders])
  | _ => exact fits_object (by simp [fits_str])

theorem edges_fits (es : List Edge) (room : Nat) : (Json.arr (es.map Edge.toJson)).Fits (room + 2) :=
  fits_map fun _ _ => fits_object (by simp [fits_str])

theorem Workflow.fits_toJson {w : Workflow} {room : Nat} (h : w.From (Json.Fits (room + 4))) :
    w.toJson.Fits (room + 7) := by
  have hnodes : (Json.arr (w.nodes.map Node.toJson)).Fits (room + 6) := by
    apply fits_map
    intro n hn
    obtain ⟨data, -, hdata, hfrom⟩ := h n hn
    have hfits : n.data.Fits (room + 4) := NodeKind.fits_data hfrom hdata
    exact fits_object (by simp [fits_str, hfits])
  have hedges : (Json.arr (w.edges.map Edge.toJson)).Fits (room + 6) := edges_fits w.edges (room + 4)
  exact fits_object (by simp [fits_str, hnodes, hedges])

/-- The numbers in the data of its nodes that are not whole are read as they are written. -/
def Workflow.FloatsReadBack (w : Workflow) : Prop :=
  ∀ n ∈ w.nodes, ∀ x, Number.float x ∈ n.data.numbers → (Number.float x).ReadsBack

theorem numbers_object {fields : List (String × Json)} {n : Number}
    (h : n ∈ (Json.object fields).numbers) : ∃ v ∈ fields.map (·.2), n ∈ v.numbers := by
  rcases Json.mem_numbers.1 h with h | ⟨v, hv, hn⟩
  · cases h
  · exact ⟨v, Json.mem_members_object hv, hn⟩

theorem numbers_map {α : Type} {f : α → Json} {as : List α} {n : Number}
    (h : n ∈ (Json.arr (as.map f)).numbers) : ∃ a ∈ as, n ∈ (f a).numbers := by
  rcases Json.mem_numbers.1 h with h | ⟨v, hv, hn⟩
  · cases h
  · obtain ⟨a, ha, rfl⟩ := List.mem_map.1 hv
    exact ⟨a, ha, hn⟩

theorem Edge.numbers_toJson (e : Edge) {n : Number} : n ∉ e.toJson.numbers := by
  intro h
  obtain ⟨v, hv, hn⟩ := numbers_object h
  simp only [List.map_cons, List.map_nil, List.mem_cons, List.not_mem_nil, or_false] at hv
  rcases hv with rfl | rfl | rfl | rfl <;> cases hn

theorem Workflow.numbers_toJson {w : Workflow} {m : Number} (h : m ∈ w.toJson.numbers) :
    ∃ n ∈ w.nodes, m ∈ n.data.numbers := by
  obtain ⟨v, hv, hm⟩ := numbers_object h
  simp only [List.map_cons, List.map_nil, List.mem_cons, List.not_mem_nil, or_false] at hv
  rcases hv with rfl | rfl | rfl | rfl | rfl
  · cases hm
  · cases hm
  · cases hm
  · obtain ⟨n, hn, hm⟩ := numbers_map hm
    obtain ⟨v, hv, hm⟩ := numbers_object hm
    simp only [List.map_cons, List.map_nil, List.mem_cons, List.not_mem_nil, or_false] at hv
    rcases hv with rfl | rfl | rfl | rfl
    · cases hm
    · cases hm
    · cases hm
    · exact ⟨n, hn, hm⟩
  · obtain ⟨e, -, hm⟩ := numbers_map hm
    exact absurd hm e.numbers_toJson

theorem Workflow.readsBack_toJson {w : Workflow} {room : Nat} (h : w.toJson.Fits room)
    (hw : w.FloatsReadBack) : w.toJson.ReadsBack := by
  intro m hm
  cases m with
  | int i => exact Number.readsBack_int (h.numbers _ hm)
  | float x =>
    obtain ⟨n, hn, hx⟩ := numbers_toJson hm
    exact hw n hn x hx

namespace Store

theorem textKept_object (fields : List (String × Json)) :
    textKept (Json.object fields).compact = some (Json.object fields).compact := by
  have hfields : ∀ n, Json.object fields ≠ .num n := nofun
  rw [textKept, isNumeral_compact hfields]
  rfl

theorem workflowOf_compact {w : Workflow} {room : Nat} (h : w.From (Json.Fits (room + 4)))
    (hroom : room + 7 ≤ Json.maxNesting) (hw : w.FloatsReadBack) :
    workflowOf w.toJson.compact = .ok w := by
  have hfits := Workflow.fits_toJson h
  have hread : Json.asWritten? w.toJson.compact = some w.toJson :=
    Json.asWritten?_compact (Workflow.readsBack_toJson hfits hw) (Nat.le_trans hfits.nesting hroom)
  rw [workflowOf, hread, Option.map_some, Workflow.ofJson_toJson h]

end Store

/-- The store gives the workflow back as it was put there. -/
def Workflow.Kept (w : Workflow) : Prop :=
  ∀ createdAt updatedAt, Store.Definition.workflow
    ⟨w.name, Store.textKept w.toJson.compact, createdAt, updatedAt⟩ = .ok w

theorem Workflow.kept_of_from {w : Workflow} {room : Nat} (h : w.From (Json.Fits (room + 4)))
    (hroom : room + 7 ≤ Json.maxNesting) (hw : w.FloatsReadBack) : w.Kept := by
  intro createdAt updatedAt
  have htext : Store.textKept w.toJson.compact = some w.toJson.compact := Store.textKept_object _
  rw [Store.Definition.workflow, htext]
  exact Store.workflowOf_compact h hroom hw

theorem edges_readsBack (es : List Edge) : (Json.arr (es.map Edge.toJson)).ReadsBack := by
  intro n hn
  obtain ⟨e, -, hn⟩ := numbers_map hn
  exact absurd hn e.numbers_toJson

theorem str_readsBack (s : String) : (Json.str s).ReadsBack := nofun

theorem Workflow.toJson_eq (w : Workflow) : w.toJson = .obj (
    [("description", .str w.description), ("edges", .arr (w.edges.map Edge.toJson)),
      ("id", .str w.id)] ++ [("name", .str w.name), ("nodes", .arr (w.nodes.map Node.toJson))]) := by
  have hdescription : "description" < "edges" ∧ "description" < "id" ∧ "description" < "nodes" := by
    decide +kernel
  have hid : "edges" < "id" ∧ "id" < "name" ∧ "id" < "nodes" := by decide +kernel
  have hname : "name" < "nodes" := by decide +kernel
  simp only [toJson, Json.object, Entries.ofList, List.foldl_cons, List.foldl_nil]
  rw [Entries.put, Entries.put_cons_of_gt hid.2.1, Entries.put,
    Entries.put_cons_of_lt hdescription.2.1, Entries.put_cons_of_gt hdescription.2.2,
    Entries.put_cons_of_gt hid.2.2, Entries.put_cons_of_gt hname, Entries.put,
    Entries.put_cons_of_gt hdescription.1, Entries.put_cons_of_lt hid.1]
  rfl

theorem Workflow.id_of_ofJson {entries : List (String × Json)} {w : Workflow} {id : String}
    (h : Workflow.ofJson (.obj entries) = .ok w) (hid : ("id", .str id) ∈ entries) : w.id = id := by
  obtain ⟨s, hs, h⟩ := bind_eq_ok.1 h
  have hlookup : s.lookup "id" = some (.str id) := Wire.lookup_of_mem hs hid rfl
  obtain ⟨read, hread, h⟩ := bind_eq_ok.1 h
  rw [Wire.Slots.need, hlookup] at hread
  cases hread
  obtain ⟨name, -, h⟩ := bind_eq_ok.1 h
  obtain ⟨description, -, h⟩ := bind_eq_ok.1 h
  obtain ⟨nodes, -, h⟩ := bind_eq_ok.1 h
  obtain ⟨edges, -, h⟩ := bind_eq_ok.1 h
  cases h
  rfl

theorem Store.id_of_workflowOf {w w' : Workflow} (h : workflowOf w.toJson.compact = .ok w') :
    w'.id = w.id := by
  have hroom : 2 < Json.maxNesting := by decide
  have hstr : ∀ s, (Json.str s).nesting < Json.maxNesting := fun s =>
    Nat.lt_of_le_of_lt (fits_str 2 s).nesting hroom
  have hedges := Nat.lt_of_le_of_lt (edges_fits w.edges 0).nesting hroom
  rw [workflowOf] at h
  cases hread : Json.asWritten? w.toJson.compact with
  | none =>
    rw [hread] at h
    cases h
  | some v =>
    have hv : ∃ xs, v = .obj ([("description", .str w.description),
        ("edges", .arr (w.edges.map Edge.toJson)), ("id", .str w.id)] ++ xs) := by
      rw [Workflow.toJson_eq] at hread
      apply Json.asWritten?_compact_append (List.cons_ne_nil _ _) (List.cons_ne_nil _ _) ?_ ?_ hread
      · simp [str_readsBack, edges_readsBack]
      · simp [hstr, hedges]
    obtain ⟨xs, rfl⟩ := hv
    rw [hread, Option.map_some] at h
    split at h
    · next heq =>
      cases h
      exact Workflow.id_of_ofJson (Option.some.inj heq) (by simp)
    · cases h

end FlowGraph
