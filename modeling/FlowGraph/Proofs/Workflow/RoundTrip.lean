import FlowGraph.Proofs.Workflow.Kept

namespace FlowGraph

open Wire Wire.Field

namespace Wire

variable {α : Type}

@[simp] theorem text_str (s : String) : Wire.text (.str s) = .ok s := rfl

@[simp] theorem list_text (ss : List String) : list Wire.text (.strings ss) = .ok ss :=
  list_arr fun _ _ => rfl

@[simp] theorem list_boolean (bs : List Bool) : list boolean (.arr (bs.map .bool)) = .ok bs :=
  list_arr fun _ _ => rfl

theorem integer_int {name : String} {lo hi i : Int} (h : lo ≤ i ∧ i ≤ hi) :
    integer name lo hi (.int i) = .ok i := by
  simp [integer, Json.int, h]

theorem natural_nat {name : String} {bits n : Nat} (h : n < 2 ^ bits) :
    natural name bits (.nat n) = .ok n := by
  have hle : (0 : Int) ≤ n ∧ (n : Int) ≤ Nat.pow 2 bits - 1 := by
    change (0 : Int) ≤ n ∧ (n : Int) ≤ ((2 ^ bits : Nat) : Int) - 1
    omega
  rw [natural, Json.nat, integer_int hle]
  rfl

theorem list_signed64 {is : List Int} (h : ∀ i ∈ is, -2 ^ 63 ≤ i ∧ i ≤ 2 ^ 63 - 1) :
    list signed64 (.arr (is.map .int)) = .ok is :=
  list_arr fun i hi => integer_int (h i hi)

theorem json_settled {v : Json} (h : v.settled = v) : json v = .ok v := by
  rw [json, h]

theorem record_object {title : String} {fs : List Field} {fields : List (String × Json)}
    {decode : Slots → Decoded α} {a : α} (hn : (fields.map (·.1)).Nodup)
    (h : ∀ e ∈ fields, Field.Takes fs e)
    (hs : ∀ s : Slots, (∀ k, s.lookup k = Entries.get? k fields) → decode s = .ok a) :
    (slots title fs (.object fields) >>= decode) = .ok a := by
  obtain ⟨s, hslots, hlookup⟩ := slots_object title fs hn h
  rw [hslots]
  exact hs s hlookup

end Wire

theorem KeyValue.ofJson_toJson (kv : KeyValue) : KeyValue.ofJson kv.toJson = .ok kv := by
  apply record_object
  · simp
  · simp [Takes, answersTo, required, problem]
  · intro s hs
    simp only [Slots.need, hs, Entries.get?, String.reduceEq, ↓reduceIte]
    rfl

theorem TimeUnit.ofJson_name (u : TimeUnit) : TimeUnit.ofJson (.str u.name) = .ok u := by
  cases u <;> rfl

theorem ItemType.ofJson_name (t : ItemType) : ItemType.ofJson (.str t.name) = .ok t := by
  cases t <;> rfl

theorem list_keyValue (kvs : List KeyValue) :
    list KeyValue.ofJson (.arr (kvs.map KeyValue.toJson)) = .ok kvs :=
  list_arr fun kv _ => kv.ofJson_toJson

theorem Interval.ofJson_data {t : Interval} (h : t.length < 2 ^ 64) :
    Interval.ofJson (NodeKind.interval t).data = .ok t := by
  have hlength : unsigned64 (.nat t.length) = .ok t.length := natural_nat h
  apply record_object
  · simp
  · simp [Takes, answersTo, required, optionally, known, problem, hlength, TimeUnit.ofJson_name]
  · intro s hs
    simp only [Slots.need, Slots.getD, hs, Entries.get?, hlength, TimeUnit.ofJson_name,
      list_boolean, String.reduceEq, ↓reduceIte]
    rfl

theorem TypedList.ofJson_toJson {l : TypedList} (h : ∀ i ∈ l.ints, -2 ^ 63 ≤ i ∧ i ≤ 2 ^ 63 - 1) :
    TypedList.ofJson l.toJson = .ok l := by
  have hints := list_signed64 h
  apply record_object
  · simp
  · simp [Takes, answersTo, required, optionally, problem, hints, ItemType.ofJson_name,
      list_keyValue]
  · intro s hs
    simp only [Slots.need, Slots.getD, hs, Entries.get?, hints, ItemType.ofJson_name,
      list_text, list_boolean, list_keyValue, String.reduceEq, ↓reduceIte]
    rfl

theorem ApiCall.ofJson_data (c : ApiCall) : ApiCall.ofJson (NodeKind.api c).data = .ok c := by
  apply record_object
  · simp
  · simp [Takes, answersTo, required, optionally, problem, list_keyValue]
  · intro s hs
    simp only [Slots.need, Slots.getD, hs, Entries.get?, list_keyValue, String.reduceEq, ↓reduceIte]
    rfl

theorem Replacement.ofJson_data (r : Replacement) :
    Replacement.ofJson (NodeKind.replace r).data = .ok r := by
  apply record_object
  · simp
  · simp [Takes, answersTo, required, optionally, problem]
  · intro s hs
    simp only [Slots.need, Slots.getD, hs, Entries.get?, String.reduceEq, ↓reduceIte]
    rfl

theorem Edge.ofJson_toJson (e : Edge) : Edge.ofJson e.toJson = .ok e := by
  apply record_object
  · simp
  · simp [Takes, fields, answersTo, required, optionally, known, problem]
  · intro s hs
    simp only [Slots.need, Slots.getD, hs, Entries.get?, String.reduceEq, ↓reduceIte]
    rfl

namespace NodeKind

theorem ofData_of_decoder {type : String} {data : Json} {decode : Json → Decoded NodeKind}
    (h : decoder? type = some decode) (hdata : data ≠ .null) : ofData type data = decode data := by
  simp only [ofData, h, hdata, ↓reduceIte]

theorem ofData_object {type : String} {fields : List (String × Json)}
    {decode : Json → Decoded NodeKind} (h : decoder? type = some decode) :
    ofData type (.object fields) = decode (.object fields) :=
  ofData_of_decoder h (by simp [Json.object])

theorem ofData_data {k : NodeKind} {data : Json} (h : k.From data) (hdata : data.settled = data) :
    ofData k.type k.data = .ok k := by
  cases k with
  | plain | webhook | events => rfl
  | unknown type v =>
    obtain ⟨hnone, rfl⟩ := h
    simp only [ofData, NodeKind.type, hnone, NodeKind.data]
  | interval t =>
    have ht := Interval.ofJson_data h
    rw [NodeKind.type]
    rw [NodeKind.data] at ht ⊢
    rw [ofData_object rfl, ht]
    rfl
  | api c =>
    have hc := c.ofJson_data
    rw [NodeKind.type]
    rw [NodeKind.data] at hc ⊢
    rw [ofData_object rfl, hc]
    rfl
  | replace r =>
    have hr := r.ofJson_data
    rw [NodeKind.type]
    rw [NodeKind.data] at hr ⊢
    rw [ofData_object rfl, hr]
    rfl
  | setVariable name v =>
    have hv : json v = .ok v := by
      rcases h with rfl | ⟨x, -, rfl⟩
      · rfl
      · exact json_settled x.settled_settled
    rw [NodeKind.type, NodeKind.data, ofData_object rfl]
    apply record_object
    · simp
    · simp [Takes, answersTo, required, optionally, problem, hv]
    · intro s hs
      simp only [Slots.need, Slots.getD, hs, Entries.get?, hv, String.reduceEq, ↓reduceIte]
      rfl
  | list into l =>
    have hl := TypedList.ofJson_toJson h
    rw [NodeKind.type, NodeKind.data, ofData_object rfl]
    apply record_object
    · simp
    · simp [Takes, answersTo, required, problem, hl]
    · intro s hs
      simp only [Slots.need, hs, Entries.get?, hl, String.reduceEq, ↓reduceIte]
      rfl
  | loop n =>
    have hn : unsigned32 (.nat n) = .ok n := natural_nat h
    rw [NodeKind.type, NodeKind.data, ofData_object rfl]
    apply record_object
    · simp
    · simp [Takes, answersTo, required, problem, hn]
    · intro s hs
      simp only [Slots.need, hs, Entries.get?, hn, ↓reduceIte]
      rfl
  | whileHolds expression n =>
    have hn : unsigned32 (.nat n) = .ok n := natural_nat h
    rw [NodeKind.type, NodeKind.data, ofData_object rfl]
    apply record_object
    · simp
    · simp [Takes, answersTo, required, problem, hn]
    · intro s hs
      simp only [Slots.need, hs, Entries.get?, hn, String.reduceEq, ↓reduceIte]
      rfl
  -- only texts
  | _ =>
    rw [NodeKind.type, NodeKind.data, ofData_object rfl]
    apply record_object
    · simp
    · simp [Takes, answersTo, required, optionally, known, problem]
    · intro s hs
      simp only [Slots.need, Slots.getD, hs, Entries.get?, String.reduceEq, ↓reduceIte]
      rfl

end NodeKind

theorem KeyValue.settled_toJson (kv : KeyValue) : kv.toJson.settled = kv.toJson :=
  Json.settled_object (by simp [Json.settled])

theorem settledItems_map {α : Type} {f : α → Json} (h : ∀ a, (f a).settled = f a) (as : List α) :
    Json.settledItems (as.map f) = as.map f := by
  rw [Json.settledItems_eq, List.map_map]
  exact List.map_congr_left fun a _ => h a

theorem TypedList.settled_toJson (l : TypedList) : l.toJson.settled = l.toJson := by
  have hstrings := settledItems_map (f := Json.str) (fun _ => rfl) l.strings
  have hints := settledItems_map (f := Json.int) (fun _ => rfl) l.ints
  have hbools := settledItems_map (f := Json.bool) (fun _ => rfl) l.bools
  have hkvs := settledItems_map KeyValue.settled_toJson l.keyValues
  exact Json.settled_object (by simp [Json.settled, Json.strings, hstrings, hints, hbools, hkvs])

theorem NodeKind.settled_data {k : NodeKind} {data : Json} (h : k.From data)
    (hdata : data.settled = data) : k.data.settled = k.data := by
  cases k with
  | plain | webhook | events => rfl
  | unknown type v =>
    obtain ⟨-, rfl⟩ := h
    exact hdata
  | setVariable name v =>
    have hv : v.settled = v := by
      rcases h with rfl | ⟨x, -, rfl⟩
      · rfl
      · exact x.settled_settled
    exact Json.settled_object (by simp [Json.settled, hv])
  | interval t =>
    have hdays := settledItems_map (f := Json.bool) (fun _ => rfl) t.weekdays
    exact Json.settled_object (by simp [Json.settled, Json.nat, Json.int, hdays])
  | list into l =>
    exact Json.settled_object (by simp [Json.settled, l.settled_toJson])
  | api c =>
    have hheaders := settledItems_map KeyValue.settled_toJson c.headers
    exact Json.settled_object (by simp [Json.settled, hheaders])
  | _ => exact Json.settled_object (by simp [Json.settled, Json.nat, Json.int])

theorem Node.ofJson_toJson {n : Node} {data : Json} (h : n.kind.From data)
    (hdata : data.settled = data) : Node.ofJson n.toJson = .ok n := by
  have hkind := NodeKind.ofData_data h hdata
  have hsettled := NodeKind.settled_data h hdata
  apply record_object
  · simp
  · simp [Takes, fields, answersTo, required, optionally, known, problem, json]
  · intro s hs
    simp only [Slots.need, Slots.getD, hs, Entries.get?, json, Node.data, hsettled, text_str,
      String.reduceEq, ↓reduceIte]
    dsimp only [bind, Except.bind]
    rw [hkind]
    rfl

theorem Workflow.ofJson_toJson {w : Workflow} {P : Json → Prop} (h : w.From P) :
    Workflow.ofJson w.toJson = .ok w := by
  have hnodes : Wire.list Node.ofJson (.arr (w.nodes.map Node.toJson)) = .ok w.nodes := by
    apply list_arr
    intro n hn
    obtain ⟨data, hdata, -, hfrom⟩ := h n hn
    exact Node.ofJson_toJson hfrom hdata
  have hedges : Wire.list Edge.ofJson (.arr (w.edges.map Edge.toJson)) = .ok w.edges :=
    list_arr fun e _ => e.ofJson_toJson
  apply record_object
  · simp
  · simp [Takes, fields, answersTo, required, optionally, problem, hnodes, hedges]
  · intro s hs
    simp only [Slots.need, Slots.getD, hs, Entries.get?, hnodes, hedges, String.reduceEq, ↓reduceIte]
    rfl

theorem Workflow.ofJson_toJson_of_ofJson {v : Json} {w : Workflow} (h : Workflow.ofJson v = .ok w) :
    Workflow.ofJson w.toJson = .ok w ∧
      (Workflow.ofJson w.toJson).map Workflow.toJson = .ok w.toJson := by
  have hfrom : w.From fun _ => True := from_of_members h trivial fun _ _ _ _ _ _ => trivial
  have hback := ofJson_toJson hfrom
  exact ⟨hback, by rw [hback]; rfl⟩

namespace Sample

def loose : Json := .arr [.str "w", .str "W", .str "", .arr [
    .obj [("nodetype", .str "interval"), ("id", .str "0"),
      ("data", .obj [("type", .str "hours"), ("interval", .nat 5)])],
    .arr [.str "1", .str "foreach", .str "all", .obj [("listvar", .str "xs")]],
    .obj [("id", .str "2"), ("type", .str "list"), ("data", .arr [.str "xs", .arr [.str "STRING"]])],
    .obj [("id", .str "3"), ("type", .str "default"), ("data", .null)],
    .obj [("id", .str "4"), ("type", .str "condition")],
    .obj [("id", .str "5"), ("type", .str "odd"), ("more", .null),
      ("data", .obj [("b", .float 0.5), ("a", .null), ("b", .bool true)])]],
  .arr [.obj [("target", .str "1"), ("sourcehandle", .str "output"), ("source", .str "0")]]]

def strict : Workflow where
  id := "w"
  name := "W"
  description := ""
  nodes := [⟨"0", "", .interval ⟨5, .hours, Interval.everyDay⟩⟩, ⟨"1", "all", .forEach "xs"⟩,
    ⟨"2", "", .list "xs" ⟨.string, [], [], [], []⟩⟩, ⟨"3", "", .plain⟩, ⟨"4", "", .condition ""⟩,
    ⟨"5", "", .unknown "odd" (.obj [("a", .null), ("b", .bool true)])⟩]
  edges := [⟨"", "0", "output", "1"⟩]

end Sample

theorem Workflow.ofJson_toJson_of_ofJson_loose :
    Workflow.ofJson Sample.loose = .ok Sample.strict ∧
    Workflow.ofJson Sample.strict.toJson = .ok Sample.strict ∧
      (Workflow.ofJson Sample.strict.toJson).map Workflow.toJson = .ok Sample.strict.toJson := by
  have h : Workflow.ofJson Sample.loose = .ok Sample.strict := by rfl
  exact ⟨h, Workflow.ofJson_toJson_of_ofJson h⟩

end FlowGraph
