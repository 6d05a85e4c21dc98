import FlowGraph.Proofs.Json.Fits
import FlowGraph.Proofs.Wire.Slots
import FlowGraph.Workflow.Decode

namespace FlowGraph

open Wire

namespace Wire

variable {α β : Type}

def Gives (x : Decoded α) (P : α → Prop) : Prop := ∀ a, x = .ok a → P a

theorem Gives.pure {P : α → Prop} {a : α} (h : P a) : Gives (Pure.pure a) P := by
  intro b hb
  cases hb
  exact h

theorem Gives.bind {P : β → Prop} {x : Decoded α} {f : α → Decoded β}
    (h : ∀ a, x = .ok a → Gives (f a) P) : Gives (x >>= f) P := by
  intro b hb
  obtain ⟨a, ha, hb⟩ := bind_eq_ok.1 hb
  exact h a ha b hb

theorem integer_mem {name : String} {lo hi : Int} {v : Json} {i : Int}
    (h : integer name lo hi v = .ok i) : lo ≤ i ∧ i ≤ hi := by
  unfold integer at h
  split at h
  · split at h
    · next hi =>
      cases h
      exact hi
    · cases h
  · cases h

theorem natural_lt {name : String} {bits : Nat} {v : Json} {n : Nat}
    (h : natural name bits v = .ok n) : n < 2 ^ bits := by
  obtain ⟨i, hi, rfl⟩ := map_eq_ok.1 h
  obtain ⟨hlo, hhi⟩ := integer_mem hi
  change i ≤ ((2 ^ bits : Nat) : Int) - 1 at hhi
  omega

end Wire

def NodeKind.Formed (data : Json) : NodeKind → Prop
  | .interval t => t.length < 2 ^ 64
  | .setVariable _ v => v = .null ∨ ∃ x ∈ data.members, v = x.settled
  | .list _ l => ∀ i ∈ l.ints, -2 ^ 63 ≤ i ∧ i ≤ 2 ^ 63 - 1
  | .loop iterations => iterations < 2 ^ 32
  | .whileHolds _ limit => limit < 2 ^ 32
  | .unknown .. => False
  | _ => True

def NodeKind.From (data : Json) : NodeKind → Prop
  | .unknown type v => decoder? type = none ∧ v = data
  | k => k.Formed data

theorem Interval.ofJson_gives (v : Json) : Gives (Interval.ofJson v) fun t => t.length < 2 ^ 64 :=
  .bind fun _ hs => .bind fun n hn => .bind fun _ _ => .bind fun _ _ => .pure (by
    obtain ⟨x, -, hx⟩ := mem_of_need hs hn
    exact natural_lt hx)

theorem TypedList.ofJson_gives (v : Json) :
    Gives (TypedList.ofJson v) fun l => ∀ i ∈ l.ints, -2 ^ 63 ≤ i ∧ i ≤ 2 ^ 63 - 1 :=
  .bind fun _ hs => .bind fun _ _ => .bind fun _ _ => .bind fun ints hints => .bind fun _ _ =>
    .bind fun _ _ => .pure (by
      intro i hi
      rcases mem_of_getD hs hints with rfl | ⟨x, -, hx⟩
      · cases hi
      · obtain ⟨y, -, hy⟩ := mem_of_list hx hi
        exact integer_mem hy)

theorem NodeKind.decoder?_gives {type : String} {decode : Json → Decoded NodeKind}
    (h : decoder? type = some decode) (v : Json) : Gives (decode v) (NodeKind.Formed v) := by
  unfold decoder? at h
  split at h <;> cases h
  -- the types without data
  · exact .pure trivial
  · exact .pure trivial
  · exact .pure trivial
  · exact .pure trivial
  · exact .bind fun t ht => .pure (Interval.ofJson_gives v t ht)
  · refine .bind fun s hs => .bind fun name _ => .bind fun value hvalue => .pure ?_
    rcases mem_of_getD hs hvalue with rfl | ⟨x, hx, hjson⟩
    · exact .inl rfl
    · cases hjson
      exact .inr ⟨x, hx, rfl⟩
  · exact .bind fun _ _ => .bind fun _ _ => .bind fun _ _ => .pure trivial
  · exact .bind fun _ _ => .bind fun _ _ => .pure trivial
  · refine .bind fun s hs => .bind fun into _ => .bind fun l hl => .pure ?_
    obtain ⟨x, -, hx⟩ := mem_of_need hs hl
    exact TypedList.ofJson_gives x l hx
  · refine .bind fun s hs => .bind fun n hn => .pure ?_
    obtain ⟨x, -, hx⟩ := mem_of_need hs hn
    exact natural_lt hx
  · exact .bind fun _ _ => .bind fun _ _ => .pure trivial
  · refine .bind fun s hs => .bind fun expression _ => .bind fun n hn => .pure ?_
    obtain ⟨x, -, hx⟩ := mem_of_need hs hn
    exact natural_lt hx
  · exact .bind fun _ _ => .pure trivial
  · exact .bind fun _ _ => .bind fun _ _ => .pure trivial
  · exact .bind fun _ _ => .bind fun _ _ => .pure trivial
  · exact .bind fun _ _ => .bind fun _ _ => .bind fun _ _ => .pure trivial
  · exact .bind fun _ _ => .bind fun _ _ => .bind fun _ _ => .pure trivial
  · exact .bind fun _ _ => .bind fun _ _ => .bind fun _ _ => .bind fun _ _ => .pure trivial
  · exact .bind fun _ _ => .pure trivial
  · exact .bind fun _ _ => .bind fun _ _ => .bind fun _ _ => .bind fun _ _ => .pure trivial
  · exact .bind fun _ _ => .bind fun _ _ => .pure trivial

theorem NodeKind.from_of_ofData {type : String} {data : Json} {k : NodeKind}
    (h : ofData type data = .ok k) : k.From data := by
  unfold ofData at h
  split at h
  · next decode hdecode =>
    have hk : k.Formed data := by
      have hk := decoder?_gives hdecode _ k h
      split at hk
      · next hnull =>
        subst hnull
        exact hk
      · exact hk
    cases k with
    | unknown => exact hk.elim
    | _ => exact hk
  · next hnone =>
    cases h
    exact ⟨hnone, rfl⟩

theorem Node.from_of_ofJson {v : Json} {n : Node} (h : Node.ofJson v = .ok n) :
    ∃ data, (data = .null ∨ ∃ x ∈ v.members, data = x.settled) ∧ n.kind.From data := by
  obtain ⟨s, hs, h⟩ := bind_eq_ok.1 h
  obtain ⟨id, -, h⟩ := bind_eq_ok.1 h
  obtain ⟨type, -, h⟩ := bind_eq_ok.1 h
  obtain ⟨label, -, h⟩ := bind_eq_ok.1 h
  obtain ⟨data, hdata, h⟩ := bind_eq_ok.1 h
  split at h
  · next k hk =>
    cases h
    refine ⟨data, ?_, NodeKind.from_of_ofData hk⟩
    rcases mem_of_getD hs hdata with rfl | ⟨x, hx, hjson⟩
    · exact .inl rfl
    · cases hjson
      exact .inr ⟨x, hx, rfl⟩
  · cases h

theorem Workflow.nodes_of_ofJson {v : Json} {w : Workflow} (h : Workflow.ofJson v = .ok w) :
    ∀ n ∈ w.nodes, ∃ x ∈ v.members, ∃ y ∈ x.members, Node.ofJson y = .ok n := by
  obtain ⟨s, hs, h⟩ := bind_eq_ok.1 h
  obtain ⟨id, -, h⟩ := bind_eq_ok.1 h
  obtain ⟨name, -, h⟩ := bind_eq_ok.1 h
  obtain ⟨description, -, h⟩ := bind_eq_ok.1 h
  obtain ⟨nodes, hnodes, h⟩ := bind_eq_ok.1 h
  obtain ⟨edges, -, h⟩ := bind_eq_ok.1 h
  cases h
  intro n hn
  obtain ⟨x, hx, hlist⟩ := mem_of_need hs hnodes
  obtain ⟨y, hy, hnode⟩ := mem_of_list hlist hn
  exact ⟨x, hx, y, hy, hnode⟩

def Workflow.From (w : Workflow) (P : Json → Prop) : Prop :=
  ∀ n ∈ w.nodes, ∃ data : Json, data.settled = data ∧ P data ∧ n.kind.From data

theorem Workflow.from_of_members {v : Json} {w : Workflow} {P : Json → Prop}
    (h : Workflow.ofJson v = .ok w) (hnull : P .null)
    (hv : ∀ x ∈ v.members, ∀ y ∈ x.members, ∀ z ∈ y.members, P z.settled) : w.From P := by
  intro n hn
  obtain ⟨x, hx, y, hy, hnode⟩ := Workflow.nodes_of_ofJson h n hn
  obtain ⟨data, rfl | ⟨z, hz, rfl⟩, hfrom⟩ := Node.from_of_ofJson hnode
  · exact ⟨.null, rfl, hnull, hfrom⟩
  · exact ⟨z.settled, z.settled_settled, hv x hx y hy z hz, hfrom⟩

theorem Workflow.from_of_ofJson {v : Json} {w : Workflow} {room : Nat}
    (h : Workflow.ofJson v = .ok w) (hv : v.Fits (room + 3)) : w.From (Json.Fits room) := by
  apply from_of_members h
  · exact ⟨Nat.zero_le _, nofun⟩
  · intro x hx y hy z hz
    exact (((hv.member hx).member hy).member hz).settled

end FlowGraph
