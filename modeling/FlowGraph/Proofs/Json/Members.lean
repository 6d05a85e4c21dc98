import FlowGraph.Json.Basic
import FlowGraph.Proofs.Keyed

namespace FlowGraph.Json

def members : Json → List Json
  | arr items => items
  | obj fields => fields.map (·.2)
  | _ => []

mutual

def numbers : Json → List Number
  | num n => [n]
  | arr items => numbersItems items
  | obj fields => numbersFields fields
  | null | bool _ | str _ => []

def numbersItems : List Json → List Number
  | [] => []
  | x :: xs => numbers x ++ numbersItems xs

def numbersFields : List (String × Json) → List Number
  | [] => []
  | (_, x) :: xs => numbers x ++ numbersFields xs

end

mutual

theorem induct {P : Json → Prop} (h : ∀ v, (∀ x ∈ v.members, P x) → P v) : ∀ v : Json, P v
  | null => h null nofun
  | bool b => h (bool b) nofun
  | num n => h (num n) nofun
  | str s => h (str s) nofun
  | arr items => h (arr items) (inductItems h items)
  | obj fields => h (obj fields) (inductFields h fields)

theorem inductItems {P : Json → Prop} (h : ∀ v, (∀ x ∈ v.members, P x) → P v) :
    ∀ items : List Json, ∀ x ∈ items, P x
  | [] => nofun
  | x :: xs => List.forall_mem_cons.2 ⟨induct h x, inductItems h xs⟩

theorem inductFields {P : Json → Prop} (h : ∀ v, (∀ x ∈ v.members, P x) → P v) :
    ∀ fields : List (String × Json), ∀ x ∈ fields.map (·.2), P x
  | [] => nofun
  | (_, x) :: xs => List.forall_mem_cons.2 ⟨induct h x, inductFields h xs⟩

end

theorem nestingItems_le {items : List Json} {d : Nat} :
    nestingItems items ≤ d ↔ ∀ x ∈ items, x.nesting ≤ d := by
  induction items with
  | nil => simp [nestingItems]
  | cons x xs ih => rw [nestingItems, Nat.max_le, ih, List.forall_mem_cons]

theorem nestingFields_le {fields : List (String × Json)} {d : Nat} :
    nestingFields fields ≤ d ↔ ∀ x ∈ fields.map (·.2), x.nesting ≤ d := by
  induction fields with
  | nil => simp [nestingFields]
  | cons e es ih => rw [nestingFields, Nat.max_le, ih, List.map_cons, List.forall_mem_cons]

theorem nesting_le_succ {v : Json} {d : Nat} :
    v.nesting ≤ d + 1 ↔ ∀ x ∈ v.members, x.nesting ≤ d := by
  cases v with
  | arr items => rw [nesting, Nat.succ_le_succ_iff, nestingItems_le, members]
  | obj fields => rw [nesting, Nat.succ_le_succ_iff, nestingFields_le, members]
  | _ => simp [nesting, members]

theorem mem_numbersItems {items : List Json} {n : Number} :
    n ∈ numbersItems items ↔ ∃ x ∈ items, n ∈ x.numbers := by
  induction items with
  | nil => simp [numbersItems]
  | cons x xs ih => simp [numbersItems, ih]

theorem mem_numbersFields {fields : List (String × Json)} {n : Number} :
    n ∈ numbersFields fields ↔ ∃ x ∈ fields.map (·.2), n ∈ x.numbers := by
  induction fields with
  | nil => simp [numbersFields]
  | cons e es ih =>
    rw [numbersFields, List.mem_append, ih]
    simp

theorem mem_numbers {v : Json} {n : Number} :
    n ∈ v.numbers ↔ v = num n ∨ ∃ x ∈ v.members, n ∈ x.numbers := by
  cases v with
  | num m => simp [numbers, members, eq_comm]
  | arr items => simp [numbers, members, mem_numbersItems]
  | obj fields => rw [numbers, members, mem_numbersFields]; simp
  | _ => simp [numbers, members]

theorem numbers_subset_of_mem {v x : Json} (h : x ∈ v.members) : x.numbers ⊆ v.numbers :=
  fun _ hn => mem_numbers.2 (.inr ⟨x, h, hn⟩)

theorem settledItems_eq (items : List Json) : settledItems items = items.map settled := by
  induction items with
  | nil => rfl
  | cons x xs ih => rw [settledItems, ih, List.map_cons]

theorem settledFields_eq (fields : List (String × Json)) :
    settledFields fields = fields.map fun e => (e.1, e.2.settled) := by
  induction fields with
  | nil => rfl
  | cons e es ih => rw [settledFields, ih, List.map_cons]

theorem mem_members_object {fields : List (String × Json)} {x : Json}
    (h : x ∈ (object fields).members) : x ∈ fields.map (·.2) := by
  obtain ⟨e, he, rfl⟩ := List.mem_map.1 h
  exact List.mem_map_of_mem (Entries.mem_of_mem_ofList he)

theorem mem_members_settled {v x : Json} (h : x ∈ v.settled.members) :
    ∃ y ∈ v.members, x = y.settled := by
  cases v with
  | arr items =>
    rw [settled, settledItems_eq] at h
    obtain ⟨y, hy, rfl⟩ := List.mem_map.1 h
    exact ⟨y, hy, rfl⟩
  | obj fields =>
    rw [settled, settledFields_eq] at h
    obtain ⟨e, he, rfl⟩ := List.mem_map.1 (mem_members_object h)
    obtain ⟨f, hf, rfl⟩ := List.mem_map.1 he
    exact ⟨f.2, List.mem_map_of_mem hf, rfl⟩
  | _ => cases h

theorem nesting_settled_le (v : Json) : v.settled.nesting ≤ v.nesting := by
  induction v using induct with
  | h v ih =>
    cases hd : v.nesting with
    | zero => cases v <;> simp [nesting, settled] at hd ⊢
    | succ d =>
      refine nesting_le_succ.2 fun x hx => ?_
      obtain ⟨y, hy, rfl⟩ := mem_members_settled hx
      exact Nat.le_trans (ih y hy) (nesting_le_succ.1 (Nat.le_of_eq hd) y hy)

theorem numbers_settled_subset (v : Json) : v.settled.numbers ⊆ v.numbers := by
  induction v using induct with
  | h v ih =>
    intro n hn
    rcases mem_numbers.1 hn with hv | ⟨x, hx, hnx⟩
    · cases v with
      | num m => exact hn
      | _ => cases hv
    · obtain ⟨y, hy, rfl⟩ := mem_members_settled hx
      exact numbers_subset_of_mem hy (ih y hy hnx)

theorem settled_obj {fields : List (String × Json)} (h : Entries.Ascending fields)
    (hv : ∀ x ∈ fields.map (·.2), x.settled = x) : (obj fields).settled = obj fields := by
  have hfields : settledFields fields = fields := by
    rw [settledFields_eq]
    refine (List.map_congr_left fun e he => ?_).trans (List.map_id fields)
    exact Prod.ext rfl (hv e.2 (List.mem_map_of_mem he))
  rw [settled, object, hfields, Entries.ofList_of_ascending h]

theorem settled_object {fields : List (String × Json)}
    (h : ∀ x ∈ fields.map (·.2), x.settled = x) : (object fields).settled = object fields :=
  settled_obj (Entries.ascending_ofList fields) fun x hx => h x (mem_members_object hx)

theorem settled_settled (v : Json) : v.settled.settled = v.settled := by
  induction v using induct with
  | h v ih =>
    cases v with
    | arr items =>
      simp only [settled, settledItems_eq, List.map_map]
      congr 1
      exact List.map_congr_left ih
    | obj fields =>
      apply settled_obj (Entries.ascending_ofList _)
      intro x hx
      have hmem : x ∈ (obj fields).settled.members := hx
      obtain ⟨y, hy, rfl⟩ := mem_members_settled hmem
      exact ih y hy
    | _ => rfl

/-- The fields of all its objects are in order. -/
def Settled (v : Json) : Prop := v.settled = v

instance (v : Json) : Decidable v.Settled := inferInstanceAs (Decidable (v.settled = v))

theorem Settled.member {v x : Json} (h : v.Settled) (hx : x ∈ v.members) : x.Settled := by
  rw [← h] at hx
  obtain ⟨y, -, rfl⟩ := mem_members_settled hx
  exact y.settled_settled

theorem Settled.arr {items : List Json} (h : ∀ x ∈ items, x.Settled) : (arr items).Settled := by
  have hitems : items.map settled = items := (List.map_congr_left h).trans (List.map_id items)
  rw [Settled, settled, settledItems_eq, hitems]

end FlowGraph.Json
