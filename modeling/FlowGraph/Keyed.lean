/-!
Finite maps with text keys, kept in ascending key order. One map has one list of entries, so
maps with the same answers are equal; `get?_put` and `get?_erase` are all that a user needs.
-/

namespace FlowGraph

variable {α β : Type}

namespace Entries

def Ascending (es : List (String × α)) : Prop :=
  es.Pairwise fun a b => a.1 < b.1

def put (k : String) (v : α) : List (String × α) → List (String × α)
  | [] => [(k, v)]
  | (j, w) :: r =>
    if k < j then (k, v) :: (j, w) :: r
    else if j < k then (j, w) :: put k v r
    else (k, v) :: r

def get? (k : String) : List (String × α) → Option α
  | [] => none
  | (j, w) :: r => if j = k then some w else get? k r

def erase (k : String) (es : List (String × α)) : List (String × α) :=
  es.filter fun e => e.1 ≠ k

def ofList (es : List (String × α)) : List (String × α) :=
  es.foldl (fun acc e => put e.1 e.2 acc) []

theorem mem_put {k : String} {v : α} {es : List (String × α)} {e : String × α}
    (h : e ∈ put k v es) : e = (k, v) ∨ e ∈ es := by
  induction es with
  | nil => simpa [put] using h
  | cons a r ih =>
    obtain ⟨j, w⟩ := a
    simp only [put] at h
    split at h
    · simpa using h
    · split at h
      · rcases List.mem_cons.1 h with h | h
        · exact .inr (by simp [h])
        · rcases ih h with h | h
          · exact .inl h
          · exact .inr (by simp [h])
      · rcases List.mem_cons.1 h with h | h
        · exact .inl h
        · exact .inr (by simp [h])

theorem eq_of_not_lt {a b : String} (h : ¬ a < b) (h' : ¬ b < a) : a = b :=
  String.le_antisymm (String.not_lt.1 h') (String.not_lt.1 h)

theorem Ascending.put {k : String} {v : α} {es : List (String × α)} (h : Ascending es) :
    Ascending (put k v es) := by
  induction es with
  | nil => exact List.pairwise_singleton _ _
  | cons a r ih =>
    obtain ⟨j, w⟩ := a
    obtain ⟨hj, hr⟩ := List.pairwise_cons.1 h
    simp only [Entries.put]
    split
    · next hk =>
      refine List.pairwise_cons.2 ⟨fun e he => ?_, h⟩
      rcases List.mem_cons.1 he with rfl | he
      · exact hk
      · exact String.lt_trans hk (hj e he)
    · next hk =>
      split
      · next hk' =>
        refine List.pairwise_cons.2 ⟨fun e he => ?_, ih hr⟩
        rcases mem_put he with rfl | he
        · exact hk'
        · exact hj e he
      · next hk' =>
        have := eq_of_not_lt hk hk'
        subst this
        exact List.pairwise_cons.2 ⟨hj, hr⟩

theorem Ascending.erase {k : String} {es : List (String × α)} (h : Ascending es) :
    Ascending (erase k es) :=
  List.Pairwise.filter _ h

theorem Ascending.map {es : List (String × α)} (h : Ascending es) (f : α → β) :
    Ascending (es.map fun e => (e.1, f e.2)) :=
  List.pairwise_map.2 h

theorem get?_map (k : String) (f : α → β) (es : List (String × α)) :
    get? k (es.map fun e => (e.1, f e.2)) = (get? k es).map f := by
  induction es with
  | nil => rfl
  | cons a r ih =>
    by_cases h : a.1 = k <;> simp [get?, h, ih]

theorem mem_filterMap {f : α → Option β} {es : List (String × α)} {e : String × β}
    (h : e ∈ es.filterMap fun e => (f e.2).map fun v => (e.1, v)) : ∃ v, (e.1, v) ∈ es := by
  obtain ⟨a, ha, h⟩ := List.mem_filterMap.1 h
  obtain ⟨v, _, rfl⟩ := Option.map_eq_some_iff.1 h
  exact ⟨a.2, ha⟩

theorem Ascending.filterMap {es : List (String × α)} (h : Ascending es) (f : α → Option β) :
    Ascending (es.filterMap fun e => (f e.2).map fun v => (e.1, v)) := by
  induction es with
  | nil => exact List.Pairwise.nil
  | cons a r ih =>
    obtain ⟨ha, hr⟩ := List.pairwise_cons.1 h
    rw [List.filterMap_cons]
    cases f a.2 with
    | none => exact ih hr
    | some v =>
      refine List.pairwise_cons.2 ⟨fun e he => ?_, ih hr⟩
      obtain ⟨w, hw⟩ := mem_filterMap he
      exact ha _ hw

theorem get?_eq_none {k : String} {es : List (String × α)} (h : ∀ e ∈ es, k < e.1) :
    get? k es = none := by
  induction es with
  | nil => rfl
  | cons a r ih =>
    have : a.1 ≠ k := fun e => String.lt_irrefl k (e ▸ h a List.mem_cons_self)
    simp [get?, this, ih fun e he => h e (List.mem_cons_of_mem _ he)]

theorem get?_filterMap {es : List (String × α)} (h : Ascending es) (f : α → Option β)
    (k : String) :
    get? k (es.filterMap fun e => (f e.2).map fun v => (e.1, v)) = (get? k es).bind f := by
  induction es with
  | nil => rfl
  | cons a r ih =>
    obtain ⟨ha, hr⟩ := List.pairwise_cons.1 h
    rw [List.filterMap_cons]
    by_cases hk : a.1 = k
    · cases hf : f a.2 with
      | none =>
        have : get? k r = none := get?_eq_none fun e he => hk ▸ ha e he
        simp [get?, hk, hf, ih hr, this]
      | some v => simp [get?, hk, hf]
    · cases hf : f a.2 <;> simp [get?, hk, ih hr]

theorem get?_erase (k j : String) (es : List (String × α)) :
    get? j (erase k es) = if k = j then none else get? j es := by
  induction es with
  | nil => simp [erase, get?]
  | cons a r ih =>
    simp only [erase, List.filter_cons] at ih ⊢
    by_cases h : a.1 = k <;> by_cases h' : a.1 = j <;> by_cases h'' : k = j <;> simp_all [get?]

theorem get?_put (k j : String) (v : α) (es : List (String × α)) :
    get? j (put k v es) = if k = j then some v else get? j es := by
  induction es with
  | nil => simp [put, get?]
  | cons a r ih =>
    obtain ⟨i, w⟩ := a
    simp only [put]
    split
    · simp [get?]
    · next h =>
      split
      · next h' =>
        have : i ≠ k := fun e => String.lt_irrefl k (e ▸ h')
        simp only [get?, ih]
        by_cases hi : i = j
        · have hk : k ≠ j := fun e => this (hi.trans e.symm)
          simp [hi, hk]
        · simp [hi]
      · next h' =>
        have := eq_of_not_lt h h'
        subst this
        by_cases hk : k = j <;> simp [get?, hk]

end Entries

structure Keyed (α : Type) where
  entries : List (String × α)
  ascending : Entries.Ascending entries
deriving DecidableEq

namespace Keyed

def empty : Keyed α := ⟨[], List.Pairwise.nil⟩

instance : Inhabited (Keyed α) := ⟨empty⟩
instance : EmptyCollection (Keyed α) := ⟨empty⟩

def get? (m : Keyed α) (k : String) : Option α := Entries.get? k m.entries

def contains (m : Keyed α) (k : String) : Bool := (m.get? k).isSome

def put (m : Keyed α) (k : String) (v : α) : Keyed α :=
  ⟨Entries.put k v m.entries, m.ascending.put⟩

def erase (m : Keyed α) (k : String) : Keyed α :=
  ⟨Entries.erase k m.entries, m.ascending.erase⟩

def map (f : α → β) (m : Keyed α) : Keyed β :=
  ⟨m.entries.map fun e => (e.1, f e.2), m.ascending.map f⟩

def filterMap (f : α → Option β) (m : Keyed α) : Keyed β :=
  ⟨m.entries.filterMap fun e => (f e.2).map fun v => (e.1, v), m.ascending.filterMap f⟩

def size (m : Keyed α) : Nat := m.entries.length

def keys (m : Keyed α) : List String := m.entries.map (·.1)

def ofList (es : List (String × α)) : Keyed α :=
  es.foldl (fun m e => m.put e.1 e.2) empty

@[simp] theorem get?_put (m : Keyed α) (k j : String) (v : α) :
    (m.put k v).get? j = if k = j then some v else m.get? j :=
  Entries.get?_put k j v m.entries

@[simp] theorem get?_erase (m : Keyed α) (k j : String) :
    (m.erase k).get? j = if k = j then none else m.get? j :=
  Entries.get?_erase k j m.entries

@[simp] theorem get?_map (m : Keyed α) (f : α → β) (k : String) :
    (m.map f).get? k = (m.get? k).map f :=
  Entries.get?_map k f m.entries

@[simp] theorem get?_filterMap (m : Keyed α) (f : α → Option β) (k : String) :
    (m.filterMap f).get? k = (m.get? k).bind f :=
  Entries.get?_filterMap m.ascending f k

end Keyed

end FlowGraph
