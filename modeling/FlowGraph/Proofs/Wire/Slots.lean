import FlowGraph.Proofs.Except
import FlowGraph.Proofs.Json.Members
import FlowGraph.Wire.Decode

namespace FlowGraph.Wire

variable {α β : Type}

theorem mem_of_list {item : Json → Decoded α} {v : Json} {as : List α}
    (h : list item v = .ok as) {a : α} (ha : a ∈ as) : ∃ x ∈ v.members, item x = .ok a := by
  cases v with
  | arr items => exact mem_of_mapM h ha
  | _ => cases h

theorem list_arr {item : Json → Decoded α} {encode : α → Json} {as : List α}
    (h : ∀ a ∈ as, item (encode a) = .ok a) : list item (.arr (as.map encode)) = .ok as := by
  rw [list]
  induction as with
  | nil => rfl
  | cons a as ih =>
    obtain ⟨ha, has⟩ := List.forall_mem_cons.1 h
    rw [List.map_cons, List.mapM_cons, ha, ih has]
    rfl

theorem mem_of_keyedSlots {fs : List Field} {acc s : Slots} {entries : List (String × Json)}
    (h : keyedSlots fs acc entries = .ok s) {e : String × Json} (he : e ∈ s) :
    e ∈ acc ∨ e.2 ∈ entries.map (·.2) := by
  induction entries generalizing acc with
  | nil =>
    cases h
    exact .inl he
  | cons a rest ih =>
    obtain ⟨k, v⟩ := a
    have hrest : e ∈ acc ∨ e.2 ∈ rest.map (·.2) → e ∈ acc ∨ e.2 ∈ ((k, v) :: rest).map (·.2) :=
      fun h => h.imp_right (List.mem_cons_of_mem v)
    rw [keyedSlots] at h
    split at h
    · exact hrest (ih h)
    · split at h
      · cases h
      · split at h
        · cases h
        · rcases ih h with hmem | hmem
          · rcases List.mem_cons.1 hmem with rfl | hmem
            · exact .inr List.mem_cons_self
            · exact .inl hmem
          · exact hrest (.inr hmem)

theorem mem_of_placedSlots {title : String} {size total place : Nat} {fs : List Field}
    {vs : List Json} {s : Slots} (h : placedSlots title size total place fs vs = .ok s)
    {e : String × Json} (he : e ∈ s) : e.2 ∈ vs := by
  induction fs generalizing place vs s with
  | nil =>
    cases vs with
    | nil =>
      cases h
      cases he
    | cons v vs => cases h
  | cons f fs ih =>
    cases vs with
    | nil =>
      rw [placedSlots] at h
      split at h
      · exact ih h he
      · cases h
    | cons v vs =>
      rw [placedSlots] at h
      split at h
      · cases h
      · obtain ⟨s', hs', rfl⟩ := map_eq_ok.1 h
        rcases List.mem_cons.1 he with rfl | he
        · exact List.mem_cons_self
        · exact List.mem_cons_of_mem v (ih hs' he)

theorem mem_of_slots {title : String} {fs : List Field} {v : Json} {s : Slots}
    (h : slots title fs v = .ok s) {e : String × Json} (he : e ∈ s) : e.2 ∈ v.members := by
  cases v with
  | obj fields => exact (mem_of_keyedSlots h he).resolve_left List.not_mem_nil
  | arr vs => exact mem_of_placedSlots h he
  | _ => cases h

theorem mem_of_lookup {s : Slots} {name : String} {v : Json} (h : s.lookup name = some v) :
    ∃ e ∈ s, e.2 = v := by
  obtain ⟨l, r, hs, -⟩ := List.lookup_eq_some_iff.1 h
  exact ⟨(name, v), by simp [hs], rfl⟩

theorem mem_of_need {title : String} {fs : List Field} {v : Json} {s : Slots}
    (hs : slots title fs v = .ok s) {name : String} {decode : Json → Decoded α} {a : α}
    (h : s.need name decode = .ok a) : ∃ x ∈ v.members, decode x = .ok a := by
  rw [Slots.need] at h
  split at h
  · next x hx =>
    obtain ⟨e, he, rfl⟩ := mem_of_lookup hx
    exact ⟨e.2, mem_of_slots hs he, h⟩
  · cases h

theorem mem_of_getD {title : String} {fs : List Field} {v : Json} {s : Slots}
    (hs : slots title fs v = .ok s) {name : String} {decode : Json → Decoded α} {a other : α}
    (h : s.getD name decode other = .ok a) :
    a = other ∨ ∃ x ∈ v.members, decode x = .ok a := by
  rw [Slots.getD] at h
  split at h
  · next x hx =>
    obtain ⟨e, he, rfl⟩ := mem_of_lookup hx
    exact .inr ⟨e.2, mem_of_slots hs he, h⟩
  · cases h
    exact .inl rfl

theorem lookup_of_keyedSlots {fs : List Field} {acc s : Slots} {entries : List (String × Json)}
    (h : keyedSlots fs acc entries = .ok s) {name : String} {v : Json}
    (hv : acc.lookup name = some v) : s.lookup name = some v := by
  induction entries generalizing acc with
  | nil =>
    cases h
    exact hv
  | cons e rest ih =>
    obtain ⟨k, x⟩ := e
    rw [keyedSlots] at h
    split at h
    · exact ih h hv
    · next f hf =>
      split at h
      · cases h
      · next hfree =>
        split at h
        · cases h
        · apply ih h
          have hname : name ≠ f.name := by
            rintro rfl
            exact hfree (by rw [hv]; rfl)
          rw [List.lookup_cons, beq_false_of_ne hname]
          exact hv

theorem lookup_of_mem {fs : List Field} {acc s : Slots} {entries : List (String × Json)}
    (h : keyedSlots fs acc entries = .ok s) {k : String} {v : Json} (hmem : (k, v) ∈ entries)
    {f : Field} (hf : fs.find? (·.answersTo k) = some f) : s.lookup f.name = some v := by
  -- a field is not given twice, so each entry that answers to one is its value
  induction entries generalizing acc with
  | nil => cases hmem
  | cons e rest ih =>
    obtain ⟨j, x⟩ := e
    rw [keyedSlots] at h
    rcases List.mem_cons.1 hmem with heq | hmem
    · obtain ⟨rfl, rfl⟩ := Prod.mk.inj heq
      simp only [hf] at h
      split at h
      · cases h
      · split at h
        · cases h
        · exact lookup_of_keyedSlots h (by rw [List.lookup_cons, beq_self_eq_true])
    · split at h
      · exact ih h hmem
      · split at h
        · cases h
        · split at h
          · cases h
          · exact ih h hmem

def Field.Takes (fs : List Field) (e : String × Json) : Prop :=
  ∃ f, fs.find? (·.answersTo e.1) = some f ∧ f.name = e.1 ∧ f.check e.2 = none

theorem keyedSlots_of_takes {fs : List Field} {entries : List (String × Json)} {acc : Slots}
    (hn : (entries.map (·.1)).Nodup) (hacc : ∀ e ∈ entries, acc.lookup e.1 = none)
    (h : ∀ e ∈ entries, Field.Takes fs e) :
    ∃ s, keyedSlots fs acc entries = .ok s ∧
      ∀ k, s.lookup k = (Entries.get? k entries).or (acc.lookup k) := by
  induction entries generalizing acc with
  | nil => exact ⟨acc, rfl, fun _ => rfl⟩
  | cons e rest ih =>
    obtain ⟨k, v⟩ := e
    obtain ⟨⟨f, hfind, hname, hcheck⟩, hrest⟩ := List.forall_mem_cons.1 h
    obtain ⟨hk, hrestn⟩ := List.nodup_cons.1 hn
    dsimp only at hfind hname hcheck
    have hfree : acc.lookup k = none := hacc (k, v) List.mem_cons_self
    have hnext : ∀ e ∈ rest, List.lookup e.1 ((k, v) :: acc) = none := by
      intro e he
      have hne : e.1 ≠ k := fun h => hk (List.mem_map.2 ⟨e, he, h⟩)
      rw [List.lookup_cons, beq_false_of_ne hne]
      exact hacc e (List.mem_cons_of_mem (k, v) he)
    obtain ⟨s, hs, hlookup⟩ := ih hrestn hnext hrest
    refine ⟨s, ?_, fun j => ?_⟩
    · simp only [keyedSlots, hfind, hname, hfree, Option.isSome_none, Bool.false_eq_true, ↓reduceIte,
        hcheck, hs]
    · rw [hlookup, Entries.get?, List.lookup_cons]
      by_cases hj : k = j
      · subst hj
        rw [Entries.get?_of_not_mem hk]
        simp
      · have hj' : (j == k) = false := beq_false_of_ne fun h => hj h.symm
        simp [hj, hj']

theorem nodup_of_ascending {entries : List (String × α)} (h : Entries.Ascending entries) :
    (entries.map (·.1)).Nodup := by
  rw [List.nodup_iff_pairwise_ne, List.pairwise_map]
  refine h.imp ?_
  intro a b hlt heq
  rw [heq] at hlt
  exact String.lt_irrefl _ hlt

theorem slots_object (title : String) (fs : List Field) {fields : List (String × Json)}
    (hn : (fields.map (·.1)).Nodup) (h : ∀ e ∈ fields, Field.Takes fs e) :
    ∃ s, slots title fs (.object fields) = .ok s ∧ ∀ k, s.lookup k = Entries.get? k fields := by
  have hfree : ∀ e ∈ Entries.ofList fields, List.lookup e.1 ([] : Slots) = none := fun _ _ => rfl
  obtain ⟨s, hs, hlookup⟩ := keyedSlots_of_takes
    (nodup_of_ascending (Entries.ascending_ofList fields)) hfree
    fun e he => h e (Entries.mem_of_mem_ofList he)
  refine ⟨s, hs, fun k => ?_⟩
  rw [hlookup, Entries.get?_ofList hn, List.lookup_nil, Option.or_none]

end FlowGraph.Wire
