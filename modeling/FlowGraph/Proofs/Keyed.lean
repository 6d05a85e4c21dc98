import FlowGraph.Keyed

namespace FlowGraph

variable {α : Type}

namespace Entries

theorem put_cons_of_lt {k j : String} (h : k < j) (v w : α) (es : List (String × α)) :
    put k v ((j, w) :: es) = (k, v) :: (j, w) :: es := by
  rw [put, if_pos h]

theorem put_cons_of_gt {k j : String} (h : j < k) (v w : α) (es : List (String × α)) :
    put k v ((j, w) :: es) = (j, w) :: put k v es := by
  have hn : ¬k < j := fun hk => String.lt_irrefl k (String.lt_trans hk h)
  rw [put, if_neg hn, if_pos h]

theorem put_of_lt {k : String} {v : α} {es : List (String × α)} (h : ∀ e ∈ es, e.1 < k) :
    put k v es = es ++ [(k, v)] := by
  induction es with
  | nil => rfl
  | cons a r ih =>
    obtain ⟨ha, hr⟩ := List.forall_mem_cons.1 h
    rw [put_cons_of_gt ha, ih hr, List.cons_append]

theorem mem_of_mem_foldl_put {es acc : List (String × α)} {e : String × α}
    (h : e ∈ es.foldl (fun acc e => put e.1 e.2 acc) acc) : e ∈ acc ∨ e ∈ es := by
  induction es generalizing acc with
  | nil => exact .inl h
  | cons a es ih =>
    rcases ih h with h | h
    · rcases mem_put h with rfl | h
      · exact .inr List.mem_cons_self
      · exact .inl h
    · exact .inr (List.mem_cons_of_mem a h)

theorem mem_of_mem_ofList {es : List (String × α)} {e : String × α} (h : e ∈ ofList es) : e ∈ es :=
  (mem_of_mem_foldl_put h).resolve_left List.not_mem_nil

theorem ascending_foldl_put {es acc : List (String × α)} (h : Ascending acc) :
    Ascending (es.foldl (fun acc e => put e.1 e.2 acc) acc) := by
  induction es generalizing acc with
  | nil => exact h
  | cons a es ih => exact ih h.put

theorem ascending_ofList (es : List (String × α)) : Ascending (ofList es) :=
  ascending_foldl_put List.Pairwise.nil

theorem foldl_put_of_ascending {es acc : List (String × α)} (h : Ascending (acc ++ es)) :
    es.foldl (fun acc e => put e.1 e.2 acc) acc = acc ++ es := by
  induction es generalizing acc with
  | nil => rw [List.foldl_nil, List.append_nil]
  | cons a es ih =>
    have hlt : ∀ e ∈ acc, e.1 < a.1 := fun e he =>
      (List.pairwise_append.1 h).2.2 e he a List.mem_cons_self
    rw [List.foldl_cons, put_of_lt hlt, ih, List.append_assoc, List.singleton_append]
    rwa [List.append_assoc, List.singleton_append]

theorem ofList_of_ascending {es : List (String × α)} (h : Ascending es) : ofList es = es :=
  foldl_put_of_ascending (show Ascending ([] ++ es) from h)

theorem get?_of_not_mem {k : String} {es : List (String × α)} (h : k ∉ es.map (·.1)) :
    get? k es = none := by
  induction es with
  | nil => rfl
  | cons a es ih =>
    simp only [List.map_cons, List.mem_cons, not_or] at h
    simp only [get?, Ne.symm h.1, ↓reduceIte, ih h.2]

theorem get?_foldl_put {es acc : List (String × α)} (hn : (es.map (·.1)).Nodup) (k : String) :
    get? k (es.foldl (fun acc e => put e.1 e.2 acc) acc) = (get? k es).or (get? k acc) := by
  induction es generalizing acc with
  | nil => rfl
  | cons a es ih =>
    rw [List.map_cons, List.nodup_cons] at hn
    obtain ⟨j, w⟩ := a
    rw [List.foldl_cons, ih hn.2, get?_put]
    by_cases hk : j = k
    · subst hk
      simp [get?, get?_of_not_mem hn.1]
    · simp [get?, hk]

theorem get?_ofList {es : List (String × α)} (hn : (es.map (·.1)).Nodup) (k : String) :
    get? k (ofList es) = get? k es := by
  rw [ofList, get?_foldl_put hn, get?, Option.or_none]

theorem get?_of_mem {es : List (String × α)} (h : Ascending es) {e : String × α} (he : e ∈ es) :
    get? e.1 es = some e.2 := by
  induction es with
  | nil => cases he
  | cons a es ih =>
    obtain ⟨ha, hes⟩ := List.pairwise_cons.1 h
    rcases List.mem_cons.1 he with rfl | he
    · rw [get?, if_pos rfl]
    · have hne : a.1 ≠ e.1 := fun heq => String.lt_irrefl e.1 (heq ▸ ha e he)
      rw [get?, if_neg hne, ih hes he]

theorem get?_cons_of_lt {k : String} {a : String × α} {es : List (String × α)}
    (h : Ascending (a :: es)) (hk : k < a.1) : get? k (a :: es) = none := by
  apply get?_eq_none
  intro e he
  rcases List.mem_cons.1 he with rfl | he
  · exact hk
  · exact String.lt_trans hk ((List.pairwise_cons.1 h).1 e he)

theorem get?_cons_self (a : String × α) (es : List (String × α)) : get? a.1 (a :: es) = some a.2 := by
  simp only [get?, ↓reduceIte]

theorem eq_of_get? {es fs : List (String × α)} (he : Ascending es) (hf : Ascending fs)
    (h : ∀ k, get? k es = get? k fs) : es = fs := by
  -- the first keys are the same, since neither comes before the other
  induction es generalizing fs with
  | nil =>
    cases fs with
    | nil => rfl
    | cons b fs => simpa [get?] using h b.1
  | cons a es ih =>
    cases fs with
    | nil => simpa [get?] using h a.1
    | cons b fs =>
      obtain ⟨ha, hes⟩ := List.pairwise_cons.1 he
      obtain ⟨hb, hfs⟩ := List.pairwise_cons.1 hf
      have hkeys : a.1 = b.1 := by
        apply eq_of_not_lt
        · intro hlt
          have := h a.1
          rw [get?_cons_self, get?_cons_of_lt hf hlt] at this
          cases this
        · intro hlt
          have := h b.1
          rw [get?_cons_self, get?_cons_of_lt he hlt] at this
          cases this
      have hvalues : a.2 = b.2 := by
        have := h a.1
        simpa [get?, hkeys] using this
      rw [Prod.ext hkeys hvalues]
      refine congrArg (b :: ·) (ih hes hfs fun k => ?_)
      by_cases hk : a.1 = k
      · subst hk
        rw [get?_eq_none ha, get?_eq_none fun e hmem => hkeys ▸ hb e hmem]
      · have := h k
        have hk' : b.1 ≠ k := fun hb => hk (hkeys.trans hb)
        simpa [get?, hk, hk'] using this

end Entries

theorem Keyed.ext_get? {m m' : Keyed α} (h : ∀ k, m.get? k = m'.get? k) : m = m' := by
  obtain ⟨es, he⟩ := m
  obtain ⟨fs, hf⟩ := m'
  have := Entries.eq_of_get? he hf h
  subst this
  rfl

theorem Keyed.entries_foldl_put (es : List (String × α)) (m : Keyed α) :
    (es.foldl (fun m e => m.put e.1 e.2) m).entries =
      es.foldl (fun acc e => Entries.put e.1 e.2 acc) m.entries := by
  induction es generalizing m with
  | nil => rfl
  | cons e es ih => exact ih (m.put e.1 e.2)

theorem Keyed.ofList_entries (m : Keyed α) : ofList m.entries = m := by
  have hentries : (ofList m.entries).entries = m.entries :=
    (entries_foldl_put m.entries empty).trans (Entries.ofList_of_ascending m.ascending)
  apply ext_get?
  intro k
  rw [get?, hentries, get?]

theorem Keyed.get?_of_not_contains {m : Keyed α} {k : String} (h : m.contains k = false) :
    m.get? k = none :=
  Option.isNone_iff_eq_none.1 (Option.isSome_eq_false_iff.1 h)

theorem Keyed.erase_of_not_contains {m : Keyed α} {k : String} (h : m.contains k = false) :
    m.erase k = m := by
  apply ext_get?
  intro j
  rw [get?_erase]
  split
  · next hk => rw [← hk, get?_of_not_contains h]
  · rfl

namespace Keyed

variable {β : Type}

def Within (m : Keyed α) (d : Keyed β) : Prop := ∀ k, m.contains k = true → d.contains k = true

variable {m m' : Keyed α} {d : Keyed β} {k : String}

theorem Within.not_contains (h : m.Within d) (hk : d.contains k = false) : m.contains k = false := by
  cases hc : m.contains k with
  | false => rfl
  | true => exact absurd (h k hc) (by simp [hk])

theorem Within.put (h : m.Within d) (v : β) (hm : ∀ j, k ≠ j → m'.get? j = m.get? j) :
    m'.Within (d.put k v) := by
  intro j hj
  rw [contains, get?_put]
  by_cases hk : k = j
  · rw [if_pos hk]
    rfl
  · rw [if_neg hk]
    rw [contains, hm j hk] at hj
    exact h j hj

theorem Within.erase (h : m.Within d) (k : String) : (m.erase k).Within (d.erase k) := by
  intro j hj
  rw [contains, get?_erase] at hj ⊢
  by_cases hk : k = j
  · rw [if_pos hk] at hj
    cases hj
  · rw [if_neg hk] at hj ⊢
    exact h j hj

end Keyed

end FlowGraph
