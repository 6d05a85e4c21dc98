import FlowGraph.Proofs.Json.Members
import FlowGraph.Proofs.Json.Tokens

namespace FlowGraph.Json

open Reading (Stops skip isBlank)

mutual

def steps : Json → Nat
  | arr items => stepsItems items + 1
  | obj fields => stepsFields fields + 1
  | null | bool _ | num _ | str _ => 1

def stepsItems : List Json → Nat
  | [] => 0
  | x :: xs => max (steps x) (stepsItems xs) + 1

def stepsFields : List (String × Json) → Nat
  | [] => 0
  | (_, x) :: xs => max (steps x) (stepsFields xs) + 1

end

/-- All numbers in a value are read as they are written. -/
def ReadsBack (v : Json) : Prop := ∀ n ∈ v.numbers, n.ReadsBack

instance (v : Json) : Decidable v.ReadsBack :=
  inferInstanceAs (Decidable (∀ n ∈ v.numbers, n.ReadsBack))

theorem ReadsBack.member {v x : Json} (h : v.ReadsBack) (hx : x ∈ v.members) : x.ReadsBack :=
  fun n hn => h n (numbers_subset_of_mem hx hn)

theorem skip_cons {c : Char} (hc : isBlank c = false) (cs : List Char) : skip (c :: cs) = c :: cs := by
  simp [skip, hc]

theorem number_head {cs r : List Char} {n : Number} (h : Reading.number cs = some (n, r)) :
    ∃ c cs', cs = c :: cs' ∧ (c = '-' ∨ c.isDigit = true) := by
  cases cs with
  | nil => cases h
  | cons c cs =>
    refine ⟨c, cs, rfl, ?_⟩
    by_cases hc : c = '-'
    · exact .inl hc
    · right
      rw [Reading.number] at h
      · obtain ⟨ds, r₁, fs, r₂, e, hd, hne, -⟩ := Reading.unsigned_eq_some.1 h
        by_cases hdigit : c.isDigit = true
        · exact hdigit
        · simp only [Reading.digits, List.takeWhile_cons, hdigit] at hd
          exact absurd (Prod.mk.inj hd).1.symm hne
      · rintro r' hr
        exact hc (List.cons.inj hr).1

theorem of_digit {c : Char} (h : c = '-' ∨ c.isDigit = true) :
    isBlank c = false ∧ c ≠ ']' ∧ c ≠ 'n' ∧ c ≠ 't' ∧ c ≠ 'f' ∧ c ≠ '"' ∧ c ≠ '[' ∧ c ≠ '{' := by
  rcases h with rfl | h
  · decide
  · refine ⟨?_, ?_, ?_, ?_, ?_, ?_, ?_, ?_⟩
    · cases hb : isBlank c with
      | false => rfl
      | true =>
        simp only [isBlank, Bool.or_eq_true, decide_eq_true_eq] at hb
        rcases hb with ((rfl | rfl) | rfl) | rfl <;> exact absurd h (by decide)
    all_goals
      rintro rfl
      exact absurd h (by decide)

theorem emit_head {v : Json} (h : v.ReadsBack) (t : List Char) :
    ∃ c cs, v.emit t = c :: cs ∧ isBlank c = false ∧ c ≠ ']' := by
  cases v with
  | num n =>
    obtain ⟨c, cs, hcs, hc⟩ := number_head (h n (List.mem_singleton.2 rfl))
    exact ⟨c, cs ++ t, by rw [emit, hcs, List.cons_append], (of_digit hc).1, (of_digit hc).2.1⟩
  | bool b => cases b <;> exact ⟨_, _, rfl, by decide, by decide⟩
  | _ => exact ⟨_, _, rfl, by decide, by decide⟩

theorem emitItems_head {items : List Json} (hne : items ≠ []) (h : ∀ x ∈ items, x.ReadsBack)
    (t : List Char) : ∃ c cs, emitItems items t = c :: cs ∧ isBlank c = false ∧ c ≠ ']' := by
  match items, hne with
  | [x], _ => exact emit_head (h x List.mem_cons_self) t
  | x :: y :: xs, _ => exact emit_head (h x List.mem_cons_self) _

theorem emitFields_head {fields : List (String × Json)} (hne : fields ≠ []) (t : List Char) :
    ∃ cs, emitFields fields t = '"' :: cs := by
  match fields, hne with
  | [(k, x)], _ => exact ⟨_, rfl⟩
  | (k, x) :: y :: xs, _ => exact ⟨_, rfl⟩

theorem value_number {c : Char} (h : c = '-' ∨ c.isDigit = true) (room fuel : Nat) (cs : List Char) :
    Reading.value room (fuel + 1) (c :: cs) =
      (Reading.number (c :: cs)).map fun (n, r) => (num n, r) := by
  obtain ⟨hblank, -, hn, ht, hf, hq, ha, ho⟩ := of_digit h
  rw [Reading.value.eq_def]
  dsimp only
  rw [skip_cons hblank]
  split
  · next heq => exact absurd (List.cons.inj heq).1 hn
  · next heq => exact absurd (List.cons.inj heq).1 ht
  · next heq => exact absurd (List.cons.inj heq).1 hf
  · next heq => exact absurd (List.cons.inj heq).1 hq
  · next heq => exact absurd (List.cons.inj heq).1 ha
  · next heq => exact absurd (List.cons.inj heq).1 ho
  · rfl

def Returns (v : Json) : Prop :=
  ∀ {room fuel : Nat} {rest : List Char}, v.nesting ≤ room → v.steps ≤ fuel → Stops rest →
    Reading.value room fuel (v.emit rest) = some (v, rest)

theorem stops_cons {c : Char} (hc : c = ',' ∨ c = ']' ∨ c = '}') (cs : List Char) :
    Stops (c :: cs) := by
  intro d hd
  obtain rfl : c = d := Option.some.inj hd
  rcases hc with rfl | rfl | rfl <;> decide

theorem items_emitItems {items : List Json} (hne : items ≠ []) (h : ∀ x ∈ items, x.Returns)
    {room fuel : Nat} (hroom : ∀ x ∈ items, x.nesting ≤ room) (hfuel : stepsItems items ≤ fuel)
    (rest : List Char) :
    Reading.items room fuel (emitItems items (']' :: rest)) = some (items, rest) := by
  induction items generalizing fuel with
  | nil => exact absurd rfl hne
  | cons x xs ih =>
    obtain ⟨hx, hxs⟩ := List.forall_mem_cons.1 h
    obtain ⟨hroomx, hroomxs⟩ := List.forall_mem_cons.1 hroom
    rw [stepsItems] at hfuel
    cases fuel with
    | zero => omega
    | succ fuel =>
      have hstepsx : x.steps ≤ fuel := by omega
      have hstepsxs : stepsItems xs ≤ fuel := by omega
      cases xs with
      | nil =>
        rw [emitItems, Reading.items, hx hroomx hstepsx (stops_cons (.inr (.inl rfl)) rest)]
        simp only
        rw [skip_cons (by decide)]
        rfl
      | cons y ys =>
        rw [emitItems, Reading.items, hx hroomx hstepsx (stops_cons (.inl rfl) _)]
        simp only
        rw [skip_cons (by decide)]
        simp only
        rw [ih (List.cons_ne_nil y ys) hxs hroomxs hstepsxs, Option.map_some]

theorem fields_quoted (room fuel : Nat) (k : String) (cs : List Char) :
    Reading.fields room (fuel + 1) (quoted k (':' :: cs)) =
      match Reading.value room fuel cs with
      | none => none
      | some (x, r) =>
        match skip r with
        | ',' :: r => (Reading.fields room fuel r).map fun (xs, r) => ((k, x) :: xs, r)
        | '}' :: r => some ([(k, x)], r)
        | _ => none := by
  rw [Reading.fields, quoted, skip_cons (by decide)]
  simp only
  rw [Reading.string_quoted]
  simp only
  rw [skip_cons (by decide)]
  rfl

theorem fields_emitFields {fields : List (String × Json)} (hne : fields ≠ [])
    (h : ∀ x ∈ fields.map (·.2), x.Returns) {room fuel : Nat}
    (hroom : ∀ x ∈ fields.map (·.2), x.nesting ≤ room) (hfuel : stepsFields fields ≤ fuel)
    (rest : List Char) :
    Reading.fields room fuel (emitFields fields ('}' :: rest)) = some (fields, rest) := by
  induction fields generalizing fuel with
  | nil => exact absurd rfl hne
  | cons e es ih =>
    obtain ⟨k, x⟩ := e
    obtain ⟨hx, hes⟩ := List.forall_mem_cons.1 h
    obtain ⟨hroomx, hroomes⟩ := List.forall_mem_cons.1 hroom
    rw [stepsFields] at hfuel
    cases fuel with
    | zero => omega
    | succ fuel =>
      have hstepsx : x.steps ≤ fuel := by omega
      have hstepses : stepsFields es ≤ fuel := by omega
      cases es with
      | nil =>
        rw [emitFields, fields_quoted, hx hroomx hstepsx (stops_cons (.inr (.inr rfl)) rest)]
        simp only
        rw [skip_cons (by decide)]
        rfl
      | cons f fs =>
        rw [emitFields, fields_quoted, hx hroomx hstepsx (stops_cons (.inl rfl) _)]
        simp only
        rw [skip_cons (by decide)]
        simp only
        rw [ih (List.cons_ne_nil f fs) hes hroomes hstepses, Option.map_some]

theorem exists_fuel {v : Json} {fuel : Nat} (h : v.steps ≤ fuel) : ∃ m, fuel = m + 1 := by
  have hpos : 0 < v.steps := by cases v <;> simp [steps]
  exact ⟨fuel - 1, by omega⟩

theorem returns_arr {items : List Json} (h : ∀ x ∈ items, x.ReadsBack)
    (hitems : ∀ x ∈ items, x.Returns) : (arr items).Returns := by
  intro room fuel rest hroom hfuel _
  obtain ⟨room, rfl⟩ : ∃ m, room = m + 1 := ⟨room - 1, by rw [nesting] at hroom; omega⟩
  obtain ⟨fuel, rfl⟩ := exists_fuel hfuel
  have hdeep : ∀ x ∈ items, x.nesting ≤ room := nesting_le_succ.1 hroom
  rw [steps, Nat.succ_le_succ_iff] at hfuel
  rw [emit, Reading.value, skip_cons (by decide)]
  simp only
  by_cases hne : items = []
  · subst hne
    rw [emitItems, skip_cons (by decide)]
    rfl
  · have hread := items_emitItems hne hitems hdeep hfuel rest
    -- the reader tells an empty list by what comes first
    obtain ⟨c, cs, hcs, hblank, hc⟩ := emitItems_head hne h (']' :: rest)
    rw [hcs] at hread ⊢
    rw [skip_cons hblank]
    split
    · next heq => exact absurd (List.cons.inj heq).1 hc
    · rw [hread, Option.map_some]

theorem returns_obj {fields : List (String × Json)} (hvalues : ∀ x ∈ fields.map (·.2), x.Returns) :
    (obj fields).Returns := by
  intro room fuel rest hroom hfuel _
  obtain ⟨room, rfl⟩ : ∃ m, room = m + 1 := ⟨room - 1, by rw [nesting] at hroom; omega⟩
  obtain ⟨fuel, rfl⟩ := exists_fuel hfuel
  have hdeep : ∀ x ∈ fields.map (·.2), x.nesting ≤ room := nesting_le_succ.1 hroom
  rw [steps, Nat.succ_le_succ_iff] at hfuel
  rw [emit, Reading.value, skip_cons (by decide)]
  simp only
  by_cases hne : fields = []
  · subst hne
    rw [emitFields, skip_cons (by decide)]
    rfl
  · have hread := fields_emitFields hne hvalues hdeep hfuel rest
    obtain ⟨cs, hcs⟩ := emitFields_head hne ('}' :: rest)
    rw [hcs] at hread ⊢
    rw [skip_cons (by decide)]
    split
    · next heq => exact absurd (List.cons.inj heq).1 (by decide)
    · rw [hread, Option.map_some]

theorem ReadsBack.returns {v : Json} (h : v.ReadsBack) : v.Returns := by
  induction v using induct with
  | h v ih =>
    cases v with
    | arr items =>
      have hitems : ∀ x ∈ items, x.ReadsBack := fun x hx => h.member hx
      exact @returns_arr items hitems fun x hx => ih x hx (hitems x hx)
    | obj fields => exact @returns_obj fields fun x hx => ih x hx (h.member hx)
    | null =>
      intro room fuel rest _ hfuel _
      obtain ⟨fuel, rfl⟩ := exists_fuel hfuel
      rw [emit, Reading.value, skip_cons (by decide)]
      rfl
    | bool b =>
      intro room fuel rest _ hfuel _
      obtain ⟨fuel, rfl⟩ := exists_fuel hfuel
      cases b <;> rw [emit, Reading.value, skip_cons (by decide)] <;> rfl
    | num n =>
      intro room fuel rest _ hfuel hrest
      obtain ⟨fuel, rfl⟩ := exists_fuel hfuel
      have hn := h n (List.mem_singleton.2 rfl)
      obtain ⟨c, cs, hcs, hc⟩ := number_head hn
      have hread := hn.before hrest
      rw [emit]
      rw [hcs, List.cons_append] at hread ⊢
      rw [value_number hc, hread, Option.map_some]
    | str s =>
      intro room fuel rest _ hfuel _
      obtain ⟨fuel, rfl⟩ := exists_fuel hfuel
      rw [emit, quoted, Reading.value, skip_cons (by decide)]
      simp only
      rw [Reading.string_quoted, Option.map_some]

theorem length_escaped (c : Char) (t : List Char) : t.length < (escaped c t).length := by
  unfold escaped
  split
  all_goals try (simp only [List.length_cons]; omega)
  split <;> simp only [List.length_cons] <;> omega

theorem length_quoted (s : String) (t : List Char) : t.length + 2 ≤ (quoted s t).length := by
  have hfoldr : ∀ cs : List Char, t.length + 1 ≤ (cs.foldr escaped ('"' :: t)).length := by
    intro cs
    induction cs with
    | nil => exact Nat.le_refl _
    | cons c cs ih =>
      have := length_escaped c (cs.foldr escaped ('"' :: t))
      rw [List.foldr_cons]
      omega
  have := hfoldr s.toList
  rw [quoted, List.length_cons]
  omega

theorem stepsItems_le {items : List Json} {t : List Char}
    (h : ∀ x ∈ items, ∀ t : List Char, x.steps + 2 * t.length ≤ 2 * (x.emit t).length) :
    stepsItems items + 2 * t.length ≤ 2 * (emitItems items t).length + 1 := by
  induction items with
  | nil => simp [stepsItems, emitItems]
  | cons x xs ih =>
    obtain ⟨hx, hxs⟩ := List.forall_mem_cons.1 h
    have hrest := ih hxs
    cases xs with
    | nil =>
      have := hx t
      rw [stepsItems, emitItems]
      simp only [stepsItems]
      omega
    | cons y ys =>
      have := hx (',' :: emitItems (y :: ys) t)
      have hpos : 0 < x.steps := by cases x <;> simp [steps]
      rw [stepsItems, emitItems]
      rw [List.length_cons] at this
      omega

theorem stepsFields_le {fields : List (String × Json)} {t : List Char}
    (h : ∀ x ∈ fields.map (·.2), ∀ t : List Char,
      x.steps + 2 * t.length ≤ 2 * (x.emit t).length) :
    stepsFields fields + 2 * t.length ≤ 2 * (emitFields fields t).length + 1 := by
  induction fields with
  | nil => simp [stepsFields, emitFields]
  | cons e es ih =>
    obtain ⟨k, x⟩ := e
    obtain ⟨hx, hes⟩ := List.forall_mem_cons.1 h
    have hrest := ih hes
    cases es with
    | nil =>
      have hval := hx t
      have hkey := length_quoted k (':' :: x.emit t)
      rw [stepsFields, emitFields]
      simp only [stepsFields]
      rw [List.length_cons] at hkey
      dsimp only at hval
      omega
    | cons f fs =>
      have hval := hx (',' :: emitFields (f :: fs) t)
      have hkey := length_quoted k (':' :: x.emit (',' :: emitFields (f :: fs) t))
      rw [stepsFields, emitFields]
      rw [List.length_cons] at hkey hval
      dsimp only at hval
      omega

theorem steps_le {v : Json} (h : v.ReadsBack) (t : List Char) :
    v.steps + 2 * t.length ≤ 2 * (v.emit t).length := by
  induction v using induct generalizing t with
  | h v ih =>
    cases v with
    | num n =>
      obtain ⟨c, cs, hcs, -⟩ := number_head (h n (List.mem_singleton.2 rfl))
      rw [steps, emit, hcs, List.length_append, List.length_cons]
      omega
    | bool b => cases b <;> simp only [steps, emit, List.length_cons] <;> omega
    | null => simp only [steps, emit, List.length_cons]; omega
    | str s =>
      have := length_quoted s t
      rw [steps, emit]
      omega
    | arr items =>
      have hitems : ∀ x ∈ items, ∀ t : List Char, x.steps + 2 * t.length ≤ 2 * (x.emit t).length :=
        fun x hx => ih x hx (h.member hx)
      have := stepsItems_le (t := ']' :: t) hitems
      rw [steps, emit]
      rw [List.length_cons] at this ⊢
      omega
    | obj fields =>
      have hvalues : ∀ x ∈ fields.map (·.2), ∀ t : List Char,
          x.steps + 2 * t.length ≤ 2 * (x.emit t).length := fun x hx => ih x hx (h.member hx)
      have := stepsFields_le (t := '}' :: t) hvalues
      rw [steps, emit]
      rw [List.length_cons] at this ⊢
      omega

theorem value_emit {v : Json} (h : v.ReadsBack) {room : Nat} (hdeep : v.nesting ≤ room) :
    Reading.value room (2 * (v.emit []).length + 2) (v.emit []) = some (v, []) := by
  have hfuel : v.steps ≤ 2 * (v.emit []).length + 2 := by
    have := steps_le h []
    rw [List.length_nil] at this
    omega
  have hstops : Stops [] := nofun
  exact h.returns hdeep hfuel hstops

theorem asWritten?_compact {v : Json} (h : v.ReadsBack) (hdeep : v.nesting ≤ maxNesting) :
    asWritten? v.compact = some v := by
  rw [asWritten?, leading?, compact, String.toList_ofList, value_emit h hdeep]
  rfl

theorem emitFields_append {fields more : List (String × Json)} (hfields : fields ≠ [])
    (hmore : more ≠ []) (t : List Char) :
    emitFields (fields ++ more) t = emitFields fields (',' :: emitFields more t) := by
  induction fields with
  | nil => exact absurd rfl hfields
  | cons e es ih =>
    cases es with
    | nil =>
      cases more with
      | nil => exact absurd rfl hmore
      | cons => rfl
    | cons f fs =>
      have hrest := ih (List.cons_ne_nil f fs)
      rw [List.cons_append] at hrest
      simp only [List.cons_append, emitFields, hrest]

theorem fields_emitFields_comma {fields : List (String × Json)} (hne : fields ≠ [])
    (h : ∀ x ∈ fields.map (·.2), x.Returns) {room fuel : Nat}
    (hroom : ∀ x ∈ fields.map (·.2), x.nesting ≤ room) (hfuel : stepsFields fields ≤ fuel)
    (rest : List Char) :
    Reading.fields room fuel (emitFields fields (',' :: rest)) =
      (Reading.fields room (fuel - fields.length) rest).map fun (xs, r) => (fields ++ xs, r) := by
  induction fields generalizing fuel with
  | nil => exact absurd rfl hne
  | cons e es ih =>
    obtain ⟨k, x⟩ := e
    obtain ⟨hx, hes⟩ := List.forall_mem_cons.1 h
    obtain ⟨hroomx, hroomes⟩ := List.forall_mem_cons.1 hroom
    rw [stepsFields] at hfuel
    cases fuel with
    | zero => omega
    | succ fuel =>
      have hstepsx : x.steps ≤ fuel := by omega
      have hstepses : stepsFields es ≤ fuel := by omega
      have hlength : fuel + 1 - ((k, x) :: es).length = fuel - es.length := by
        rw [List.length_cons]
        omega
      rw [hlength]
      cases es with
      | nil =>
        rw [emitFields, fields_quoted, hx hroomx hstepsx (stops_cons (.inl rfl) rest)]
        simp only
        rw [skip_cons (by decide)]
        rfl
      | cons f fs =>
        rw [emitFields, fields_quoted, hx hroomx hstepsx (stops_cons (.inl rfl) _)]
        simp only
        rw [skip_cons (by decide)]
        simp only
        rw [ih (List.cons_ne_nil f fs) hes hroomes hstepses, Option.map_map]
        rfl

theorem value_obj {fields : List (String × Json)} (hne : fields ≠ []) (room fuel : Nat)
    (rest : List Char) :
    Reading.value (room + 1) (fuel + 1) ('{' :: emitFields fields rest) =
      (Reading.fields room fuel (emitFields fields rest)).map fun (xs, r) => (obj xs, r) := by
  obtain ⟨cs, hcs⟩ := emitFields_head hne rest
  rw [Reading.value, skip_cons (by decide)]
  simp only
  rw [hcs, skip_cons (by decide)]
  split
  · next heq => exact absurd (List.cons.inj heq).1 (by decide)
  · rfl

theorem asWritten?_compact_append {fields more : List (String × Json)} (hfields : fields ≠ [])
    (hmore : more ≠ []) (h : ∀ x ∈ fields.map (·.2), x.ReadsBack)
    (hdeep : ∀ x ∈ fields.map (·.2), x.nesting < maxNesting) {v : Json}
    (hv : asWritten? (obj (fields ++ more)).compact = some v) : ∃ xs, v = obj (fields ++ xs) := by
  have hreturns : ∀ x ∈ fields.map (·.2), x.Returns := fun x hx => (h x hx).returns
  have hroom : ∀ x ∈ fields.map (·.2), x.nesting ≤ 126 := fun x hx => Nat.le_of_lt_succ (hdeep x hx)
  have hsteps := @stepsFields_le fields (',' :: emitFields more ['}'])
    fun x hx => steps_le (h x hx)
  have htext : (obj (fields ++ more)).compact.toList =
      '{' :: emitFields fields (',' :: emitFields more ['}']) := by
    rw [compact, String.toList_ofList, emit, emitFields_append hfields hmore]
  have hread : ∀ fuel, stepsFields fields ≤ fuel →
      Reading.value maxNesting (fuel + 1) ('{' :: emitFields fields (',' :: emitFields more ['}'])) =
        (Reading.fields 126 (fuel - fields.length) (emitFields more ['}'])).map
          fun (xs, r) => (obj (fields ++ xs), r) := by
    intro fuel hfuel
    rw [maxNesting, value_obj hfields, fields_emitFields_comma hfields hreturns hroom hfuel,
      Option.map_map]
    rfl
  rw [asWritten?, leading?] at hv
  simp only [htext, List.length_cons] at hv
  rw [hread _ (by omega), Option.map_map] at hv
  split at hv
  · next v' heq =>
    obtain ⟨⟨xs, r⟩, -, hxs⟩ := Option.map_eq_some_iff.1 heq
    cases hv
    exact ⟨xs, (Prod.mk.inj hxs).1.symm⟩
  · cases hv

end FlowGraph.Json
