import FlowGraph.Proofs.Json.Tokens
import FlowGraph.Time.Reading

namespace FlowGraph.Instant

structure Ordinary (i : Instant) : Prop where
  year : 0 ≤ i.date.year ∧ i.date.year ≤ 9999
  second : i.time.nanos < nanosPerSecond ∨ i.time.second = 59

instance (i : Instant) : Decidable i.Ordinary :=
  decidable_of_iff ((0 ≤ i.date.year ∧ i.date.year ≤ 9999) ∧
    (i.time.nanos < nanosPerSecond ∨ i.time.second = 59)) ⟨fun h => ⟨h.1, h.2⟩, fun h => ⟨h.1, h.2⟩⟩

theorem toList_pushn (s : String) (c : Char) (k : Nat) :
    (s.pushn c k).toList = s.toList ++ List.replicate k c := by
  induction k with
  | zero => simp [String.pushn, Nat.repeat]
  | succ k ih =>
    have hpush : s.pushn c (k + 1) = (s.pushn c k).push c := rfl
    rw [hpush, String.toList_push, ih, List.append_assoc, ← List.replicate_succ']

theorem toList_padded (width n : Nat) : (padded width n).toList =
    List.replicate (width - (Nat.toDigits 10 n).length) '0' ++ Nat.toDigits 10 n := by
  have hdigits : (toString n).toList = Nat.toDigits 10 n := String.toList_ofList
  have hlength : (toString n).length = (Nat.toDigits 10 n).length := by
    rw [← String.length_toList, hdigits]
  rw [padded, String.toList_append, hdigits, hlength, toList_pushn]
  rfl

theorem length_padded {width n : Nat} (hw : 0 < width) (h : n < 10 ^ width) : (padded width n).toList.length = width := by
  have hlength := (Nat.length_toDigits_le_iff (b := 10) (by decide) hw).2 h
  rw [toList_padded, List.length_append, List.length_replicate]
  omega

theorem isDigit_padded {width n : Nat} : ∀ c ∈ (padded width n).toList, c.isDigit = true := by
  intro c hc
  rw [toList_padded] at hc
  rcases List.mem_append.1 hc with hc | hc
  · rw [(List.mem_replicate.1 hc).2]
    rfl
  · exact Nat.isDigit_of_mem_toDigits (by decide) (by decide) hc

theorem digitsValue_padded (width n : Nat) : Decimal.digitsValue (padded width n).toList = n := by
  have hzeros : ∀ k, (List.replicate k '0').foldl (fun n c => 10 * n + (c.toNat - '0'.toNat)) 0 = 0 := by
    intro k
    induction k with
    | zero => rfl
    | succ k ih => exact ih
  rw [toList_padded, Decimal.digitsValue, List.foldl_append, hzeros]
  exact Json.Reading.digitsValue_toDigits n

namespace Reading

theorem number_padded {width n : Nat} (hw : 0 < width) (h : n < 10 ^ width) (rest : List Char) :
    number width width ((padded width n).toList ++ rest) = some (n, rest) := by
  have hlength := length_padded hw h
  have htake : (((padded width n).toList ++ rest).takeWhile Char.isDigit).take width =
      (padded width n).toList := by
    rw [List.takeWhile_append_of_pos isDigit_padded, List.take_left' hlength]
  simp only [number, htake, hlength, Nat.le_refl, ↓reduceIte, digitsValue_padded,
    List.drop_left' hlength]

theorem fraction_padded {width nanos : Nat} (hw : 0 < width) (hw' : width ≤ 9)
    (h : nanos < nanosPerSecond) (hmod : nanos % 10 ^ (9 - width) = 0) {rest : List Char}
    (hrest : ∀ c ∈ rest.head?, c.isDigit = false) :
    fraction (("." ++ padded width (nanos / 10 ^ (9 - width))).toList ++ rest) =
      some (nanos, rest) := by
  have hpow : 10 ^ width * 10 ^ (9 - width) = nanosPerSecond := by
    rw [← Nat.pow_add, Nat.add_sub_cancel' hw']
    rfl
  have hlt : nanos / 10 ^ (9 - width) < 10 ^ width := by
    rw [Nat.div_lt_iff_lt_mul (Nat.pow_pos (by decide)), hpow]
    exact h
  have hback : nanos / 10 ^ (9 - width) * 10 ^ (9 - width) = nanos :=
    Nat.div_mul_cancel (Nat.dvd_of_mod_eq_zero hmod)
  generalize nanos / 10 ^ (9 - width) = n at hlt hback ⊢
  have hlength := length_padded hw hlt
  have hnone : rest.takeWhile Char.isDigit = [] := by
    cases rest with
    | nil => rfl
    | cons c r => exact List.takeWhile_cons_of_neg (by simp [hrest c rfl])
  have htake : ((padded width n).toList ++ rest).takeWhile Char.isDigit = (padded width n).toList := by
    rw [List.takeWhile_append_of_pos isDigit_padded, hnone, List.append_nil]
  have hne : (padded width n).toList ≠ [] := by
    intro hnil
    rw [hnil, List.length_nil] at hlength
    omega
  have hkept : (padded width n).toList.take 9 = (padded width n).toList :=
    List.take_of_length_le (by omega)
  have hpoint : ("." ++ padded width n).toList ++ rest = '.' :: ((padded width n).toList ++ rest) := by
    have hdot : ".".toList = ['.'] := rfl
    rw [String.toList_append, hdot, List.singleton_append, List.cons_append]
  rw [hpoint]
  simp only [fraction, htake, hne, ↓reduceIte, hkept, hlength, digitsValue_padded,
    List.drop_left' hlength]
  exact congrArg some (Prod.ext hback rfl)

theorem fraction_fractionText {nanos : Nat} (h : nanos < nanosPerSecond) {rest : List Char}
    (hrest : ∀ c ∈ rest.head?, c.isDigit = false ∧ c ≠ '.') :
    fraction ((fractionText nanos).toList ++ rest) = some (nanos, rest) := by
  have hdigit : ∀ c ∈ rest.head?, c.isDigit = false := fun c hc => (hrest c hc).1
  unfold fractionText
  split
  · next hzero =>
    subst hzero
    cases rest with
    | nil => rfl
    | cons c r =>
      rw [String.toList_empty, List.nil_append, fraction]
      rintro r' hr
      exact (hrest c rfl).2 (List.cons.inj hr).1
  · split
    · next hmod => exact @fraction_padded 3 _ (by decide) (by decide) h hmod _ hdigit
    · split
      · next hmod => exact @fraction_padded 6 _ (by decide) (by decide) h hmod _ hdigit
      · have hnine := @fraction_padded 9 _ (by decide) (by decide) h (Nat.mod_one _) _ hdigit
        simpa only [Nat.sub_self, Nat.pow_zero, Nat.div_one] using hnine

theorem scan_bind {α β : Type} {p : Scan α} {f : α → Scan β} {cs r : List Char} {a : α}
    (h : p cs = some (a, r)) : (p >>= f) cs = f a r := by
  change ((p cs).bind fun x => f x.1 x.2) = _
  rw [h]
  rfl

theorem exactly_cons (c : Char) (r : List Char) : exactly c (c :: r) = some ((), r) := by
  have htake : take (c :: r) = some (c, r) := rfl
  rw [exactly, scan_bind htake, if_neg (fun h => h rfl)]
  rfl

theorem separator_cons (r : List Char) : separator ('T' :: r) = some ((), r) := rfl

theorem offset_zero : offset (exactly ':') "+00:00".toList = some (0, []) := by
  decide +kernel

end Reading

theorem daysIn_le (y : Int) (m : Nat) : daysIn y m ≤ 31 := by
  unfold daysIn
  split
  · split <;> omega
  all_goals omega

theorem ofLocal_zero (d : Date) (t : TimeOfDay) : ofLocal d t 0 = ⟨d, t⟩ := by
  obtain ⟨hour, minute, second, nanos, hhour, hminute, hsecond, hnanos⟩ := t
  have hseconds : 3600 * hour + 60 * minute + second < secondsPerDay := by
    unfold secondsPerDay
    omega
  simp only [ofLocal, TimeOfDay.seconds, Int.sub_zero]
  rw [if_neg (by omega), if_pos (by omega)]
  simp only [TimeOfDay.moved, Int.toNat_natCast, Instant.mk.injEq, TimeOfDay.mk.injEq, true_and, and_true]
  omega

theorem of?_kept {t : TimeOfDay} (h : t.nanos < nanosPerSecond ∨ t.second = 59) :
    TimeOfDay.of? t.hour t.minute (t.second + t.nanos / nanosPerSecond)
      (t.nanos % nanosPerSecond) = some t := by
  obtain ⟨hour, minute, second, nanos, hlegal⟩ := t
  have hlegal' := hlegal
  unfold TimeOfDay.of? TimeOfDay.of?.build
  unfold nanosPerSecond at *
  dsimp only at h hlegal ⊢
  by_cases hn : nanos < 1000000000
  · have hdiv : nanos / 1000000000 = 0 := by omega
    have hmod : nanos % 1000000000 = nanos := by omega
    rw [if_neg (by omega), dif_pos (by omega)]
    simp only [hdiv, hmod, Nat.add_zero]
  · have hdiv : nanos / 1000000000 = 1 := by omega
    have hmod : nanos % 1000000000 + 1000000000 = nanos := by omega
    have hsecond : second = 59 := by omega
    rw [if_pos (by omega), dif_pos (by omega)]
    simp only [hmod, hsecond]

theorem toList_kept {i : Instant} (h : 0 ≤ i.date.year ∧ i.date.year ≤ 9999) : i.kept.toList =
    (padded 4 i.date.year.toNat).toList ++ '-' :: ((padded 2 i.date.month).toList ++
      '-' :: ((padded 2 i.date.day).toList ++ 'T' :: ((padded 2 i.time.hour).toList ++
      ':' :: ((padded 2 i.time.minute).toList ++
      ':' :: ((padded 2 (i.time.second + i.time.nanos / nanosPerSecond)).toList ++
      ((fractionText (i.time.nanos % nanosPerSecond)).toList ++ "+00:00".toList)))))) := by
  simp [kept, text, dateText, timeText, yearText, h]

open Reading in
theorem read?_kept {i : Instant} (h : i.Ordinary) : read? i.kept = some i := by
  have hdate := i.date.legal
  have htime := i.time.legal
  have hday : i.date.day < 10 ^ 2 := by
    have := daysIn_le i.date.year i.date.month
    omega
  have hsecond : i.time.second + i.time.nanos / nanosPerSecond < 10 ^ 2 := by
    unfold nanosPerSecond at htime ⊢
    omega
  have hnanos : i.time.nanos % nanosPerSecond < nanosPerSecond := Nat.mod_lt _ (by decide)
  have hyear : (i.date.year.toNat : Int) = i.date.year := Int.toNat_of_nonneg h.year.1
  have hyear' : i.date.year.toNat < 10 ^ 4 := by
    have := h.year.2
    omega
  have hof : Date.of? i.date.year i.date.month i.date.day = some i.date := dif_pos hdate
  have hoffset : ∀ c ∈ "+00:00".toList.head?, c.isDigit = false ∧ c ≠ '.' := by
    have hsign : "+00:00".toList.head? = some '+' := by decide +kernel
    intro c hc
    rw [hsign] at hc
    cases hc
    decide
  have hstrict : strict i.kept.toList = some (i, []) := by
    rw [toList_kept h.year, strict]
    rw [scan_bind (number_padded (by decide) hyear' _), scan_bind (exactly_cons '-' _)]
    rw [scan_bind (number_padded (by decide) (by omega) _), scan_bind (exactly_cons '-' _)]
    rw [scan_bind (number_padded (by decide) hday _), scan_bind (separator_cons _)]
    rw [scan_bind (number_padded (by decide) (by omega) _), scan_bind (exactly_cons ':' _)]
    rw [scan_bind (number_padded (by decide) (by omega) _), scan_bind (exactly_cons ':' _)]
    rw [scan_bind (number_padded (by decide) hsecond _)]
    rw [scan_bind (fraction_fractionText hnanos hoffset), scan_bind offset_zero]
    rw [hyear, hof, of?_kept h.second]
    change some (ofLocal i.date i.time 0, []) = _
    rw [ofLocal_zero]
  rw [read?, whole, hstrict]

end FlowGraph.Instant
