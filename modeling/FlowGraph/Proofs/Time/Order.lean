import FlowGraph.Proofs.Time.Kept
import Mathlib.Data.List.Lex
import Mathlib.Data.String.Basic

namespace FlowGraph

theorem toNat_digit {c : Char} (h : c.isDigit = true) : 48 ≤ c.toNat ∧ c.toNat ≤ 57 :=
  Char.isDigit_iff_toNat.1 h

theorem digitsValue_append (as bs : List Char) : Decimal.digitsValue (as ++ bs) =
    10 ^ bs.length * Decimal.digitsValue as + Decimal.digitsValue bs := by
  have h := @Nat.ofDigitChars_eq_ofDigitChars_zero bs (Decimal.digitsValue as)
  rw [Nat.ofDigitChars_eq_foldl, Nat.ofDigitChars_eq_foldl] at h
  rw [Decimal.digitsValue, List.foldl_append]
  exact h

theorem digitsValue_cons (c : Char) (cs : List Char) : Decimal.digitsValue (c :: cs) =
    10 ^ cs.length * (c.toNat - 48) + Decimal.digitsValue cs := by
  have hdigit : Decimal.digitsValue [c] = c.toNat - 48 := Nat.zero_add _
  rw [← List.singleton_append, digitsValue_append, hdigit]

theorem digitsValue_lt {cs : List Char} (h : ∀ c ∈ cs, c.isDigit = true) :
    Decimal.digitsValue cs < 10 ^ cs.length := by
  induction cs with
  | nil => decide
  | cons c cs ih =>
    obtain ⟨hc, hcs⟩ := List.forall_mem_cons.1 h
    have hdigit := toNat_digit hc
    have hle : 10 ^ cs.length * (c.toNat - 48) ≤ 10 ^ cs.length * 9 :=
      Nat.mul_le_mul_left _ (by omega)
    have hrest := ih hcs
    rw [digitsValue_cons, List.length_cons, Nat.pow_succ]
    omega

theorem char_lt_iff {a b : Char} : a < b ↔ a.toNat < b.toNat := Iff.rfl

theorem digits_lt_iff {as bs : List Char} (ha : ∀ c ∈ as, c.isDigit = true)
    (hb : ∀ c ∈ bs, c.isDigit = true) (hlength : as.length = bs.length) :
    as < bs ↔ Decimal.digitsValue as < Decimal.digitsValue bs := by
  induction as generalizing bs with
  | nil =>
    obtain rfl := List.length_eq_zero_iff.1 hlength.symm
    simp
  | cons a as ih =>
    cases bs with
    | nil => cases hlength
    | cons b bs =>
      obtain ⟨ha, has⟩ := List.forall_mem_cons.1 ha
      obtain ⟨hb, hbs⟩ := List.forall_mem_cons.1 hb
      have hlength : as.length = bs.length := Nat.succ.inj hlength
      have hva := digitsValue_lt has
      have hvb := digitsValue_lt hbs
      rw [← hlength] at hvb
      rw [List.cons_lt_cons_iff, ih has hbs hlength, digitsValue_cons, digitsValue_cons, ← hlength]
      have hda := toNat_digit ha
      have hdb := toNat_digit hb
      -- the first digits decide, as what follows is less than one of them
      rcases Nat.lt_trichotomy a.toNat b.toNat with h | h | h
      · have hstep := Nat.mul_le_mul_left (10 ^ as.length) (show a.toNat - 48 + 1 ≤ b.toNat - 48 by omega)
        rw [Nat.mul_succ] at hstep
        exact iff_of_true (.inl h) (by omega)
      · obtain rfl : a = b := Char.toNat_inj.1 h
        simp
      · have hstep := Nat.mul_le_mul_left (10 ^ as.length) (show b.toNat - 48 + 1 ≤ a.toNat - 48 by omega)
        rw [Nat.mul_succ] at hstep
        refine iff_of_false ?_ (by omega)
        rintro (hlt | ⟨rfl, -⟩)
        · exact absurd (char_lt_iff.1 hlt) (by omega)
        · omega

theorem digits_inj {as bs : List Char} (ha : ∀ c ∈ as, c.isDigit = true)
    (hb : ∀ c ∈ bs, c.isDigit = true) (hlength : as.length = bs.length)
    (h : Decimal.digitsValue as = Decimal.digitsValue bs) : as = bs := by
  rcases lt_trichotomy as bs with hlt | heq | hlt
  · exact absurd ((digits_lt_iff ha hb hlength).1 hlt) (by omega)
  · exact heq
  · exact absurd ((digits_lt_iff hb ha hlength.symm).1 hlt) (by omega)

theorem append_lt_append_iff {as bs xs ys : List Char} (h : as.length = bs.length) :
    as ++ xs < bs ++ ys ↔ as < bs ∨ as = bs ∧ xs < ys := by
  induction as generalizing bs with
  | nil =>
    obtain rfl := List.length_eq_zero_iff.1 h.symm
    simp
  | cons a as ih =>
    cases bs with
    | nil => cases h
    | cons b bs =>
      simp only [List.cons_append, List.cons_lt_cons_iff, ih (Nat.succ.inj h), List.cons.injEq]
      tauto

namespace Instant

variable {width m n : Nat}

theorem padded_lt_iff (hw : 0 < width) (hm : m < 10 ^ width) (hn : n < 10 ^ width)
    (xs ys : List Char) : (padded width m).toList ++ xs < (padded width n).toList ++ ys ↔
      m < n ∨ m = n ∧ xs < ys := by
  have hlength : (padded width m).toList.length = (padded width n).toList.length := by
    rw [length_padded hw hm, length_padded hw hn]
  have heq : (padded width m).toList = (padded width n).toList ↔ m = n := by
    refine ⟨fun h => ?_, fun h => by rw [h]⟩
    rw [← digitsValue_padded width m, h, digitsValue_padded]
  rw [append_lt_append_iff hlength, digits_lt_iff isDigit_padded isDigit_padded hlength,
    digitsValue_padded, digitsValue_padded, heq]

theorem padded_append {v k : Nat} (hw : 0 < width) (hv : 0 < v) (hm : m < 10 ^ width)
    (hk : k < 10 ^ v) : (padded (width + v) (m * 10 ^ v + k)).toList =
      (padded width m).toList ++ (padded v k).toList := by
  have hlt : m * 10 ^ v + k < 10 ^ (width + v) := by
    have hle := Nat.mul_le_mul_right (10 ^ v) (Nat.succ_le_of_lt hm)
    rw [Nat.succ_mul, ← Nat.pow_add] at hle
    omega
  apply digits_inj isDigit_padded
  · intro c hc
    rcases List.mem_append.1 hc with hc | hc <;> exact isDigit_padded c hc
  · rw [List.length_append, length_padded (by omega) hlt, length_padded hw hm, length_padded hv hk]
  · rw [digitsValue_append, digitsValue_padded, digitsValue_padded, digitsValue_padded,
      length_padded hv hk, Nat.mul_comm]

def trimmed (zone : List Char) : List Nat → List Char
  | [] => zone
  | x :: xs => if (x :: xs).all (· = 0) then zone else (padded 3 x).toList ++ trimmed zone xs

theorem trimmed_of_zero {zone : List Char} {xs : List Nat} (h : xs.all (· = 0) = true) :
    trimmed zone xs = zone := by
  cases xs with
  | nil => rfl
  | cons x xs => rw [trimmed, if_pos h]

theorem zero_lt_of_all {xs ys : List Nat} (hlength : xs.length = ys.length)
    (hx : xs.all (· = 0) = true) (hy : ys.all (· = 0) = false) : xs < ys := by
  induction xs generalizing ys with
  | nil =>
    obtain rfl := List.length_eq_zero_iff.1 hlength.symm
    cases hy
  | cons x xs ih =>
    cases ys with
    | nil => cases hlength
    | cons y ys =>
      simp only [List.all_cons, Bool.and_eq_true, decide_eq_true_eq] at hx
      obtain ⟨rfl, hx⟩ := hx
      rw [List.cons_lt_cons_iff]
      rcases Nat.eq_zero_or_pos y with rfl | hpos
      · exact .inr ⟨rfl, ih (Nat.succ.inj hlength) hx (by simpa using hy)⟩
      · exact .inl hpos

theorem eq_of_all {xs ys : List Nat} (hlength : xs.length = ys.length)
    (hx : xs.all (· = 0) = true) (hy : ys.all (· = 0) = true) : xs = ys := by
  simp only [List.all_eq_true, decide_eq_true_eq] at hx hy
  rw [List.eq_replicate_iff.2 ⟨rfl, hx⟩, List.eq_replicate_iff.2 ⟨rfl, hy⟩, hlength]

theorem zone_lt_padded (zone xs : List Char) (hn : n < 1000) :
    '+' :: zone < (padded 3 n).toList ++ xs := by
  have hlength : (padded 3 n).toList.length = 3 := length_padded (by decide) hn
  cases hp : (padded 3 n).toList with
  | nil =>
    rw [hp] at hlength
    cases hlength
  | cons c cs =>
    have hdigit := toNat_digit (isDigit_padded c (by rw [hp]; exact List.mem_cons_self))
    have hsign : '+'.toNat = 43 := rfl
    rw [List.cons_append, List.cons_lt_cons_iff]
    exact .inl (char_lt_iff.2 (by omega))

theorem trimmed_lt_iff (zone : List Char) {xs ys : List Nat} (hlength : xs.length = ys.length)
    (hx : ∀ x ∈ xs, x < 1000) (hy : ∀ y ∈ ys, y < 1000) :
    trimmed ('+' :: zone) xs < trimmed ('+' :: zone) ys ↔ xs < ys := by
  induction xs generalizing ys with
  | nil =>
    obtain rfl := List.length_eq_zero_iff.1 hlength.symm
    simp
  | cons x xs ih =>
    cases ys with
    | nil => cases hlength
    | cons y ys =>
      obtain ⟨hx₁, hxs⟩ := List.forall_mem_cons.1 hx
      obtain ⟨hy₁, hys⟩ := List.forall_mem_cons.1 hy
      cases hxz : (x :: xs).all (· = 0) <;> cases hyz : (y :: ys).all (· = 0)
      · rw [trimmed, trimmed, hxz, hyz, if_neg nofun, if_neg nofun,
          padded_lt_iff (by decide) hx₁ hy₁, ih (Nat.succ.inj hlength) hxs hys, List.cons_lt_cons_iff]
      · rw [trimmed_of_zero hyz, trimmed, hxz, if_neg nofun]
        exact iff_of_false (lt_asymm (zone_lt_padded zone _ hx₁)) (lt_asymm (zero_lt_of_all hlength.symm hyz hxz))
      · rw [trimmed_of_zero hxz, trimmed, hyz, if_neg nofun]
        exact iff_of_true (zone_lt_padded zone _ hy₁) (zero_lt_of_all hlength hxz hyz)
      · rw [trimmed_of_zero hxz, trimmed_of_zero hyz, eq_of_all hlength hxz hyz]
        exact iff_of_false (lt_irrefl _) (lt_irrefl _)

def thousands (nanos : Nat) : List Nat := [nanos / 1000000, nanos / 1000 % 1000, nanos % 1000]

theorem thousands_lt_iff : thousands m < thousands n ↔ m < n := by
  simp only [thousands, List.cons_lt_cons_iff, List.not_lt_nil, and_false, or_false]
  omega

theorem mem_thousands {nanos : Nat} (h : nanos < nanosPerSecond) :
    ∀ x ∈ thousands nanos, x < 1000 := by
  unfold nanosPerSecond at h
  intro x hx
  simp only [thousands, List.mem_cons, List.not_mem_nil, or_false] at hx
  omega

theorem padded_six {k : Nat} (hk : k < 1000000) :
    (padded 6 k).toList = (padded 3 (k / 1000)).toList ++ (padded 3 (k % 1000)).toList := by
  have h := @padded_append 3 (k / 1000) 3 (k % 1000) (by decide) (by decide) (by omega) (by omega)
  rwa [show k / 1000 * 10 ^ 3 + k % 1000 = k by omega] at h

theorem padded_nine {k : Nat} (hk : k < 1000000000) : (padded 9 k).toList =
    (padded 3 (k / 1000000)).toList ++ (padded 6 (k % 1000000)).toList := by
  have h := @padded_append 3 (k / 1000000) 6 (k % 1000000) (by decide) (by decide) (by omega)
    (by omega)
  rwa [show k / 1000000 * 10 ^ 6 + k % 1000000 = k by omega] at h

theorem fraction_trimmed {nanos : Nat} (h : nanos < nanosPerSecond) (zone : List Char) :
    (fractionText nanos).toList ++ zone =
      if nanos = 0 then zone else '.' :: trimmed zone (thousands nanos) := by
  unfold nanosPerSecond at h
  have hpoint : ∀ s : String, ("." ++ s).toList = '.' :: s.toList := fun s => by simp
  unfold fractionText thousands
  by_cases hzero : nanos = 0
  · rw [if_pos hzero, if_pos hzero]
    rfl
  rw [if_neg hzero, if_neg hzero]
  by_cases hmillion : nanos % 1000000 = 0
  · have hb : nanos / 1000 % 1000 = 0 := by omega
    have hc : nanos % 1000 = 0 := by omega
    have ha : nanos / 1000000 ≠ 0 := by omega
    rw [if_pos hmillion, hpoint, hb, hc]
    simp [trimmed, ha]
  rw [if_neg hmillion]
  by_cases hthousand : nanos % 1000 = 0
  · have hb : nanos / 1000 % 1000 ≠ 0 := by omega
    rw [if_pos hthousand, hpoint, padded_six (by omega), show nanos / 1000 / 1000 = nanos / 1000000 by omega, hthousand]
    simp [trimmed, hb]
  · rw [if_neg hthousand, hpoint, padded_nine h, padded_six (Nat.mod_lt _ (by decide)),
      show nanos % 1000000 / 1000 = nanos / 1000 % 1000 by omega,
      show nanos % 1000000 % 1000 = nanos % 1000 by omega]
    simp [trimmed, hthousand]

theorem fraction_lt_iff (hm : m < nanosPerSecond) (hn : n < nanosPerSecond) (zone : List Char) :
    (fractionText m).toList ++ '+' :: zone < (fractionText n).toList ++ '+' :: zone ↔ m < n := by
  have hpoint : ∀ xs ys : List Char, '+' :: xs < '.' :: ys := fun xs ys =>
    List.cons_lt_cons_iff.2 (.inl (by decide))
  rw [fraction_trimmed hm, fraction_trimmed hn]
  by_cases hm₀ : m = 0 <;> by_cases hn₀ : n = 0
  · simp [hm₀, hn₀]
  · rw [if_pos hm₀, if_neg hn₀]
    exact iff_of_true (hpoint _ _) (by omega)
  · rw [if_neg hm₀, if_pos hn₀]
    exact iff_of_false (lt_asymm (hpoint _ _)) (by omega)
  · have hlength : (thousands m).length = (thousands n).length := rfl
    rw [if_neg hm₀, if_neg hn₀, List.cons_lt_cons_iff,
      trimmed_lt_iff zone hlength (mem_thousands hm) (mem_thousands hn), thousands_lt_iff]
    simp

def parts (i : Instant) : List Int :=
  [i.date.year, i.date.month, i.date.day, i.time.hour, i.time.minute, i.time.second, i.time.nanos]

theorem parts_injective : Function.Injective parts := by
  rintro ⟨⟨_, _, _, _⟩, ⟨_, _, _, _, _⟩⟩ ⟨⟨_, _, _, _⟩, ⟨_, _, _, _, _⟩⟩ h
  simpa [parts, and_assoc, Int.natCast_inj] using h

instance : LinearOrder Instant := .lift' parts parts_injective

theorem lt_iff_parts {i j : Instant} : i < j ↔ i.parts < j.parts := Iff.rfl

theorem second_lt_iff {t u : TimeOfDay} (ht : t.nanos < nanosPerSecond ∨ t.second = 59)
    (hu : u.nanos < nanosPerSecond ∨ u.second = 59) :
    (t.second + t.nanos / nanosPerSecond < u.second + u.nanos / nanosPerSecond ∨
      t.second + t.nanos / nanosPerSecond = u.second + u.nanos / nanosPerSecond ∧
        t.nanos % nanosPerSecond < u.nanos % nanosPerSecond) ↔
    t.second < u.second ∨ t.second = u.second ∧ t.nanos < u.nanos := by
  have htlegal := t.legal
  have hulegal := u.legal
  unfold nanosPerSecond at *
  omega

theorem kept_lt_kept_iff {i j : Instant} (hi : i.Ordinary) (hj : j.Ordinary) :
    i.kept < j.kept ↔ i < j := by
  have hidate := i.date.legal
  have hjdate := j.date.legal
  have hitime := i.time.legal
  have hjtime := j.time.legal
  have hiday := daysIn_le i.date.year i.date.month
  have hjday := daysIn_le j.date.year j.date.month
  have hsecond : ∀ t : TimeOfDay, t.second + t.nanos / nanosPerSecond < 10 ^ 2 := by
    intro t
    have htime := t.legal
    unfold nanosPerSecond at htime ⊢
    omega
  have hnanos : ∀ k : Nat, k % nanosPerSecond < nanosPerSecond := fun k => Nat.mod_lt _ (by decide)
  have hzone : "+00:00".toList = '+' :: "00:00".toList := by decide +kernel
  have hskip : ∀ (c : Char) (xs ys : List Char), c :: xs < c :: ys ↔ xs < ys := by
    intro c xs ys
    simp
  rw [String.lt_iff_toList_lt, toList_kept hi.year, toList_kept hj.year, hzone]
  obtain ⟨hiyear, hiyear'⟩ := hi.year
  obtain ⟨hjyear, hjyear'⟩ := hj.year
  rw [padded_lt_iff (by decide) (by omega) (by omega), hskip,
    padded_lt_iff (by decide) (by omega) (by omega), hskip,
    padded_lt_iff (by decide) (by omega) (by omega), hskip,
    padded_lt_iff (by decide) (by omega) (by omega), hskip,
    padded_lt_iff (by decide) (by omega) (by omega), hskip,
    padded_lt_iff (by decide) (hsecond _) (hsecond _), fraction_lt_iff (hnanos _) (hnanos _),
    second_lt_iff hi.second hj.second]
  simp only [lt_iff_parts, parts, List.cons_lt_cons_iff, List.not_lt_nil, and_false, or_false]
  omega

theorem kept_le_kept_iff {i j : Instant} (hi : i.Ordinary) (hj : j.Ordinary) :
    i.kept ≤ j.kept ↔ i ≤ j := by
  rw [← not_lt, ← not_lt, kept_lt_kept_iff hj hi]

end Instant

end FlowGraph
