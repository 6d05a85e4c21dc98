import FlowGraph.Expression.Evaluation
import FlowGraph.Json.Display
import FlowGraph.Proofs.Expression.Grammar
import FlowGraph.Proofs.Expression.Lexing

namespace FlowGraph

open Expression (Numeral Tree Lexes ends_nil)

namespace Decimal

def ofPlain? : List Char → Option Float
  | '-' :: r => (Numeral.ofText r).value?.map (-·)
  | r => (Numeral.ofText r).value?

/-- What is printed is read as what it was. -/
def PlainReadsBack (x : Float) : Prop := ofPlain? (plain x).toList = some x

instance (x : Float) : Decidable (PlainReadsBack x) := inferInstanceAs (Decidable (_ = _))

theorem positional_legal {ds : List Char} (hne : ds ≠ []) (hds : ∀ c ∈ ds, c.isDigit = true)
    (p : Int) : ∃ m : Numeral, m.Legal ∧ m.chars = positional ds p := by
  have hzeros : ∀ (k : Nat), ∀ c ∈ List.replicate k '0', c.isDigit = true := by
    intro k c hc
    rw [List.eq_of_mem_replicate hc]
    decide
  have hzero : ∀ c ∈ ['0'], c.isDigit = true := List.forall_mem_singleton.2 rfl
  rw [positional]
  split
  · refine ⟨⟨ds ++ List.replicate (p - ds.length).toNat '0', false, [], []⟩, ?_, by simp [Numeral.chars]⟩
    exact .whole_only (List.append_ne_nil_of_left_ne_nil hne _)
      (List.forall_mem_append.2 ⟨hds, hzeros _⟩)
  · split
    · next hp =>
      have htake : ds.take p.toNat ≠ [] := by
        simp only [ne_eq, List.take_eq_nil_iff, not_or]
        exact ⟨by omega, hne⟩
      refine ⟨⟨ds.take p.toNat, true, ds.drop p.toNat, []⟩, ?_, by simp [Numeral.chars]⟩
      exact .pointed htake (fun c hc => hds c (List.mem_of_mem_take hc))
        fun c hc => hds c (List.mem_of_mem_drop hc)
    · refine ⟨⟨['0'], true, List.replicate (-p).toNat '0' ++ ds, []⟩, ?_, by simp [Numeral.chars]⟩
      exact .pointed (List.cons_ne_nil '0' []) hzero (List.forall_mem_append.2 ⟨hzeros _, hds⟩)

end Decimal

namespace Number

def toFloat : Number → Float
  | int i => Float.ofInt i
  | float x => x

/-- A number as JSON has it, other than the zero with a sign. -/
def Plain : Number → Prop
  | int i => -2 ^ 63 ≤ i ∧ i < 2 ^ 64
  | float x => Decimal.isFinite x = true ∧ x ≠ -0.0

def PlainReadsBack : Number → Prop
  | int _ => True
  | float x => Decimal.PlainReadsBack x

instance : (n : Number) → Decidable n.Plain
  | int i => inferInstanceAs (Decidable (-2 ^ 63 ≤ i ∧ i < 2 ^ 64))
  | float x => inferInstanceAs (Decidable (Decimal.isFinite x = true ∧ x ≠ -0.0))

instance : (n : Number) → Decidable n.PlainReadsBack
  | int _ => inferInstanceAs (Decidable True)
  | float x => inferInstanceAs (Decidable (Decimal.PlainReadsBack x))

def operand (n : Number) : Tree :=
  match n.display.toList with
  | '-' :: r => .neg (.number (Numeral.ofText r).value)
  | r => .number (Numeral.ofText r).value

theorem ofText_chars {m : Numeral} (hm : m.Legal) : Numeral.ofText m.chars = m := by
  have := Numeral.ofText_append hm ends_nil
  rwa [List.append_nil] at this

theorem chars_ne_minus {m : Numeral} (hm : m.Legal) (r : List Char) : m.chars ≠ '-' :: r := by
  obtain ⟨c, cs, hchars, hc⟩ := m.chars_eq_cons hm
  rw [hchars]
  rintro ⟨⟩
  exact absurd hc (by decide)

theorem ofPlain?_numeral {m : Numeral} (hm : m.Legal) : Decimal.ofPlain? m.chars = some m.value := by
  rw [Decimal.ofPlain?, ofText_chars hm, hm.value?]
  exact chars_ne_minus hm

theorem ofPlain?_minus {m : Numeral} (hm : m.Legal) :
    Decimal.ofPlain? ('-' :: m.chars) = some (-m.value) := by
  rw [Decimal.ofPlain?, ofText_chars hm, hm.value?, Option.map_some]

theorem legal_toDigits (n : Nat) : (Numeral.mk (Nat.toDigits 10 n) false [] []).Legal :=
  .whole_only Nat.toDigits_ne_nil fun _ hc => Nat.isDigit_of_mem_toDigits (by decide) (by decide) hc

theorem value_toDigits {n : Nat} (h : n < 2 ^ 64) :
    (Numeral.mk (Nat.toDigits 10 n) false [] []).value = Float.ofNat n := by
  have hlength : (Nat.toDigits 10 n).length ≤ 20 :=
    (Nat.length_toDigits_le_iff (by decide) (by decide)).2 (Nat.lt_trans h (by decide))
  have hvalue : (Numeral.mk (Nat.toDigits 10 n) false [] []).value = Decimal.nearest n 0 := by
    simp [Numeral.value, Numeral.power, Decimal.ofParts, Json.Reading.digitsValue_toDigits]
  rw [hvalue, Decimal.nearest]
  split
  · next hn =>
    obtain rfl : n = 0 := by omega
    rfl
  · rw [if_neg (by omega), if_neg (by decide)]
    rfl

theorem display_int (i : Int) : (int i).display.toList =
    if i < 0 then '-' :: Nat.toDigits 10 i.natAbs else Nat.toDigits 10 i.natAbs := by
  rw [display, text, String.toList_ofList, chars]

theorem display_legal {n : Number} (h : n.Plain) : ∃ m : Numeral, m.Legal ∧
    (n.display.toList = m.chars ∨ n.display.toList = '-' :: m.chars) := by
  cases n with
  | int i =>
    refine ⟨_, legal_toDigits i.natAbs, ?_⟩
    rw [display_int]
    split
    · exact .inr (by simp [Numeral.chars])
    · exact .inl (by simp [Numeral.chars])
  | float x =>
    have hfinite := h.1
    rw [Decimal.isFinite] at hfinite
    rw [display]
    split
    · exact ⟨_, legal_toDigits 0, .inl rfl⟩
    · next hzero =>
      rw [Decimal.plain]
      split
      · next heq => simp [heq] at hfinite
      · next heq => simp [heq] at hfinite
      · next heq => simp [heq] at hfinite
      · next heq => exact absurd heq (hzero true)
      · next heq => exact absurd heq (hzero false)
      · next sign b heq =>
        have hdigits : ∀ c ∈ (Decimal.shortest .up b).chars, c.isDigit = true :=
          fun c hc => Nat.isDigit_of_mem_toDigits (by decide) (by decide) hc
        obtain ⟨m, hm, hchars⟩ := Decimal.positional_legal Nat.toDigits_ne_nil hdigits
          (Decimal.shortest .up b).point
        refine ⟨m, hm, ?_⟩
        rw [String.toList_ofList, hchars]
        cases sign
        · exact .inl rfl
        · exact .inr rfl

theorem operand_of_numeral {n : Number} {m : Numeral} (hm : m.Legal)
    (h : n.display.toList = m.chars) : n.operand = .number m.value := by
  rw [operand, h]
  split
  · next r heq => exact absurd heq (chars_ne_minus hm r)
  · rw [ofText_chars hm]

theorem operand_of_minus {n : Number} {m : Numeral} (hm : m.Legal)
    (h : n.display.toList = '-' :: m.chars) : n.operand = .neg (.number m.value) := by
  rw [operand, h]
  simp only [ofText_chars hm]

theorem lexes_display {n : Number} (h : n.Plain) : Lexes n.display.toList n.operand.tokens := by
  obtain ⟨m, hm, htext | htext⟩ := display_legal h
  · rw [operand_of_numeral hm htext, htext]
    exact Expression.lexes_numeral hm
  · rw [operand_of_minus hm htext, htext]
    exact (Expression.lexes_numeral hm).minus

theorem ofPlain?_display {n : Number} (h : n.Plain) (hback : n.PlainReadsBack) :
    Decimal.ofPlain? n.display.toList = some n.toFloat := by
  cases n with
  | int i =>
    have hlt : i.natAbs < 2 ^ 64 := by
      have hlo := h.1
      have hhi := h.2
      omega
    have hvalue := value_toDigits hlt
    have hlegal := legal_toDigits i.natAbs
    have hchars : (Numeral.mk (Nat.toDigits 10 i.natAbs) false [] []).chars =
        Nat.toDigits 10 i.natAbs := by
      simp [Numeral.chars]
    rw [display_int, ← hchars]
    split
    · next hneg =>
      rw [ofPlain?_minus hlegal, hvalue]
      obtain ⟨k, rfl⟩ := Int.eq_negSucc_of_lt_zero hneg
      rfl
    · next hneg =>
      rw [ofPlain?_numeral hlegal, hvalue]
      obtain ⟨k, rfl⟩ := Int.eq_ofNat_of_zero_le (Int.not_lt.1 hneg)
      rfl
  | float x =>
    have hback : Decimal.ofPlain? (Decimal.plain x).toList = some x := hback
    rw [display]
    split
    · next sign heq =>
      cases sign with
      | false => rwa [Decimal.plain, heq] at hback
      | true =>
        -- what prints as a zero with a minus is that zero
        rw [Decimal.plain, heq] at hback
        have hzero : Decimal.ofPlain? "-0".toList = some (-0.0) := by decide +kernel
        exact absurd (Option.some.inj (hback.symm.trans hzero)) h.2
    · exact hback

theorem eval_operand {n : Number} (h : n.Plain) (hback : n.PlainReadsBack) :
    n.operand.eval = .ok (.number n.toFloat) := by
  have hread := ofPlain?_display h hback
  obtain ⟨m, hm, htext | htext⟩ := display_legal h
  · rw [htext, ofPlain?_numeral hm] at hread
    rw [operand_of_numeral hm htext, ← Option.some.inj hread]
    rfl
  · rw [htext, ofPlain?_minus hm] at hread
    rw [operand_of_minus hm htext, ← Option.some.inj hread]
    rfl

end Number

end FlowGraph
