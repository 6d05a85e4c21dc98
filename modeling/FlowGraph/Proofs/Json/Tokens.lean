import FlowGraph.Json.Reading
import FlowGraph.Json.Text
import Mathlib.Algebra.Group.Int.Defs
import Mathlib.Algebra.Group.Nat.Defs

namespace FlowGraph

namespace Json

namespace Reading

theorem hexValue?_hexDigit {n : Nat} (h : n < 16) : Text.hexValue? (hexDigit n) = some n := by
  have key : ∀ n : Fin 16, Text.hexValue? (hexDigit n) = some n.val := by decide
  exact key ⟨n, h⟩

theorem string_control {c : Char} (h : c.toNat < 32) (acc rest : List Char) :
    string acc ('\\' :: 'u' :: '0' :: '0' :: hexDigit (c.toNat / 16) :: hexDigit (c.toNat % 16) :: rest) =
      string (c :: acc) rest := by
  have hhex : hex4 '0' '0' (hexDigit (c.toNat / 16)) (hexDigit (c.toNat % 16)) = some c.toNat := by
    have hzero : Text.hexValue? '0' = some 0 := by decide
    rw [hex4, hzero, hexValue?_hexDigit (by omega), hexValue?_hexDigit (by omega)]
    simp only [Option.bind_eq_bind, Option.bind_some, Option.pure_def, Option.some.injEq]
    omega
  have hhigh : ¬(0xD800 ≤ c.toNat ∧ c.toNat < 0xDC00) := by omega
  have hlow : ¬(0xDC00 ≤ c.toNat ∧ c.toNat < 0xE000) := by omega
  rw [string, hhex]
  simp only [hhigh, hlow, ↓reduceIte, Char.ofNat_toNat]

theorem string_plain {c : Char} (hquote : c ≠ '"') (hslash : c ≠ '\\') (h : ¬c.toNat < 32)
    (acc rest : List Char) : string acc (c :: rest) = string (c :: acc) rest := by
  rw [string]
  · simp [h, hslash]
  · exact hquote
  · intro a b c d r hc
    exact (hslash hc).elim
  · intro d r hc
    exact (hslash hc).elim

theorem string_escaped (c : Char) (acc rest : List Char) :
    string acc (escaped c rest) = string (c :: acc) rest := by
  unfold escaped
  split
  all_goals try rfl
  split
  · next h => exact string_control h acc rest
  · next h1 h2 h3 h4 h5 h6 h7 h => exact string_plain h1 h2 h acc rest

theorem string_foldr_escaped (cs acc rest : List Char) :
    string acc (cs.foldr escaped ('"' :: rest)) = some (String.ofList (acc.reverse ++ cs), rest) := by
  induction cs generalizing acc with
  | nil => simp [string]
  | cons c cs ih => rw [List.foldr_cons, string_escaped, ih, List.reverse_cons, List.append_assoc,
      List.singleton_append]

theorem string_quoted (s : String) (rest : List Char) :
    string [] (s.toList.foldr escaped ('"' :: rest)) = some (s, rest) := by
  rw [string_foldr_escaped, List.reverse_nil, List.nil_append, String.ofList_toList]

def Stops (rest : List Char) : Prop :=
  ∀ c ∈ rest.head?, c.isDigit = false ∧ c ≠ '.' ∧ c ≠ 'e' ∧ c ≠ 'E'

variable {rest : List Char}

theorem digits_of_stops (h : Stops rest) : digits rest = ([], rest) := by
  cases rest with
  | nil => rfl
  | cons c r =>
    have hc : c.isDigit = false := (h c rfl).1
    simp [digits, hc]

theorem digits_append (h : Stops rest) (cs : List Char) :
    digits (cs ++ rest) = ((digits cs).1, (digits cs).2 ++ rest) := by
  induction cs with
  | nil => exact digits_of_stops h
  | cons c cs ih =>
    simp only [digits, Prod.mk.injEq] at ih
    by_cases hc : c.isDigit = true
    · simp [digits, hc, ih]
    · simp [digits, hc]

theorem fraction_append (h : Stops rest) {cs fs r : List Char} (hf : fraction cs = some (fs, r)) :
    fraction (cs ++ rest) = some (fs, r ++ rest) := by
  unfold fraction at hf
  split at hf
  · next cs =>
    have ha := digits_append h cs
    rw [List.cons_append, fraction]
    cases hd : digits cs with
    | mk ds r' =>
      rw [hd] at hf ha
      cases ds with
      | nil => cases hf
      | cons d ds =>
        cases hf
        rw [ha]
  · next hdot =>
    cases hf
    cases cs with
    | cons c cs =>
      rw [List.cons_append, fraction]
      rintro r hr
      exact hdot cs (by rw [(List.cons.inj hr).1])
    | nil =>
      cases rest with
      | nil => rfl
      | cons c r =>
        rw [List.nil_append, fraction]
        rintro r' hr
        exact (h c rfl).2.1 (List.cons.inj hr).1

def exponentSign : List Char → Bool × List Char
  | '-' :: r => (true, r)
  | '+' :: r => (false, r)
  | r => (false, r)

theorem exponent_cons (c : Char) (cs : List Char) : exponent (c :: cs) =
    if c = 'e' ∨ c = 'E' then
      match digits (exponentSign cs).2 with
      | ([], _) => none
      | (ds, r) => some (some (if (exponentSign cs).1 then -(Decimal.digitsValue ds : Int)
          else Decimal.digitsValue ds), r)
    else some (none, c :: cs) := by
  rfl

theorem exponentSign_append {cs : List Char} (hcs : cs ≠ []) (rest : List Char) :
    exponentSign (cs ++ rest) = ((exponentSign cs).1, (exponentSign cs).2 ++ rest) := by
  cases cs with
  | nil => exact absurd rfl hcs
  | cons c cs =>
    by_cases hminus : c = '-'
    · subst hminus
      rfl
    · by_cases hplus : c = '+'
      · subst hplus
        rfl
      · simp [exponentSign, hminus, hplus]

theorem exponent_append (h : Stops rest) {cs r : List Char} {e : Option Int}
    (he : exponent cs = some (e, r)) : exponent (cs ++ rest) = some (e, r ++ rest) := by
  cases cs with
  | nil =>
    cases he
    cases rest with
    | nil => rfl
    | cons c r =>
      have hc : ¬(c = 'e' ∨ c = 'E') := by
        rintro (hc | hc)
        · exact (h c rfl).2.2.1 hc
        · exact (h c rfl).2.2.2 hc
      rw [List.nil_append, exponent_cons, if_neg hc]
  | cons c cs =>
    rw [List.cons_append]
    rw [exponent_cons] at he ⊢
    by_cases hc : c = 'e' ∨ c = 'E'
    · rw [if_pos hc] at he ⊢
      have hcs : cs ≠ [] := by
        rintro rfl
        cases he
      rw [exponentSign_append hcs rest, digits_append h]
      cases hd : digits (exponentSign cs).2 with
      | mk ds r' =>
        rw [hd] at he
        cases ds with
        | nil => cases he
        | cons d ds =>
          cases he
          rfl
    · rw [if_neg hc] at he ⊢
      cases he
      rfl

theorem unsigned_eq_some {negative : Bool} {cs r : List Char} {n : Number} :
    unsigned negative cs = some (n, r) ↔
      ∃ ds r₁ fs r₂ e, digits cs = (ds, r₁) ∧ ds ≠ [] ∧ (∀ d ds', ds ≠ '0' :: d :: ds') ∧
        fraction r₁ = some (fs, r₂) ∧ exponent r₂ = some (e, r) ∧
        numberOf negative ds fs e = some n := by
  cases hd : digits cs with
  | mk ds r₁ =>
    rw [unsigned, hd]
    constructor
    · intro h
      split at h
      · cases h
      · cases h
      · next hne hzero heq =>
        cases heq
        obtain ⟨⟨fs, r₂⟩, hf, h⟩ := Option.bind_eq_some_iff.1 h
        obtain ⟨⟨e, r₃⟩, he, h⟩ := Option.bind_eq_some_iff.1 h
        obtain ⟨m, hm, h⟩ := Option.bind_eq_some_iff.1 h
        cases h
        exact ⟨ds, r₁, fs, r₂, e, rfl, hne, hzero, hf, he, hm⟩
    · rintro ⟨ds', r₁', fs, r₂, e, heq, hne, hzero, hf, he, hm⟩
      cases heq
      split
      · next heq => exact absurd (Prod.mk.inj heq).1 hne
      · next heq => exact absurd (Prod.mk.inj heq).1 (hzero _ _)
      · next heq =>
        cases heq
        refine Option.bind_eq_some_iff.2 ⟨(fs, r₂), hf, Option.bind_eq_some_iff.2 ⟨(e, r), he, ?_⟩⟩
        exact Option.bind_eq_some_iff.2 ⟨n, hm, rfl⟩

theorem unsigned_append (h : Stops rest) {negative : Bool} {cs r : List Char} {n : Number}
    (hn : unsigned negative cs = some (n, r)) :
    unsigned negative (cs ++ rest) = some (n, r ++ rest) := by
  obtain ⟨ds, r₁, fs, r₂, e, hd, hne, hzero, hf, he, hn⟩ := unsigned_eq_some.1 hn
  refine unsigned_eq_some.2 ⟨ds, r₁ ++ rest, fs, r₂ ++ rest, e, ?_, hne, hzero,
    fraction_append h hf, exponent_append h he, hn⟩
  rw [digits_append h, hd]

theorem number_append (h : Stops rest) {cs r : List Char} {n : Number}
    (hn : number cs = some (n, r)) : number (cs ++ rest) = some (n, r ++ rest) := by
  cases cs with
  | nil => cases hn
  | cons c cs =>
    by_cases hc : c = '-'
    · subst hc
      exact unsigned_append h hn
    · have hnumber : ∀ cs : List Char, number (c :: cs) = unsigned false (c :: cs) := by
        intro cs
        rw [number]
        rintro r hr
        exact hc (List.cons.inj hr).1
      rw [hnumber] at hn
      rw [List.cons_append, hnumber]
      exact unsigned_append h hn

theorem digitsValue_toDigits (n : Nat) : Decimal.digitsValue (Nat.toDigits 10 n) = n := by
  have h := Nat.ofDigitChars_ten_toDigits (n := n)
  rwa [Nat.ofDigitChars_eq_foldl] at h

theorem digits_of_all {cs : List Char} (h : ∀ c ∈ cs, c.isDigit = true) : digits cs = (cs, []) := by
  induction cs with
  | nil => rfl
  | cons c cs ih =>
    obtain ⟨hc, hcs⟩ := List.forall_mem_cons.1 h
    have ih := ih hcs
    simp only [digits, Prod.mk.injEq] at ih
    simp [digits, hc, ih]

theorem digits_toDigits (n : Nat) : digits (Nat.toDigits 10 n) = (Nat.toDigits 10 n, []) :=
  digits_of_all fun _ hc => Nat.isDigit_of_mem_toDigits (by decide) (by decide) hc

theorem head_toDigits_ne {n : Nat} (hn : 0 < n) : (Nat.toDigits 10 n).head? ≠ some '0' := by
  induction n using Nat.strongRecOn with
  | ind n ih =>
    rw [Nat.toDigits_eq_if (by decide)]
    split
    · next h =>
      have key : ∀ d : Fin 10, 0 < d.val → Nat.digitChar d.val ≠ '0' := by decide
      intro hzero
      exact key ⟨n, h⟩ hn (Option.some.inj hzero)
    · next h =>
      have hhead := ih (n / 10) (by omega) (by omega)
      cases hd : Nat.toDigits 10 (n / 10) with
      | nil => exact absurd hd Nat.toDigits_ne_nil
      | cons c cs =>
        rw [hd] at hhead
        exact hhead

theorem toDigits_ne_lead (n : Nat) (c : Char) (cs : List Char) :
    Nat.toDigits 10 n ≠ '0' :: c :: cs := by
  intro h
  rcases Nat.eq_zero_or_pos n with rfl | hn
  · simp at h
  · exact head_toDigits_ne hn (by rw [h]; rfl)

theorem unsigned_toDigits (negative : Bool) {n : Nat} (h : n < Nat.pow 2 64) :
    unsigned negative (Nat.toDigits 10 n) = some (wholeNumber negative n, []) := by
  have hnumber : numberOf negative (Nat.toDigits 10 n) [] none = some (wholeNumber negative n) := by
    rw [numberOf, digitsValue_toDigits, if_pos ⟨rfl, rfl, h⟩]
  exact unsigned_eq_some.2 ⟨Nat.toDigits 10 n, [], [], [], none, digits_toDigits n,
    Nat.toDigits_ne_nil, toDigits_ne_lead n, rfl, rfl, hnumber⟩

end Reading

end Json

namespace Number

def Exact : Number → Prop
  | int i => -2 ^ 63 ≤ i ∧ i < 2 ^ 64
  | float _ => True

def ReadsBack (n : Number) : Prop := Json.Reading.number n.chars = some (n, [])

instance (n : Number) : Decidable n.ReadsBack := inferInstanceAs (Decidable (_ = _))

theorem ReadsBack.before {n : Number} (h : n.ReadsBack) {rest : List Char}
    (hrest : Json.Reading.Stops rest) : Json.Reading.number (n.chars ++ rest) = some (n, rest) :=
  Json.Reading.number_append hrest h

theorem readsBack_int {i : Int} (h : (int i).Exact) : (int i).ReadsBack := by
  obtain ⟨hlo, hhi⟩ := h
  have hsize : i.natAbs < Nat.pow 2 64 := by
    change i.natAbs < 2 ^ 64
    omega
  rw [ReadsBack, chars]
  split
  · next hneg =>
    have hwhole : Json.Reading.wholeNumber true i.natAbs = int i := by
      have hzero : i.natAbs ≠ 0 := by omega
      have hle : i.natAbs ≤ Nat.pow 2 63 := by
        change i.natAbs ≤ 2 ^ 63
        omega
      have hi : -(i.natAbs : Int) = i := by omega
      simp only [Json.Reading.wholeNumber, ↓reduceIte, hzero, hle, hi]
    rw [← hwhole]
    exact Json.Reading.unsigned_toDigits true hsize
  · next hneg =>
    have hwhole : Json.Reading.wholeNumber false i.natAbs = int i := by
      have hi : (i.natAbs : Int) = i := by omega
      simp [Json.Reading.wholeNumber, hi]
    rw [← hwhole, ← Json.Reading.unsigned_toDigits false hsize]
    cases hd : Nat.toDigits 10 i.natAbs with
    | nil => exact absurd hd Nat.toDigits_ne_nil
    | cons c cs =>
      have hc : c.isDigit = true :=
        Nat.isDigit_of_mem_toDigits (by decide) (by decide) (hd ▸ List.mem_cons_self)
      rw [Json.Reading.number]
      rintro r hr
      rw [(List.cons.inj hr).1] at hc
      exact absurd hc (by decide)

end Number

namespace Json.Reading

theorem wholeNumber_exact (negative : Bool) {m : Nat} (h : m < Nat.pow 2 64) :
    (wholeNumber negative m).Exact := by
  change m < 2 ^ 64 at h
  rw [wholeNumber]
  split
  · split
    · trivial
    · split
      · next hm =>
        change m ≤ 2 ^ 63 at hm
        exact ⟨by omega, by omega⟩
      · trivial
  · exact ⟨by omega, by omega⟩

theorem numberOf_exact {negative : Bool} {ds fs : List Char} {e : Option Int} {n : Number}
    (h : numberOf negative ds fs e = some n) : n.Exact := by
  rw [numberOf] at h
  split at h
  · next hsize =>
    cases h
    exact wholeNumber_exact negative hsize.2.2
  · obtain ⟨x, -, rfl⟩ := Option.map_eq_some_iff.1 h
    trivial

theorem number_exact {cs r : List Char} {n : Number} (h : number cs = some (n, r)) : n.Exact := by
  have hunsigned : ∀ {negative cs}, unsigned negative cs = some (n, r) → n.Exact := by
    intro negative cs h
    obtain ⟨ds, r₁, fs, r₂, e, -, -, -, -, -, hn⟩ := unsigned_eq_some.1 h
    exact numberOf_exact hn
  rw [number.eq_def] at h
  split at h <;> exact hunsigned h

end Json.Reading

end FlowGraph
