import FlowGraph.Proofs.Except
import FlowGraph.Proofs.Expression.Lexing
import Mathlib.Data.List.TakeWhile

namespace FlowGraph.Expression

section

variable {p : Char → Bool} {x y : List Char}

theorem takeWhile_settled (h : ((x ++ y).takeWhile p).length ≤ x.length) :
    (x ++ y).takeWhile p = x.takeWhile p ∧ (x ++ y).dropWhile p = x.dropWhile p ++ y := by
  have htake : (x ++ y).takeWhile p = x.takeWhile p := by
    rw [List.takeWhile_append] at h ⊢
    split at h
    · next hall =>
      have hy : y.takeWhile p = [] := List.eq_nil_of_length_eq_zero (by
        rw [List.length_append] at h
        omega)
      rw [if_pos hall, hy, List.append_nil, (List.takeWhile_prefix p).eq_of_length hall]
    · next hall => rw [if_neg hall]
  refine ⟨htake, ?_⟩
  have hparts : x.takeWhile p ++ (x ++ y).dropWhile p = x.takeWhile p ++ (x.dropWhile p ++ y) := by
    rw [← List.append_assoc, List.takeWhile_append_dropWhile, ← htake,
      List.takeWhile_append_dropWhile]
  exact List.append_cancel_left hparts

theorem takeWhile_nil_of_append (h : (x ++ y).takeWhile p = []) : x.takeWhile p = [] := by
  rw [← (takeWhile_settled (by rw [h]; exact Nat.zero_le _)).1, h]

theorem takeWhile_stop {c : Char} (hc : p c = false) :
    (x ++ c :: y).takeWhile p = x.takeWhile p := by
  rw [List.takeWhile_append]
  split
  · next hall =>
    rw [List.takeWhile_cons, hc, (List.takeWhile_prefix p).eq_of_length hall]
    simp
  · rfl

end

def unescaped : Char → List Char
  | 'n' => ['\n']
  | 't' => ['\t']
  | 'r' => ['\r']
  | '"' => ['"']
  | '\\' => ['\\']
  | c => ['\\', c]

/-- What stands between double quotes, and the text that it stands for. -/
inductive QuotedBody : List Char → List Char → Prop
  | nil : QuotedBody [] []
  | escape {x s : List Char} (c : Char) (h : QuotedBody x s) :
      QuotedBody ('\\' :: c :: x) (unescaped c ++ s)
  | plain {x s : List Char} {c : Char} (hquote : c ≠ '"') (hslash : c ≠ '\\')
      (h : QuotedBody x s) : QuotedBody (c :: x) (c :: s)

def RawBody (x s : List Char) : Prop := x = s ∧ '\x60' ∉ s

theorem quoted_escape (c : Char) (r : List Char) :
    quoted ('\\' :: c :: r) = (quoted r).map fun p => (unescaped c ++ p.1, p.2 + 2) := by
  rw [quoted]
  unfold unescaped
  congr 1
  funext ⟨s, n⟩
  dsimp only
  split <;> simp [*]

theorem quoted_plain {c : Char} (hquote : c ≠ '"') (hslash : c ≠ '\\') (r : List Char) :
    quoted (c :: r) = (quoted r).map fun p => (c :: p.1, p.2 + 1) :=
  quoted.eq_5 c r hquote (fun h _ => hslash h) fun _ _ h _ => hslash h

theorem ne_slash {c : Char} {r : List Char} (hlast : c = '\\' → r = [] → False)
    (hmore : ∀ d r', c = '\\' → r = d :: r' → False) : c ≠ '\\' := by
  intro hc
  cases r with
  | nil => exact hlast hc rfl
  | cons d r => exact hmore d r hc rfl

theorem quoted_eq_some_iff {r s : List Char} {n : Nat} : quoted r = some (s, n) ↔
    ∃ x y, r = x ++ '"' :: y ∧ QuotedBody x s ∧ n = x.length + 1 := by
  constructor
  · intro h
    induction r using quoted.induct generalizing s n with
    | case1 => cases h
    | case2 r =>
      cases h
      exact ⟨[], r, rfl, .nil, rfl⟩
    | case3 => cases h
    | case4 c r ih =>
      rw [quoted_escape, Option.map_eq_some_iff] at h
      obtain ⟨⟨s', n'⟩, hr, h⟩ := h
      cases h
      obtain ⟨x, y, rfl, hx, rfl⟩ := ih hr
      exact ⟨'\\' :: c :: x, y, rfl, .escape c hx, rfl⟩
    | case5 c r hquote hlast hmore ih =>
      have hslash : c ≠ '\\' := ne_slash hlast hmore
      rw [quoted_plain hquote hslash, Option.map_eq_some_iff] at h
      obtain ⟨⟨s', n'⟩, hr, h⟩ := h
      cases h
      obtain ⟨x, y, rfl, hx, rfl⟩ := ih hr
      exact ⟨c :: x, y, rfl, .plain hquote hslash hx, rfl⟩
  · rintro ⟨x, y, rfl, hx, rfl⟩
    induction hx with
    | nil => rfl
    | escape c hx ih =>
      rw [List.cons_append, List.cons_append, quoted_escape, ih]
      rfl
    | plain hquote hslash hx ih =>
      rw [List.cons_append, quoted_plain hquote hslash, ih]
      rfl

theorem raw_closed {x : List Char} (hx : '\x60' ∉ x) (y : List Char) :
    raw (x ++ '\x60' :: y) = some (x, x.length + 1) := by
  have hbefore : ∀ c ∈ x, decide (c ≠ '\x60') = true := by
    intro c hc
    exact decide_eq_true fun h => hx (h ▸ hc)
  have htake : (x ++ '\x60' :: y).takeWhile (fun c => decide (c ≠ '\x60')) = x := by
    rw [List.takeWhile_append_of_pos hbefore]
    simp
  rw [raw, htake]
  simp

theorem raw_open {r : List Char} (hr : '\x60' ∉ r) : raw r = none := by
  have hall : ∀ c ∈ r, decide (c ≠ '\x60') = true := by
    intro c hc
    exact decide_eq_true fun h => hr (h ▸ hc)
  rw [raw, List.takeWhile_eq_self_iff.2 hall]
  simp

theorem raw_eq_some_iff {r s : List Char} {n : Nat} : raw r = some (s, n) ↔
    ∃ x y, r = x ++ '\x60' :: y ∧ RawBody x s ∧ n = x.length + 1 := by
  constructor
  · intro h
    by_cases hr : '\x60' ∈ r
    · obtain ⟨x, y, rfl, hx⟩ := List.eq_append_cons_of_mem hr
      rw [raw_closed hx] at h
      cases h
      exact ⟨_, y, rfl, ⟨rfl, hx⟩, rfl⟩
    · rw [raw_open hr] at h
      cases h
  · rintro ⟨x, y, rfl, ⟨rfl, hs⟩, rfl⟩
    exact raw_closed hs y

namespace Numeral

def sign : List Char → List Char
  | '+' :: _ => ['+']
  | '-' :: _ => ['-']
  | _ => []

def exponentDigits (r : List Char) : List Char := (unsigned r).takeWhile Char.isDigit

theorem sign_cons (s : Char) (r : List Char) :
    sign (s :: r) = if s = '+' ∨ s = '-' then [s] else [] := by
  split
  · next hs => rcases hs with rfl | rfl <;> rfl
  · next hs =>
    rw [sign]
    · rintro ds ⟨⟩
      exact hs (.inl rfl)
    · rintro ds ⟨⟩
      exact hs (.inr rfl)

theorem sign_append_unsigned (r : List Char) : sign r ++ unsigned r = r := by
  cases r with
  | nil => rfl
  | cons s r =>
    rw [sign_cons, unsigned_cons]
    split <;> rfl

theorem sign_append {r : List Char} (hr : r ≠ []) (y : List Char) : sign (r ++ y) = sign r := by
  cases r with
  | nil => exact absurd rfl hr
  | cons s r => rw [List.cons_append, sign_cons, sign_cons]

theorem unsigned_append {r : List Char} (hr : r ≠ []) (y : List Char) :
    unsigned (r ++ y) = unsigned r ++ y := by
  cases r with
  | nil => exact absurd rfl hr
  | cons s r =>
    rw [List.cons_append, unsigned_cons, unsigned_cons]
    split <;> rfl

theorem exponentOf_cons (c : Char) (r : List Char) : exponentOf (c :: r) =
    if (c = 'e' ∨ c = 'E') ∧ exponentDigits r ≠ [] then c :: (sign r ++ exponentDigits r)
    else [] := by
  unfold exponentDigits
  by_cases hc : c = 'e' ∨ c = 'E'
  · cases r with
    | nil => simp [exponentOf, hc, unsigned]
    | cons s r =>
      rw [exponentOf, if_pos hc, sign_cons, unsigned_cons]
      by_cases hs : s = '+' ∨ s = '-'
      · simp only [if_pos hs, hc, true_and, ne_eq, ite_not, List.singleton_append]
      · simp only [if_neg hs, hc, true_and, ne_eq, ite_not, List.nil_append]
  · cases r <;> simp only [exponentOf, hc, false_and, ↓reduceIte]

theorem exponentOf_prefix (cs : List Char) : exponentOf cs <+: cs := by
  cases cs with
  | nil => exact List.nil_prefix
  | cons c r =>
    rw [exponentOf_cons]
    split
    · apply (List.prefix_cons_inj c).2
      have hdigits : sign r ++ exponentDigits r <+: sign r ++ unsigned r :=
        (List.prefix_append_right_inj _).2 (List.takeWhile_prefix _)
      rwa [sign_append_unsigned] at hdigits
    · exact List.nil_prefix

theorem isDigit_of_mem_exponentDigits {r : List Char} {d : Char} (h : d ∈ exponentDigits r) :
    d.isDigit = true :=
  List.mem_takeWhile_imp h

theorem unsigned_sign_append {r ds : List Char} (hds : ∀ d ∈ ds, d.isDigit = true) :
    unsigned (sign r ++ ds) = ds := by
  have hplain : unsigned ds = ds := by
    cases ds with
    | nil => rfl
    | cons d ds =>
      have hd : d.isDigit = true := hds d List.mem_cons_self
      rw [unsigned_cons, if_neg]
      rintro (rfl | rfl) <;> exact absurd hd (by decide)
  cases r with
  | nil => exact hplain
  | cons s r =>
    rw [sign_cons]
    split
    · next hs => rw [List.singleton_append, unsigned_cons, if_pos hs]
    · exact hplain

theorem exponentOf_legal (cs : List Char) : LegalExponent (exponentOf cs) := by
  cases cs with
  | nil => trivial
  | cons c r =>
    rw [exponentOf_cons]
    split
    · next hc =>
      rw [LegalExponent, unsigned_sign_append fun d => isDigit_of_mem_exponentDigits]
      exact ⟨hc.1, hc.2, fun d => isDigit_of_mem_exponentDigits⟩
    · trivial

theorem exponentDigits_settled {x y : List Char} (hx : x ≠ [])
    (h : (exponentDigits (x ++ y)).length ≤ (unsigned x).length) :
    exponentDigits (x ++ y) = exponentDigits x := by
  rw [exponentDigits, unsigned_append hx] at h ⊢
  exact (takeWhile_settled h).1

theorem exponentOf_settled {x y : List Char} (h : (exponentOf (x ++ y)).length ≤ x.length) :
    exponentOf (x ++ y) = exponentOf x := by
  cases x with
  | nil => exact List.eq_nil_of_length_eq_zero (Nat.le_zero.1 h)
  | cons c x =>
    rw [List.cons_append, exponentOf_cons] at h ⊢
    rw [exponentOf_cons]
    by_cases hx : x = []
    · subst hx
      split at h
      · next hc =>
        have hpos : 0 < (exponentDigits ([] ++ y)).length := List.length_pos_iff.2 hc.2
        simp only [List.length_cons, List.length_append, List.length_nil] at h
        omega
      · next hc => rw [if_neg hc, if_neg fun hnil => hnil.2 rfl]
    · have hlength : x.length = (sign x).length + (unsigned x).length := by
        rw [← List.length_append, sign_append_unsigned]
      rw [sign_append hx] at h ⊢
      split at h
      · next hc =>
        simp only [List.length_cons, List.length_append] at h
        have hdigits : exponentDigits (x ++ y) = exponentDigits x :=
          exponentDigits_settled hx (by omega)
        rw [hdigits]
      · next hc =>
        rw [if_neg hc, if_neg]
        rintro ⟨he, hne⟩
        have hnone : exponentDigits (x ++ y) = [] := by
          by_contra hsome
          exact hc ⟨he, hsome⟩
        rw [exponentDigits, unsigned_append hx] at hnone
        exact hne (takeWhile_nil_of_append hnone)

theorem ofText_pointed {cs r : List Char} (h : cs.dropWhile Char.isDigit = '.' :: r) :
    ofText cs = ⟨cs.takeWhile Char.isDigit, true, r.takeWhile Char.isDigit,
      exponentOf (r.dropWhile Char.isDigit)⟩ := by
  rw [ofText, h]
  rfl

theorem ofText_whole {cs : List Char} (h : ¬∃ r, cs.dropWhile Char.isDigit = '.' :: r) :
    ofText cs = ⟨cs.takeWhile Char.isDigit, false, [], exponentOf (cs.dropWhile Char.isDigit)⟩ := by
  rw [ofText]
  split
  · next r hr => exact absurd ⟨r, hr⟩ h
  · rfl

theorem whole_ofText (cs : List Char) : (ofText cs).whole = cs.takeWhile Char.isDigit := by
  by_cases h : ∃ r, cs.dropWhile Char.isDigit = '.' :: r
  · obtain ⟨r, hr⟩ := h
    rw [ofText_pointed hr]
  · rw [ofText_whole h]

theorem exists_ofText_append (cs : List Char) : ∃ rest, cs = (ofText cs).chars ++ rest := by
  have hparts := List.takeWhile_append_dropWhile (p := Char.isDigit) (l := cs)
  by_cases h : ∃ r, cs.dropWhile Char.isDigit = '.' :: r
  · obtain ⟨r, hr⟩ := h
    obtain ⟨rest, hrest⟩ := exponentOf_prefix (r.dropWhile Char.isDigit)
    refine ⟨rest, ?_⟩
    have hfraction := List.takeWhile_append_dropWhile (p := Char.isDigit) (l := r)
    rw [ofText_pointed hr, chars, if_pos rfl]
    simp only [List.append_assoc, List.cons_append, hrest, hfraction, ← hr, hparts]
  · obtain ⟨rest, hrest⟩ := exponentOf_prefix (cs.dropWhile Char.isDigit)
    refine ⟨rest, ?_⟩
    rw [ofText_whole h, chars]
    simp [hrest, hparts]

theorem length_chars (n : Numeral) : n.chars.length =
    n.whole.length + (if n.point then n.fraction.length + 1 else 0) + n.exponent.length := by
  rw [chars]
  split
  · simp only [List.length_append, List.length_cons]
  · simp only [List.length_append, List.length_nil]

theorem ofText_settled {x y : List Char} (h : (ofText (x ++ y)).chars.length ≤ x.length) :
    ofText (x ++ y) = ofText x := by
  have hlength : (x.takeWhile Char.isDigit ++ x.dropWhile Char.isDigit).length = x.length :=
    congrArg List.length List.takeWhile_append_dropWhile
  rw [List.length_append] at hlength
  by_cases hpoint : ∃ r, (x ++ y).dropWhile Char.isDigit = '.' :: r
  · obtain ⟨r, hr⟩ := hpoint
    rw [ofText_pointed hr, length_chars] at h
    simp only [↓reduceIte] at h
    obtain ⟨htake, hdrop⟩ := takeWhile_settled (p := Char.isDigit) (x := x) (y := y) (by omega)
    rw [htake] at h
    cases hx : x.dropWhile Char.isDigit with
    | nil =>
      rw [hx, List.length_nil] at hlength
      omega
    | cons c rest =>
      rw [hx, List.length_cons] at hlength
      rw [hdrop, hx, List.cons_append] at hr
      obtain ⟨rfl, rfl⟩ := List.cons.inj hr
      have hrest := congrArg List.length
        (List.takeWhile_append_dropWhile (p := Char.isDigit) (l := rest))
      rw [List.length_append] at hrest
      obtain ⟨hfraction, hexponent⟩ :=
        takeWhile_settled (p := Char.isDigit) (x := rest) (y := y) (by omega)
      rw [hfraction, hexponent] at h
      have hy : (x ++ y).dropWhile Char.isDigit = '.' :: (rest ++ y) := by
        rw [hdrop, hx, List.cons_append]
      rw [ofText_pointed hy, ofText_pointed hx, htake, hfraction, hexponent,
        exponentOf_settled (by omega)]
  · rw [ofText_whole hpoint, length_chars] at h
    simp only [Bool.false_eq_true, ↓reduceIte] at h
    obtain ⟨htake, hdrop⟩ := takeWhile_settled (p := Char.isDigit) (x := x) (y := y) (by omega)
    have hx : ¬∃ r, x.dropWhile Char.isDigit = '.' :: r := by
      rintro ⟨r, hr⟩
      exact hpoint ⟨r ++ y, by rw [hdrop, hr, List.cons_append]⟩
    rw [htake, hdrop] at h
    rw [ofText_whole hpoint, ofText_whole hx, htake, hdrop, exponentOf_settled (by omega)]

theorem value?_eq_none_iff {c : Char} (hc : c.isDigit = true ∨ c = '.') {r : List Char} :
    (ofText (c :: r)).value? = none ↔ c = '.' ∧ r.takeWhile Char.isDigit = [] := by
  by_cases hdigit : c.isDigit = true
  · have hwhole : (ofText (c :: r)).whole ≠ [] := by
      rw [whole_ofText]
      simp [hdigit]
    rw [value?, if_neg fun h => hwhole h.1]
    constructor
    · intro h
      cases h
    · rintro ⟨rfl, -⟩
      exact absurd hdigit (by decide)
  · obtain rfl : c = '.' := hc.resolve_left hdigit
    have hdrop : ('.' :: r).dropWhile Char.isDigit = '.' :: r := rfl
    rw [ofText_pointed hdrop, value?]
    simp

theorem ofText_legal {cs : List Char} {x : Float} (h : (ofText cs).value? = some x) :
    (ofText cs).Legal := by
  have hdigits : (ofText cs).whole ≠ [] ∨ (ofText cs).fraction ≠ [] := by
    by_contra hnone
    rw [not_or, not_not, not_not] at hnone
    rw [value?, if_pos hnone] at h
    cases h
  have hwhole : ∀ c ∈ cs.takeWhile Char.isDigit, c.isDigit = true :=
    fun c => List.mem_takeWhile_imp
  by_cases hpoint : ∃ r, cs.dropWhile Char.isDigit = '.' :: r
  · obtain ⟨r, hr⟩ := hpoint
    rw [ofText_pointed hr] at hdigits ⊢
    exact ⟨hwhole, fun c => List.mem_takeWhile_imp, Bool.noConfusion, hdigits, exponentOf_legal _⟩
  · rw [ofText_whole hpoint] at hdigits ⊢
    exact ⟨hwhole, List.forall_mem_nil _, fun _ => rfl, hdigits, exponentOf_legal _⟩

end Numeral

inductive Start (c : Char) : Prop
  | symbol (t : Token) (hc : c.utf8Size = 1) (h : ∀ offset r, lexeme offset c r = .ok (t, 0))
  | paired (t : Token) (alone : Nat → Except Error (Token × Nat)) (hc : c.utf8Size = 1 ∧ c ≠ '.')
      (halone : (∃ u, ∀ offset, alone offset = .ok (u, 0)) ∨
        ∀ offset, alone offset = .error (.unexpectedChar c offset))
      (h : ∀ offset r, lexeme offset c r =
        if r.head? = some '=' then .ok (t, 1) else alone offset)
  | text (read : List Char → Option (List Char × Nat)) (Body : List Char → List Char → Prop)
      (hc : c = '"' ∧ read = quoted ∨ c = '\x60' ∧ read = raw)
      (hread : ∀ {r s n}, read r = some (s, n) ↔
        ∃ x y, r = x ++ c :: y ∧ Body x s ∧ n = x.length + 1)
      (h : ∀ offset r, lexeme offset c r = match read r with
        | some (s, n) => .ok (.str (String.ofList s), n)
        | none => .error (.unterminatedString offset))
  | numeral (hc : c.isDigit = true ∨ c = '.')
  | name (hc : isNameStart c = true) (h : ∀ offset r, lexeme offset c r =
      .ok (.ident (String.ofList (c :: r.takeWhile isNameChar)), (r.takeWhile isNameChar).length))
  | other (hc : c ≠ '.') (h : ∀ offset r, lexeme offset c r = .error (.unexpectedChar c offset))

theorem lexeme_word {c : Char}
    (hc : c ∉ ['+', '-', '*', '/', '%', '(', ')', '=', '!', '<', '>', '"', '\x60'])
    (hnumeral : ¬(c.isDigit = true ∨ c = '.')) (offset : Nat) (r : List Char) : lexeme offset c r =
      if isNameStart c then
        .ok (.ident (String.ofList (c :: r.takeWhile isNameChar)), (r.takeWhile isNameChar).length)
      else .error (.unexpectedChar c offset) := by
  unfold lexeme
  split
  all_goals try exact absurd hc (by decide)
  exact if_neg hnumeral

theorem start (c : Char) : Start c := by
  by_cases hc : c ∈ ['+', '-', '*', '/', '%', '(', ')', '=', '!', '<', '>', '"', '\x60']
  · simp only [List.mem_cons, List.not_mem_nil, or_false] at hc
    rcases hc with rfl | rfl | rfl | rfl | rfl | rfl | rfl | rfl | rfl | rfl | rfl | rfl | rfl
    · exact .symbol (.op .add) rfl fun _ _ => rfl
    · exact .symbol (.op .sub) rfl fun _ _ => rfl
    · exact .symbol (.op .mul) rfl fun _ _ => rfl
    · exact .symbol (.op .div) rfl fun _ _ => rfl
    · exact .symbol (.op .rem) rfl fun _ _ => rfl
    · exact .symbol .lparen rfl fun _ _ => rfl
    · exact .symbol .rparen rfl fun _ _ => rfl
    · exact .paired (.op .eq) _ (by decide) (.inr fun _ => rfl) fun _ _ => rfl
    · exact .paired (.op .ne) _ (by decide) (.inr fun _ => rfl) fun _ _ => rfl
    · exact .paired (.op .le) _ (by decide) (.inl ⟨.op .lt, fun _ => rfl⟩) fun _ _ => rfl
    · exact .paired (.op .ge) _ (by decide) (.inl ⟨.op .gt, fun _ => rfl⟩) fun _ _ => rfl
    · exact .text quoted QuotedBody (.inl ⟨rfl, rfl⟩) quoted_eq_some_iff fun _ _ => rfl
    · exact .text raw RawBody (.inr ⟨rfl, rfl⟩) raw_eq_some_iff fun _ _ => rfl
  · by_cases hnumeral : c.isDigit = true ∨ c = '.'
    · exact .numeral hnumeral
    · have h := lexeme_word hc hnumeral
      by_cases hname : isNameStart c = true
      · simp only [hname, ↓reduceIte] at h
        exact .name hname h
      · simp only [hname, Bool.false_eq_true, ↓reduceIte] at h
        exact .other (fun hpoint => hnumeral (.inr hpoint)) h

section

variable {offset n : Nat} {c w : Char} {r x y : List Char} {t : Token} {e : Error}

theorem lexeme_numeral_eq_ok (hc : c.isDigit = true ∨ c = '.') : lexeme offset c r = .ok (t, n) ↔
    ∃ v, (Numeral.ofText (c :: r)).value? = some v ∧ t = .number v ∧
      (Numeral.ofText (c :: r)).chars.length = n + 1 := by
  rw [lexeme_number offset hc]
  cases hv : (Numeral.ofText (c :: r)).value? with
  | none => simp
  | some v =>
    obtain ⟨d, cs, hchars, -⟩ := Numeral.chars_eq_cons (Numeral.ofText_legal hv)
    simp [hchars, eq_comm]

theorem lexeme_eq_error (h : lexeme offset c r = .error e) :
    (c ≠ '.' ∧ e = .unexpectedChar c offset) ∨
      ((c = '"' ∧ quoted r = none ∨ c = '\x60' ∧ raw r = none) ∧ e = .unterminatedString offset) ∨
      (c = '.' ∧ r.takeWhile Char.isDigit = []) ∧
        e = .invalidNumber (String.ofList (Numeral.ofText (c :: r)).chars) := by
  cases start c with
  | symbol u hc hu =>
    rw [hu] at h
    cases h
  | paired u alone hc halone hu =>
    rw [hu] at h
    split at h
    · cases h
    · rcases halone with ⟨v, halone⟩ | halone
      · rw [halone] at h
        cases h
      · rw [halone] at h
        cases h
        exact .inl ⟨hc.2, rfl⟩
  | text read Body hc hread hu =>
    rw [hu] at h
    split at h
    · cases h
    · next hnone =>
      cases h
      refine .inr (.inl ⟨?_, rfl⟩)
      rcases hc with ⟨rfl, rfl⟩ | ⟨rfl, rfl⟩
      · exact .inl ⟨rfl, hnone⟩
      · exact .inr ⟨rfl, hnone⟩
  | numeral hc =>
    rw [lexeme_number offset hc] at h
    split at h
    · cases h
    · next hnone =>
      cases h
      exact .inr (.inr ⟨(Numeral.value?_eq_none_iff hc).1 hnone, rfl⟩)
  | name hc hu =>
    rw [hu] at h
    cases h
  | other hc hu =>
    rw [hu] at h
    cases h
    exact .inl ⟨hc, rfl⟩

theorem lexeme_length (h : lexeme offset c r = .ok (t, n)) : n ≤ r.length := by
  cases start c with
  | symbol u hc hu =>
    rw [hu] at h
    cases h
    exact Nat.zero_le _
  | paired u alone hc halone hu =>
    rw [hu] at h
    split at h
    · next hr =>
      cases h
      obtain ⟨r, rfl⟩ := List.head?_eq_some_iff.1 hr
      simp
    · rcases halone with ⟨u, halone⟩ | halone
      · rw [halone] at h
        cases h
        exact Nat.zero_le _
      · rw [halone] at h
        cases h
  | text read Body hc hread hu =>
    rw [hu] at h
    split at h
    · next s m hm =>
      cases h
      obtain ⟨x, y, rfl, -, rfl⟩ := hread.1 hm
      simp
    · cases h
  | numeral hc =>
    obtain ⟨v, -, -, hn⟩ := (lexeme_numeral_eq_ok hc).1 h
    obtain ⟨rest, hrest⟩ := Numeral.exists_ofText_append (c :: r)
    have hlength := congrArg List.length hrest
    rw [List.length_append, List.length_cons] at hlength
    omega
  | name hc hu =>
    rw [hu] at h
    cases h
    exact (List.takeWhile_prefix _).length_le
  | other hc hu =>
    rw [hu] at h
    cases h

theorem exists_append_of_lexeme (h : lexeme offset c r = .ok (t, n)) :
    ∃ x y, r = x ++ y ∧ n = x.length := by
  refine ⟨r.take n, r.drop n, (List.take_append_drop n r).symm, ?_⟩
  rw [List.length_take, Nat.min_eq_left (lexeme_length h)]

theorem lexeme_settled (h : lexeme offset c (x ++ y) = .ok (t, n)) (hn : n ≤ x.length) :
    lexeme offset c x = .ok (t, n) := by
  cases start c with
  | symbol u hc hu =>
    rw [hu] at h ⊢
    exact h
  | paired u alone hc halone hu =>
    rw [hu] at h ⊢
    cases x with
    | nil =>
      split at h
      · cases h
        cases hn
      · exact h
    | cons d x => exact h
  | text read Body hc hread hu =>
    rw [hu] at h ⊢
    split at h
    · next s m hm =>
      cases h
      obtain ⟨body, rest, heq, hbody, rfl⟩ := hread.1 hm
      have hprefix : body ++ [c] <+: x := by
        apply List.prefix_of_prefix_length_le _ (List.prefix_append x y)
        · simpa using hn
        · exact ⟨rest, by rw [heq, List.append_assoc, List.singleton_append]⟩
      obtain ⟨rest', rfl⟩ := hprefix
      have hx : read (body ++ [c] ++ rest') = some (s, body.length + 1) :=
        hread.2 ⟨body, rest', by rw [List.append_assoc, List.singleton_append], hbody, rfl⟩
      rw [hx]
    · cases h
  | numeral hc =>
    obtain ⟨v, hv, ht, hlength⟩ := (lexeme_numeral_eq_ok hc).1 h
    have hsame : Numeral.ofText (c :: x ++ y) = Numeral.ofText (c :: x) := by
      apply Numeral.ofText_settled
      rw [List.cons_append, hlength]
      exact Nat.succ_le_succ hn
    rw [List.cons_append] at hsame
    rw [hsame] at hv hlength
    exact (lexeme_numeral_eq_ok hc).2 ⟨v, hv, ht, hlength⟩
  | name hc hu =>
    rw [hu] at h ⊢
    cases h
    rw [(takeWhile_settled hn).1]
  | other hc hu =>
    rw [hu] at h
    cases h

theorem lexeme_append (h : lexeme offset c x = .ok (t, n)) (y : List Char) :
    ∃ u m, lexeme offset c (x ++ y) = .ok (u, m) := by
  cases start c with
  | symbol u hc hu => exact ⟨_, _, hu offset _⟩
  | paired u alone hc halone hu =>
    rw [hu] at h ⊢
    cases x with
    | nil =>
      rw [if_neg nofun] at h
      split
      · exact ⟨_, _, rfl⟩
      · exact ⟨_, _, h⟩
    | cons d x => exact ⟨_, _, h⟩
  | text read Body hc hread hu =>
    rw [hu] at h ⊢
    split at h
    · next s m hm =>
      obtain ⟨body, rest, rfl, hbody, rfl⟩ := hread.1 hm
      have hx : read (body ++ c :: rest ++ y) = some (s, body.length + 1) :=
        hread.2 ⟨body, rest ++ y, by rw [List.append_assoc, List.cons_append], hbody, rfl⟩
      rw [hx]
      exact ⟨_, _, rfl⟩
    · cases h
  | numeral hc =>
    obtain ⟨v, hv, -, -⟩ := (lexeme_numeral_eq_ok hc).1 h
    rw [lexeme_number offset hc]
    cases hmore : (Numeral.ofText (c :: (x ++ y))).value? with
    | some v => exact ⟨_, _, rfl⟩
    | none =>
      obtain ⟨hpoint, hdigits⟩ := (Numeral.value?_eq_none_iff hc).1 hmore
      have hnone := (Numeral.value?_eq_none_iff hc).2 ⟨hpoint, takeWhile_nil_of_append hdigits⟩
      rw [hnone] at hv
      cases hv
  | name hc hu => exact ⟨_, _, hu offset _⟩
  | other hc hu =>
    rw [hu] at h
    cases h

theorem blank_cases (h : isBlank w = true) :
    w = ' ' ∨ w = '\t' ∨ w = '\n' ∨ w = '\r' ∨ w = '\x0c' := by
  simpa only [isBlank, Bool.or_eq_true, decide_eq_true_eq, or_assoc] using h

theorem isNameChar_of_isBlank (h : isBlank w = true) : isNameChar w = false := by
  rcases blank_cases h with rfl | rfl | rfl | rfl | rfl <;> rfl

theorem not_isChar_of_isBlank (h : isBlank w = true) : ¬Numeral.IsChar w := by
  unfold Numeral.IsChar
  rcases blank_cases h with rfl | rfl | rfl | rfl | rfl <;> decide

theorem ofText_blank (hw : isBlank w = true) {v : Float}
    (h : (Numeral.ofText (x ++ w :: y)).value? = some v) :
    Numeral.ofText (x ++ w :: y) = Numeral.ofText x := by
  apply Numeral.ofText_settled
  -- a longer numeral would have the blank in it
  by_contra hlong
  rw [not_le] at hlong
  obtain ⟨rest, hrest⟩ := Numeral.exists_ofText_append (x ++ w :: y)
  have htext : x ++ [w] <+: x ++ w :: y := ⟨y, by rw [List.append_assoc, List.singleton_append]⟩
  have hprefix : x ++ [w] <+: (Numeral.ofText (x ++ w :: y)).chars := by
    apply List.prefix_of_prefix_length_le htext ⟨rest, hrest.symm⟩
    rw [List.length_append, List.length_singleton]
    exact hlong
  have hmem : w ∈ (Numeral.ofText (x ++ w :: y)).chars :=
    hprefix.subset (List.mem_append_right x List.mem_cons_self)
  exact not_isChar_of_isBlank hw (Numeral.isChar_chars (Numeral.ofText_legal h) w hmem)

theorem lexeme_blank (hw : isBlank w = true) (h : lexeme offset c x = .ok (t, n)) (y : List Char) :
    lexeme offset c (x ++ w :: y) = .ok (t, n) := by
  cases start c with
  | symbol u hc hu =>
    rw [hu] at h ⊢
    exact h
  | paired u alone hc halone hu =>
    rw [hu] at h ⊢
    cases x with
    | nil =>
      have hne : w ≠ '=' := by
        rintro rfl
        cases hw
      rw [if_neg nofun] at h
      rw [if_neg (by simpa using hne), h]
    | cons d x => exact h
  | text read Body hc hread hu =>
    rw [hu] at h ⊢
    split at h
    · next s m hm =>
      obtain ⟨body, rest, rfl, hbody, rfl⟩ := hread.1 hm
      have hx : read (body ++ c :: rest ++ w :: y) = some (s, body.length + 1) :=
        hread.2 ⟨body, rest ++ w :: y, by rw [List.append_assoc, List.cons_append], hbody, rfl⟩
      rw [hx]
      exact h
    · cases h
  | numeral hc =>
    -- that there is a numeral at all with more text is known, not yet that it is the same
    obtain ⟨u, m, hmore⟩ := lexeme_append h (w :: y)
    obtain ⟨v, hv, hu, hm⟩ := (lexeme_numeral_eq_ok hc).1 hmore
    have hsame : Numeral.ofText (c :: (x ++ w :: y)) = Numeral.ofText (c :: x) :=
      ofText_blank (x := c :: x) hw hv
    rw [lexeme_number offset hc] at h ⊢
    rw [hsame]
    exact h
  | name hc hu =>
    rw [hu] at h ⊢
    rw [takeWhile_stop (isNameChar_of_isBlank hw)]
    exact h
  | other hc hu =>
    rw [hu] at h
    cases h

end

end FlowGraph.Expression
