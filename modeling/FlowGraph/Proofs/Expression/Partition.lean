import FlowGraph.Proofs.Expression.Separation

namespace FlowGraph.Expression

variable {s : String}

def textFrom (p : s.Pos) : List Char := (s.sliceFrom p).copy.toList

theorem splits_textFrom (p : s.Pos) : p.Splits (s.sliceTo p).copy (String.ofList (textFrom p)) := by
  rw [textFrom, String.ofList_toList]
  exact p.splits

theorem textFrom_of_splits {p : s.Pos} {t u : String} (h : p.Splits t u) :
    textFrom p = u.toList := by
  rw [textFrom, h.copy_sliceFrom_eq]

theorem textFrom_startPos (s : String) : textFrom s.startPos = s.toList :=
  textFrom_of_splits s.splits_startPos

theorem textFrom_eq_nil {p : s.Pos} : textFrom p = [] ↔ p = s.endPos := by
  have hp := splits_textFrom p
  constructor
  · intro h
    rw [h] at hp
    exact (String.Pos.splits_empty_right_iff.1 hp).1
  · rintro rfl
    exact textFrom_of_splits s.splits_endPos

theorem textFrom_next {p : s.Pos} (h : p ≠ s.endPos) :
    textFrom p = p.get h :: textFrom (p.next h) := by
  rw [textFrom_of_splits (p.splits_next_right h), String.toList_append, String.toList_singleton]
  rfl

theorem byteIdx_of_splits {p : s.Pos} {t u : String} (h : p.Splits t u) :
    p.offset.byteIdx = t.utf8ByteSize := by
  rw [h.offset_eq_rawEndPos, String.byteIdx_rawEndPos]

theorem lt_of_byteIdx_eq {p q : s.Pos} {c : Char} {x : List Char} (h : q.offset.byteIdx =
    p.offset.byteIdx + (String.ofList (c :: x)).utf8ByteSize) : p < q := by
  have hpos := c.utf8Size_pos
  rw [String.ofList_cons, String.utf8ByteSize_append, String.utf8ByteSize_singleton] at h
  rw [String.Pos.lt_iff, String.Pos.Raw.lt_iff]
  omega

theorem exists_pos {p : s.Pos} {x y : List Char} (h : textFrom p = x ++ y) :
    ∃ q : s.Pos, textFrom q = y ∧ p ≤ q ∧ String.extract p q = String.ofList x ∧
      q.offset.byteIdx = p.offset.byteIdx + (String.ofList x).utf8ByteSize := by
  have hp := splits_textFrom p
  rw [h, String.ofList_append] at hp
  have hs : s = (s.sliceTo p).copy ++ String.ofList x ++ String.ofList y := by
    rw [String.append_assoc]
    exact hp.eq_append
  have hq := String.Pos.splits_ofEqAppend hs
  obtain ⟨hle, hcopy⟩ := String.copy_slice_eq_iff_splits.2 ⟨_, _, hp, hq⟩
  refine ⟨_, ?_, hle, ?_, ?_⟩
  · rw [textFrom_of_splits hq, String.toList_ofList]
  · rw [String.extract_eq_copy_slice _ _ hle, hcopy]
  · rw [byteIdx_of_splits hq, byteIdx_of_splits hp, String.utf8ByteSize_append]

theorem textFrom_le {p q : s.Pos} (h : p ≤ q) :
    textFrom p = (String.extract p q).toList ++ textFrom q := by
  have hp := p.splits
  have hq := q.splits
  obtain ⟨t, hto, hfrom⟩ := (hp.le_iff_exists_eq_append hq).1 h
  rw [hfrom] at hp
  rw [hto] at hq
  obtain ⟨hle, hcopy⟩ := String.copy_slice_eq_iff_splits.2 ⟨_, _, hp, hq⟩
  rw [String.extract_eq_copy_slice _ _ h, hcopy, textFrom, hfrom, String.toList_append, textFrom]

structure Lexeme (s : String) where
  token : Token
  start : s.Pos
  stop : s.Pos

namespace Lexeme

def text (l : Lexeme s) : String := String.extract l.start l.stop

def placed (l : Lexeme s) : Placed := ⟨l.token, l.start.offset.byteIdx⟩

/-- The text is read as the token, and any longer text from there on that is read as one token has
only blanks in addition. It begins and ends with a character of one byte. -/
structure Exact (l : Lexeme s) : Prop where
  nonempty : l.start < l.stop
  alone : tokenize l.text = .ok [⟨l.token, 0⟩]
  longest : ∀ q t, l.stop ≤ q → tokenize (String.extract l.start q) = .ok [⟨t, 0⟩] →
    ∀ c ∈ (String.extract l.stop q).toList, isBlank c = true
  first : ∃ q : s.Pos, q.offset.byteIdx = l.start.offset.byteIdx + 1
  last : ∃ q : s.Pos, q.offset.byteIdx + 1 = l.stop.offset.byteIdx

end Lexeme

/-- From `p` to `q` there are these lexemes one after the other, and blanks. -/
structure Covers (p q : s.Pos) (ls : List (Lexeme s)) : Prop where
  le : p ≤ q
  exact : ∀ l ∈ ls, l.Exact
  within : ∀ l ∈ ls, p ≤ l.start ∧ l.stop ≤ q
  apart : ls.Pairwise fun l m => l.stop ≤ m.start
  blank : ∀ a, p ≤ a → a < q → (∀ l ∈ ls, ¬(l.start ≤ a ∧ a < l.stop)) →
    ∀ h, isBlank (a.get h) = true

namespace Covers

variable {p q : s.Pos} {ls : List (Lexeme s)}

theorem nil (p : s.Pos) : Covers p p [] where
  le := String.Pos.le_refl p
  exact := List.forall_mem_nil _
  within := List.forall_mem_nil _
  apart := .nil
  blank a hpa hap _ _ := by
    simp only [String.Pos.le_iff, String.Pos.lt_iff, String.Pos.Raw.le_iff,
      String.Pos.Raw.lt_iff] at hpa hap
    omega

theorem next {h : p ≠ s.endPos} (hblank : isBlank (p.get h) = true) (hc : Covers (p.next h) q ls) :
    Covers p q ls where
  le := String.Pos.le_trans String.Pos.le_next hc.le
  exact := hc.exact
  within l hl := ⟨String.Pos.le_trans String.Pos.le_next (hc.within l hl).1, (hc.within l hl).2⟩
  apart := hc.apart
  blank a hpa haq hout ha := by
    by_cases hap : p = a
    · subst hap
      exact hblank
    · have hlt : p < a := String.Pos.lt_of_le_of_ne hpa hap
      exact hc.blank a (String.Pos.next_le_iff_lt.2 hlt) haq hout ha

theorem cons {l : Lexeme s} (hl : l.Exact) (hc : Covers l.stop q ls) :
    Covers l.start q (l :: ls) where
  le := String.Pos.le_trans (String.Pos.le_of_lt hl.nonempty) hc.le
  exact := List.forall_mem_cons.2 ⟨hl, hc.exact⟩
  within := by
    refine List.forall_mem_cons.2 ⟨⟨String.Pos.le_refl _, hc.le⟩, fun m hm => ?_⟩
    obtain ⟨hstart, hstop⟩ := hc.within m hm
    exact ⟨String.Pos.le_trans (String.Pos.le_of_lt hl.nonempty) hstart, hstop⟩
  apart := List.pairwise_cons.2 ⟨fun m hm => (hc.within m hm).1, hc.apart⟩
  blank a hpa haq hout ha := by
    obtain ⟨hfirst, hrest⟩ := List.forall_mem_cons.1 hout
    have hstop : l.stop ≤ a := by
      simp only [String.Pos.le_iff, String.Pos.lt_iff, String.Pos.Raw.le_iff,
        String.Pos.Raw.lt_iff] at hfirst hpa ⊢
      omega
    exact hc.blank a hstop haq hrest ha

end Covers

section

variable {c : Char} {r x y : List Char} {t : Token} {offset n : Nat}

theorem utf8Size_of_isAlphanum (h : c.isAlphanum = true) : c.utf8Size = 1 := by
  have hletter : c.val ≤ 'z'.val := by
    rcases Bool.or_eq_true_iff.1 h with h | hdigit
    · rcases Bool.or_eq_true_iff.1 h with hupper | hlower
      · have hle : c.val ≤ 'Z'.val := (of_decide_eq_true hupper).2
        exact UInt32.le_trans hle (by decide)
      · exact of_decide_eq_true (Bool.and_eq_true_iff.1 hlower).2
    · have hle : c.val ≤ '9'.val := of_decide_eq_true (Bool.and_eq_true_iff.1 hdigit).2
      exact UInt32.le_trans hle (by decide)
  exact Char.utf8Size_eq_one_iff.2 (UInt32.le_trans hletter (by decide))

theorem utf8Size_of_isNameChar (h : isNameChar c = true) : c.utf8Size = 1 := by
  rw [isNameChar, Bool.or_eq_true, decide_eq_true_eq] at h
  rcases h with rfl | h
  · rfl
  · exact utf8Size_of_isAlphanum h

theorem isNameChar_of_isNameStart (h : isNameStart c = true) : isNameChar c = true := by
  rw [isNameStart, Bool.or_eq_true, decide_eq_true_eq] at h
  rw [isNameChar, Bool.or_eq_true, decide_eq_true_eq]
  exact h.imp_right fun h => by rw [Char.isAlphanum, h, Bool.true_or]

theorem utf8Size_of_isChar (h : Numeral.IsChar c) : c.utf8Size = 1 := by
  rcases h with h | h
  · exact utf8Size_of_isAlphanum (by rw [Char.isAlphanum, h, Bool.or_true])
  · simp only [List.mem_cons, List.not_mem_nil, or_false] at h
    rcases h with rfl | rfl | rfl | rfl | rfl <;> rfl

theorem exists_last (h : ∀ d ∈ c :: x, d.utf8Size = 1) :
    ∃ z d, c :: x = z ++ [d] ∧ d.utf8Size = 1 :=
  ⟨_, _, (List.dropLast_append_getLast (List.cons_ne_nil c x)).symm, h _ (List.getLast_mem _)⟩

theorem lexeme_edges (h : lexeme offset c (x ++ y) = .ok (t, x.length)) :
    c.utf8Size = 1 ∧ ∃ z d, c :: x = z ++ [d] ∧ d.utf8Size = 1 := by
  cases start c with
  | symbol u hc hu =>
    rw [hu] at h
    simp only [Except.ok.injEq, Prod.mk.injEq] at h
    obtain rfl : x = [] := List.eq_nil_of_length_eq_zero h.2.symm
    exact ⟨hc, [], c, rfl, hc⟩
  | paired u alone hc halone hu =>
    rw [hu] at h
    cases x with
    | nil => exact ⟨hc.1, [], c, rfl, hc.1⟩
    | cons d x =>
      split at h
      · next hd =>
        obtain rfl : d = '=' := Option.some.inj hd
        simp only [Except.ok.injEq, Prod.mk.injEq, List.length_cons] at h
        obtain rfl : x = [] := List.eq_nil_of_length_eq_zero (by omega)
        exact ⟨hc.1, [c], '=', rfl, rfl⟩
      · rcases halone with ⟨v, halone⟩ | halone
        · rw [halone] at h
          simp only [Except.ok.injEq, Prod.mk.injEq, List.length_cons] at h
          omega
        · rw [halone] at h
          cases h
  | text read Body hc hread hu =>
    have hsize : c.utf8Size = 1 := by
      rcases hc with ⟨rfl, -⟩ | ⟨rfl, -⟩ <;> rfl
    rw [hu] at h
    split at h
    · next v m hm =>
      simp only [Except.ok.injEq, Prod.mk.injEq] at h
      obtain ⟨body, rest, heq, -, hlength⟩ := hread.1 hm
      have hx : x = body ++ [c] := by
        apply (List.append_inj (heq.trans (List.append_cons body c rest)) _).1
        rw [← h.2, hlength, List.length_append, List.length_singleton]
      exact ⟨hsize, c :: body, c, by rw [hx, List.cons_append], hsize⟩
    · cases h
  | numeral hc =>
    obtain ⟨v, hv, -, hlength⟩ := (lexeme_numeral_eq_ok hc).1 h
    obtain ⟨rest, hrest⟩ := Numeral.exists_ofText_append (c :: (x ++ y))
    have hchars : c :: x = (Numeral.ofText (c :: (x ++ y))).chars := by
      refine (List.append_inj (?_ : (c :: x) ++ y = _ ++ rest) ?_).1
      · rw [List.cons_append]
        exact hrest
      · rw [hlength, List.length_cons]
    have hall : ∀ d ∈ c :: x, d.utf8Size = 1 := by
      rw [hchars]
      exact fun d hd => utf8Size_of_isChar (Numeral.isChar_chars (Numeral.ofText_legal hv) d hd)
    exact ⟨hall c List.mem_cons_self, exists_last hall⟩
  | name hc hu =>
    rw [hu] at h
    simp only [Except.ok.injEq, Prod.mk.injEq] at h
    have hx : (x ++ y).takeWhile isNameChar = x :=
      (List.prefix_of_prefix_length_le (List.takeWhile_prefix _) (List.prefix_append x y)
        h.2.le).eq_of_length h.2
    have hall : ∀ d ∈ c :: x, d.utf8Size = 1 := by
      refine List.forall_mem_cons.2 ⟨utf8Size_of_isNameChar (isNameChar_of_isNameStart hc), ?_⟩
      rw [← hx]
      exact fun d hd => utf8Size_of_isNameChar (List.mem_takeWhile_imp hd)
    exact ⟨hall c List.mem_cons_self, exists_last hall⟩
  | other hc hu =>
    rw [hu] at h
    cases h

theorem scan_eq_nil {z : List Char} (h : scan offset 0 z = .ok []) : ∀ c ∈ z, isBlank c = true := by
  induction z generalizing offset with
  | nil => exact List.forall_mem_nil _
  | cons c z ih =>
    rw [scan] at h
    dsimp only at h
    split at h
    · next hc => exact List.forall_mem_cons.2 ⟨hc, ih h⟩
    · obtain ⟨⟨t, n⟩, -, h⟩ := bind_eq_ok.1 h
      obtain ⟨ps, -, h⟩ := bind_eq_ok.1 h
      cases h

theorem utf8ByteSize_singleton_eq (hc : c.utf8Size = 1) : (String.ofList [c]).utf8ByteSize = 1 := by
  rw [← String.singleton_eq_ofList, String.utf8ByteSize_singleton, hc]

theorem exists_exact {p : s.Pos} (hp : textFrom p = c :: (x ++ y)) (hc : isBlank c = false)
    (h : lexeme offset c (x ++ y) = .ok (t, x.length)) :
    ∃ q : s.Pos, textFrom q = y ∧ (Lexeme.mk t p q).Exact ∧
      q.offset.byteIdx = p.offset.byteIdx + (String.ofList (c :: x)).utf8ByteSize := by
  obtain ⟨q, hq, hle, htext, hbyte⟩ := exists_pos (x := c :: x) hp
  obtain ⟨hfirst, z, d, hlast, hd⟩ := lexeme_edges h
  refine ⟨q, hq, ⟨?_, ?_, ?_, ?_, ?_⟩, hbyte⟩
  · exact lt_of_byteIdx_eq hbyte
  · have halone : lexeme 0 c (x ++ []) = .ok (t, x.length) := by
      rw [List.append_nil]
      exact lexeme_offset (lexeme_settled h (Nat.le_refl _)) 0
    rw [Lexeme.text, htext, tokenize_lexeme hc halone]
  · intro b u hqb hb
    have hy : y = (String.extract q b).toList ++ textFrom b := hq.symm.trans (textFrom_le hqb)
    have hmore : (String.extract p b).toList = c :: (x ++ (String.extract q b).toList) := by
      have hparts := textFrom_le (String.Pos.le_trans hle hqb)
      rw [hp, hy, ← List.append_assoc, ← List.cons_append] at hparts
      exact (List.append_cancel_right hparts).symm
    have htoken : lexeme 0 c (x ++ (String.extract q b).toList) = .ok (t, x.length) := by
      rw [hy, ← List.append_assoc] at h
      exact lexeme_offset (lexeme_settled h (by simp)) 0
    rw [tokenize, hmore, scan_lexeme hc htoken] at hb
    obtain ⟨ps, hps, heq⟩ := map_eq_ok.1 hb
    cases heq
    exact scan_eq_nil hps
  · obtain ⟨q', -, -, -, hbyte'⟩ := exists_pos (x := [c]) hp
    exact ⟨q', by rw [hbyte', utf8ByteSize_singleton_eq hfirst]⟩
  · have hz : textFrom p = z ++ (d :: y) := by
      rw [hp, ← List.cons_append, hlast, List.append_assoc, List.singleton_append]
    obtain ⟨q', -, -, -, hbyte'⟩ := exists_pos hz
    refine ⟨q', ?_⟩
    rw [hbyte', hbyte, hlast, String.ofList_append, String.utf8ByteSize_append,
      utf8ByteSize_singleton_eq hd, Nat.add_assoc]

end

/-- A point that no digit follows. -/
def LonePoint (p : s.Pos) : Prop :=
  p.get? = some '.' ∧ ∀ h d, (p.next h).get? = some d → d.isDigit = false

/-- An odd number of backslashes stands before `q`, counted from `p` on. -/
def Escaped (p q : s.Pos) : Prop :=
  ((String.extract p q).toList.reverse.takeWhile (· = '\\')).length % 2 = 1

/-- A quote that nothing closes: after it there is no other backtick, or no other double quote
but such as have a backslash before them. -/
def Unclosed (p : s.Pos) : Prop :=
  (p.get? = some '\x60' ∧ ∀ q, p < q → q.get? ≠ some '\x60') ∨
    (p.get? = some '"' ∧ ∀ q, p < q → q.get? = some '"' → Escaped p q)

/-- Nothing can be read at `p`, and the error says why. -/
structure Refused (p : s.Pos) (e : Error) : Prop where
  notBlank : ∀ c, p.get? = some c → isBlank c = false
  nothing : ∀ q t, p ≤ q → tokenize (String.extract p q) ≠ .ok [⟨t, 0⟩]
  reason : (∃ c, p.get? = some c ∧ e = .unexpectedChar c p.offset.byteIdx) ∨
    (Unclosed p ∧ e = .unterminatedString p.offset.byteIdx) ∨
    ∃ q, p < q ∧ e = .invalidNumber (String.extract p q)
  number : (∃ literal, e = .invalidNumber literal) ↔ LonePoint p

section

variable {c : Char} {r x y : List Char} {t : Token} {offset n : Nat} {e : Error}

theorem slashes_escape (c : Char) (x : List Char) :
    (('\\' :: c :: x).reverse.takeWhile (· = '\\')).length % 2 =
      (x.reverse.takeWhile (· = '\\')).length % 2 := by
  rw [List.reverse_cons, List.reverse_cons, List.append_assoc, List.singleton_append]
  by_cases hc : c = '\\'
  · subst hc
    rw [List.takeWhile_append]
    split
    · next hall =>
      rw [hall, List.length_reverse]
      simp
    · rfl
  · rw [takeWhile_stop (decide_eq_false hc)]

theorem escaped_of_quoted (h : quoted (x ++ '"' :: y) = none) :
    (x.reverse.takeWhile (· = '\\')).length % 2 = 1 := by
  induction x using quoted.induct with
  | case1 => cases h
  | case2 x => cases h
  | case3 => rfl
  | case4 c x ih =>
    rw [List.cons_append, List.cons_append, quoted_escape, Option.map_eq_none_iff] at h
    rw [slashes_escape]
    exact ih h
  | case5 c x hquote hlast hmore ih =>
    have hslash : c ≠ '\\' := ne_slash hlast hmore
    rw [List.cons_append, quoted_plain hquote hslash, Option.map_eq_none_iff] at h
    rw [List.reverse_cons, takeWhile_stop (decide_eq_false hslash)]
    exact ih h

theorem get?_eq_head? (p : s.Pos) : p.get? = (textFrom p).head? := by
  by_cases h : p = s.endPos
  · rw [textFrom_eq_nil.2 h, h, String.Pos.get?_endPos]
    rfl
  · rw [textFrom_next h, String.Pos.get?_eq_some_get h]
    rfl

theorem exists_extract_cons {p q : s.Pos} (hp : textFrom p = c :: r) (hpq : p < q) :
    ∃ x, (String.extract p q).toList = c :: x ∧ r = x ++ textFrom q := by
  have hparts := textFrom_le (String.Pos.le_of_lt hpq)
  rw [hp] at hparts
  cases htext : (String.extract p q).toList with
  | cons d x =>
    rw [htext, List.cons_append] at hparts
    obtain ⟨rfl, hr⟩ := List.cons.inj hparts
    exact ⟨x, rfl, hr⟩
  | nil =>
    have hend : p ≠ s.endPos := String.Pos.ne_endPos_of_lt hpq
    have hnext := textFrom_le (String.Pos.next_le_iff_lt.2 hpq : p.next hend ≤ q)
    have hr : textFrom (p.next hend) = r := by
      rw [textFrom_next hend] at hp
      exact (List.cons.inj hp).2
    rw [htext, List.nil_append] at hparts
    rw [hr, ← hparts] at hnext
    have hlength := congrArg List.length hnext
    rw [List.length_append, List.length_cons] at hlength
    omega

theorem unclosed_of_none {p : s.Pos} (hp : textFrom p = c :: r)
    (h : c = '"' ∧ quoted r = none ∨ c = '\x60' ∧ raw r = none) : Unclosed p := by
  have hget : p.get? = some c := by rw [get?_eq_head?, hp, List.head?_cons]
  rcases h with ⟨rfl, hnone⟩ | ⟨rfl, hnone⟩
  · refine .inr ⟨hget, fun q hpq hq => ?_⟩
    obtain ⟨x, htext, hr⟩ := exists_extract_cons hp hpq
    rw [get?_eq_head?] at hq
    obtain ⟨y, hy⟩ := List.head?_eq_some_iff.1 hq
    rw [hr, hy] at hnone
    rw [Escaped, htext, List.reverse_cons, takeWhile_stop rfl]
    exact escaped_of_quoted hnone
  · refine .inl ⟨hget, fun q hpq hq => ?_⟩
    obtain ⟨x, -, hr⟩ := exists_extract_cons hp hpq
    rw [get?_eq_head?] at hq
    have hmem : '\x60' ∈ r := by
      rw [hr]
      exact List.mem_append_right x (List.mem_of_head? hq)
    obtain ⟨before, after, rfl, hbefore⟩ := List.eq_append_cons_of_mem hmem
    rw [raw_closed hbefore] at hnone
    cases hnone

theorem lonePoint_iff {p : s.Pos} (hp : textFrom p = c :: r) :
    LonePoint p ↔ c = '.' ∧ r.takeWhile Char.isDigit = [] := by
  have hget : p.get? = some c := by rw [get?_eq_head?, hp, List.head?_cons]
  have hnext : ∀ h : p ≠ s.endPos, (p.next h).get? = r.head? := by
    intro h
    rw [textFrom_next h] at hp
    rw [get?_eq_head?, (List.cons.inj hp).2]
  have hend : p ≠ s.endPos := by
    intro h
    rw [textFrom_eq_nil.2 h] at hp
    cases hp
  rw [LonePoint, hget, Option.some.injEq]
  refine and_congr_right fun _ => ?_
  cases r with
  | nil => simp [hnext]
  | cons d r => simp [hnext, hend]

theorem refused {p : s.Pos} (hp : textFrom p = c :: r) (hc : isBlank c = false)
    (h : lexeme p.offset.byteIdx c r = .error e) : Refused p e where
  notBlank d hd := by
    rw [get?_eq_head?, hp, List.head?_cons] at hd
    cases hd
    exact hc
  nothing q t hpq htokens := by
    -- what is read of a part would be read of all that comes, too
    have hparts := textFrom_le hpq
    rw [hp] at hparts
    rw [tokenize] at htokens
    cases htext : (String.extract p q).toList with
    | nil =>
      rw [htext] at htokens
      cases htokens
    | cons d x =>
      rw [htext, List.cons_append] at hparts
      obtain ⟨rfl, hr⟩ := List.cons.inj hparts
      rw [htext, scan] at htokens
      simp only [hc, Bool.false_eq_true, ↓reduceIte] at htokens
      obtain ⟨⟨u, n⟩, hu, -⟩ := bind_eq_ok.1 htokens
      obtain ⟨v, m, hmore⟩ := lexeme_append hu (textFrom q)
      rw [← hr] at hmore
      rw [lexeme_offset hmore] at h
      cases h
  reason := by
    have hget : p.get? = some c := by rw [get?_eq_head?, hp, List.head?_cons]
    rcases lexeme_eq_error h with ⟨-, rfl⟩ | ⟨hnone, rfl⟩ | ⟨⟨rfl, -⟩, rfl⟩
    · exact .inl ⟨c, hget, rfl⟩
    · exact .inr (.inl ⟨unclosed_of_none hp hnone, rfl⟩)
    · obtain ⟨rest, hrest⟩ := Numeral.exists_ofText_append ('.' :: r)
      obtain ⟨q, -, hpq, htext, hbyte⟩ := exists_pos (hp.trans hrest)
      refine .inr (.inr ⟨q, ?_, by rw [htext]⟩)
      have hpoint : ('.' :: r).dropWhile Char.isDigit = '.' :: r := rfl
      have hdigit : ¬Char.isDigit '.' = true := by decide
      rw [Numeral.ofText_pointed hpoint] at hbyte
      simp only [Numeral.chars, List.takeWhile_cons_of_neg hdigit, ↓reduceIte, List.nil_append,
        List.cons_append] at hbyte
      exact lt_of_byteIdx_eq hbyte
  number := by
    rw [lonePoint_iff hp]
    rcases lexeme_eq_error h with ⟨hpoint, rfl⟩ | ⟨hnone, rfl⟩ | ⟨hpoint, rfl⟩
    · simp [hpoint]
    · rcases hnone with ⟨rfl, -⟩ | ⟨rfl, -⟩ <;> simp
    · simp [hpoint]

end

inductive Outcome (p : s.Pos) : Except Error (List Placed) → Prop
  | all {ls : List (Lexeme s)} (h : Covers p s.endPos ls) : Outcome p (.ok (ls.map Lexeme.placed))
  | some {q : s.Pos} {ls : List (Lexeme s)} {e : Error} (h : Covers p q ls) (he : Refused q e) :
      Outcome p (.error e)

namespace Outcome

variable {p : s.Pos} {result : Except Error (List Placed)}

theorem next {h : p ≠ s.endPos} (hblank : isBlank (p.get h) = true)
    (hr : Outcome (p.next h) result) : Outcome p result := by
  cases hr with
  | all hc => exact .all (hc.next hblank)
  | some hc he => exact .some (hc.next hblank) he

theorem cons {l : Lexeme s} (hl : l.Exact) (hr : Outcome l.stop result) :
    Outcome l.start (result.map (l.placed :: ·)) := by
  cases hr with
  | all hc => exact .all (hc.cons hl)
  | some hc he => exact .some (hc.cons hl) he

end Outcome

theorem byteIdx_next {p : s.Pos} (h : p ≠ s.endPos) :
    (p.next h).offset.byteIdx = p.offset.byteIdx + (p.get h).utf8Size := by
  rw [String.Pos.offset_next, String.Pos.Raw.byteIdx_add_char]

theorem scan_outcome (p : s.Pos) : Outcome p (scan p.offset.byteIdx 0 (textFrom p)) := by
  -- every blank and every lexeme leaves less text
  induction hlength : (textFrom p).length using Nat.strongRecOn generalizing p with
  | ind k ih =>
    by_cases hend : p = s.endPos
    · rw [hend, textFrom_eq_nil.2 rfl]
      exact .all (Covers.nil s.endPos)
    obtain ⟨c, r, hc, hr⟩ : ∃ c r, p.get hend = c ∧ textFrom (p.next hend) = r := ⟨_, _, rfl, rfl⟩
    have hp := textFrom_next hend
    rw [hc, hr] at hp
    rw [hp, List.length_cons] at hlength
    rw [hp]
    cases hblank : isBlank c with
    | true =>
      have hnext := ih _ (by omega) (p.next hend) (congrArg List.length hr)
      rw [byteIdx_next, hc, hr] at hnext
      rw [scan_blank hblank]
      exact hnext.next (hc ▸ hblank)
    | false =>
      cases hlexeme : lexeme p.offset.byteIdx c r with
      | error e =>
        rw [scan_error hblank hlexeme]
        exact .some (Covers.nil p) (refused hp hblank hlexeme)
      | ok found =>
        obtain ⟨t, n⟩ := found
        obtain ⟨x, y, rfl, rfl⟩ := exists_append_of_lexeme hlexeme
        obtain ⟨q, hq, hexact, hbyte⟩ := exists_exact hp hblank hlexeme
        rw [List.length_append] at hlength
        have hrest := ih _ (by omega) q (congrArg List.length hq)
        rw [hq, hbyte] at hrest
        rw [scan_lexeme hblank hlexeme]
        exact hrest.cons hexact

theorem tokenize_outcome (s : String) : Outcome s.startPos (tokenize s) := by
  have h := scan_outcome s.startPos
  rwa [textFrom_startPos] at h

theorem Covers.increasing {p q : s.Pos} {ls : List (Lexeme s)} (h : Covers p q ls) :
    (ls.map Lexeme.placed).Pairwise (·.offset < ·.offset) := by
  refine List.pairwise_map.2 (h.apart.imp_of_mem fun {l m} hl _ hlm => ?_)
  exact String.Pos.lt_of_lt_of_le (h.exact l hl).nonempty hlm

/-- Every text is read to its end as lexemes in order, or up to the first place where nothing can
be read. -/
theorem tokenize_partitions (s : String) :
    match tokenize s with
    | .ok tokens => tokens.Pairwise (·.offset < ·.offset) ∧
        ∃ ls : List (Lexeme s), tokens = ls.map Lexeme.placed ∧ Covers s.startPos s.endPos ls
    | .error e => ∃ (p : s.Pos) (ls : List (Lexeme s)), Covers s.startPos p ls ∧ Refused p e := by
  have h := tokenize_outcome s
  generalize tokenize s = result at h ⊢
  cases h with
  | all h => exact ⟨h.increasing, _, rfl, h⟩
  | some h he => exact ⟨_, _, h, he⟩

end FlowGraph.Expression
