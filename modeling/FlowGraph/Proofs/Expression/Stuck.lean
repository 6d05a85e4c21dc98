import FlowGraph.Proofs.Expression.Partition

namespace FlowGraph.Expression

variable {s : String} {p q : s.Pos}

section

variable {c : Char} {r x y : List Char} {t : Token} {offset : Nat}

theorem scan_blanks {b : List Char} (hb : ∀ c ∈ b, isBlank c = true) (offset : Nat)
    (rest : List Char) :
    scan offset 0 (b ++ rest) = scan (offset + (String.ofList b).utf8ByteSize) 0 rest := by
  induction b generalizing offset with
  | nil => rfl
  | cons c b ih =>
    obtain ⟨hc, hb⟩ := List.forall_mem_cons.1 hb
    rw [List.cons_append, scan_blank hc, ih hb, String.ofList_cons, String.utf8ByteSize_append,
      String.utf8ByteSize_singleton, Nat.add_assoc]

theorem exists_lexeme (h : scan 0 0 r = .ok [⟨t, 0⟩]) : ∃ c x b, r = c :: (x ++ b) ∧
    isBlank c = false ∧ lexeme 0 c (x ++ b) = .ok (t, x.length) ∧ ∀ w ∈ b, isBlank w = true := by
  cases r with
  | nil => cases h
  | cons c r =>
    cases hc : isBlank c with
    | true =>
      rw [scan_blank hc, Nat.zero_add, ← Nat.add_zero c.utf8Size, scan_shift] at h
      obtain ⟨ps, -, hps⟩ := map_eq_ok.1 h
      obtain ⟨placed, -, hplaced⟩ := List.mem_map.1 (hps ▸ List.mem_singleton_self _)
      have hoffset := congrArg Placed.offset hplaced
      have hpos := c.utf8Size_pos
      simp only [Placed.shift] at hoffset
      omega
    | false =>
      cases hlexeme : lexeme 0 c r with
      | error e =>
        rw [scan_error hc hlexeme] at h
        cases h
      | ok found =>
        obtain ⟨u, n⟩ := found
        obtain ⟨x, b, rfl, rfl⟩ := exists_append_of_lexeme hlexeme
        rw [scan_lexeme hc hlexeme] at h
        obtain ⟨ps, hps, heq⟩ := map_eq_ok.1 h
        cases heq
        exact ⟨c, x, b, rfl, hc, hlexeme, scan_eq_nil hps⟩

theorem even_of_quotedBody {x s : List Char} (h : QuotedBody x s) :
    (x.reverse.takeWhile (· = '\\')).length % 2 = 0 := by
  induction h with
  | nil => rfl
  | escape c h ih =>
    rw [slashes_escape]
    exact ih
  | plain hquote hslash h ih =>
    rw [List.reverse_cons, takeWhile_stop (decide_eq_false hslash)]
    exact ih

end

theorem byteIdx_add_textFrom (p : s.Pos) :
    p.offset.byteIdx + (String.ofList (textFrom p)).utf8ByteSize = s.utf8ByteSize := by
  have hp := splits_textFrom p
  rw [byteIdx_of_splits hp, ← String.utf8ByteSize_append, ← hp.eq_append]

theorem byteIdx_extract (h : p ≤ q) :
    q.offset.byteIdx = p.offset.byteIdx + (String.extract p q).utf8ByteSize := by
  have hp := byteIdx_add_textFrom p
  have hq := byteIdx_add_textFrom q
  rw [textFrom_le h, String.ofList_append, String.utf8ByteSize_append, String.ofList_toList] at hp
  omega

theorem le_of_textFrom {y : List Char} (h : textFrom p = y ++ textFrom q) : p ≤ q := by
  have hp := byteIdx_add_textFrom p
  have hq := byteIdx_add_textFrom q
  rw [h, String.ofList_append, String.utf8ByteSize_append] at hp
  rw [String.Pos.le_iff, String.Pos.Raw.le_iff]
  omega

theorem scan_gap (hpq : p ≤ q) (h : ∀ a, p ≤ a → a < q → ∀ ha, isBlank (a.get ha) = true) :
    scan p.offset.byteIdx 0 (textFrom p) = scan q.offset.byteIdx 0 (textFrom q) := by
  induction hn : (textFrom p).length generalizing p with
  | zero =>
    obtain rfl : p = s.endPos := textFrom_eq_nil.1 (List.eq_nil_of_length_eq_zero hn)
    rw [Std.le_antisymm hpq (String.Pos.le_endPos q)]
  | succ n ih =>
    by_cases heq : p = q
    · rw [heq]
    · have hlt : p < q := String.Pos.lt_of_le_of_ne hpq heq
      have hend : p ≠ s.endPos := String.Pos.ne_endPos_of_lt hlt
      rw [textFrom_next hend, List.length_cons, Nat.succ.injEq] at hn
      rw [textFrom_next hend, scan_blank (h p (String.Pos.le_refl p) hlt hend), ← byteIdx_next]
      refine ih (String.Pos.next_le_iff_lt.2 hlt) (fun a hpa => h a ?_) hn
      exact String.Pos.le_trans String.Pos.le_next hpa

namespace Lexeme.Exact

variable {l : Lexeme s}

theorem lexeme (h : l.Exact) {c : Char} {x b : List Char} (htext : l.text.toList = c :: (x ++ b))
    (hc : isBlank c = false) (hlexeme : lexeme 0 c (x ++ b) = .ok (l.token, x.length))
    (hb : ∀ w ∈ b, isBlank w = true) :
    Expression.lexeme 0 c (x ++ (b ++ textFrom l.stop)) = .ok (l.token, x.length) := by
  have halone := lexeme_settled hlexeme (Nat.le_refl _)
  cases b with
  | cons w b => exact lexeme_blank (hb w List.mem_cons_self) halone _
  | nil =>
    rw [List.nil_append]
    obtain ⟨u, n, hmore⟩ := lexeme_append halone (textFrom l.stop)
    obtain ⟨z, rest, hz, rfl⟩ := exists_append_of_lexeme hmore
    by_cases hshort : z.length ≤ x.length
    · rw [hmore, ← halone, lexeme_settled hmore hshort]
    -- a longer token has only blanks in addition, and would have ended before them
    obtain ⟨y, rfl⟩ : x <+: z := by
      apply List.prefix_of_prefix_length_le (List.prefix_append x _) ⟨rest, hz.symm⟩
      omega
    have hstart : textFrom l.start = c :: (x ++ y ++ rest) := by
      rw [textFrom_le (String.Pos.le_of_lt h.nonempty), ← Lexeme.text, htext, List.append_nil,
        List.cons_append, hz]
    rw [hz] at hmore
    obtain ⟨q, hq, hlonger, -⟩ := exists_exact hstart hc hmore
    have hy : textFrom l.stop = y ++ textFrom q := by
      rw [hq]
      exact List.append_cancel_left (hz.trans (List.append_assoc x y rest))
    have hstop : l.stop ≤ q := le_of_textFrom hy
    have hblank := h.longest q u hstop hlonger.alone
    rw [textFrom_le hstop] at hy
    rw [List.append_cancel_right hy] at hblank
    cases y with
    | nil => simp at hshort
    | cons w y =>
      rw [hz, List.append_assoc]
      exact lexeme_blank (hblank w List.mem_cons_self) halone _

theorem scan (h : l.Exact) : scan l.start.offset.byteIdx 0 (textFrom l.start) =
    (scan l.stop.offset.byteIdx 0 (textFrom l.stop)).map (l.placed :: ·) := by
  have hle : l.start ≤ l.stop := String.Pos.le_of_lt h.nonempty
  obtain ⟨c, x, b, htext, hc, hlexeme, hb⟩ := exists_lexeme h.alone
  have hstart : textFrom l.start = c :: (x ++ (b ++ textFrom l.stop)) := by
    rw [textFrom_le hle, ← Lexeme.text, htext, List.cons_append, List.append_assoc]
  have hsize : l.stop.offset.byteIdx = l.start.offset.byteIdx +
      (String.ofList (c :: x)).utf8ByteSize + (String.ofList b).utf8ByteSize := by
    rw [byteIdx_extract hle, ← Lexeme.text, ← String.ofList_toList (s := l.text), htext,
      ← List.cons_append, String.ofList_append, String.utf8ByteSize_append, Nat.add_assoc]
  have hread := lexeme_offset (h.lexeme htext hc hlexeme hb) l.start.offset.byteIdx
  rw [hstart, scan_lexeme hc hread, scan_blanks hb, hsize]
  rfl

end Lexeme.Exact

namespace Covers

variable {ls : List (Lexeme s)}

theorem tail {l : Lexeme s} (h : Covers p q (l :: ls)) : Covers l.stop q ls where
  le := (h.within l List.mem_cons_self).2
  exact m hm := h.exact m (List.mem_cons_of_mem l hm)
  within m hm :=
    ⟨(List.pairwise_cons.1 h.apart).1 m hm, (h.within m (List.mem_cons_of_mem l hm)).2⟩
  apart := (List.pairwise_cons.1 h.apart).2
  blank a hla haq hout := by
    have hpl := (h.within l List.mem_cons_self).1
    have hnonempty := String.Pos.le_of_lt (h.exact l List.mem_cons_self).nonempty
    refine h.blank a (Std.le_trans hpl (Std.le_trans hnonempty hla)) haq ?_
    exact List.forall_mem_cons.2 ⟨fun hin => Std.not_lt_of_ge hla hin.2, hout⟩

theorem scan (h : Covers p q ls) : scan p.offset.byteIdx 0 (textFrom p) =
    (scan q.offset.byteIdx 0 (textFrom q)).map (ls.map Lexeme.placed ++ ·) := by
  induction ls generalizing p with
  | nil =>
    rw [scan_gap h.le fun a hpa haq => h.blank a hpa haq (List.forall_mem_nil _)]
    cases Expression.scan q.offset.byteIdx 0 (textFrom q) <;> rfl
  | cons l ls ih =>
    have hl := h.exact l List.mem_cons_self
    obtain ⟨hpl, hlq⟩ := h.within l List.mem_cons_self
    have hgap : ∀ a, p ≤ a → a < l.start → ∀ ha, isBlank (a.get ha) = true := by
      intro a hpa hal
      have hstop : a < l.stop := Std.lt_trans hal hl.nonempty
      refine h.blank a hpa (Std.lt_of_lt_of_le hstop hlq) (List.forall_mem_cons.2 ⟨?_, ?_⟩)
      · exact fun hin => Std.not_lt_of_ge hin.1 hal
      · intro m hm hin
        have hlm := (List.pairwise_cons.1 h.apart).1 m hm
        exact Std.not_lt_of_ge hin.1 (Std.lt_of_lt_of_le hstop hlm)
    rw [scan_gap hpl hgap, hl.scan, ih h.tail]
    cases Expression.scan q.offset.byteIdx 0 (textFrom q) <;> rfl

end Covers

theorem tokenize_of_covers {ls : List (Lexeme s)} (h : Covers s.startPos p ls) {c : Char}
    {r : List Char} (hp : textFrom p = c :: r) (hc : isBlank c = false) {e : Error}
    (he : lexeme p.offset.byteIdx c r = .error e) : tokenize s = .error e := by
  have hscan := h.scan
  rw [textFrom_startPos, hp, scan_error hc he] at hscan
  exact hscan

/-- A character that nothing can be read at: half of a sign, or one that no token starts with. -/
def Stray (p : s.Pos) (c : Char) : Prop :=
  p.get? = some c ∧
    ((c = '=' ∨ c = '!') ∧ (∀ h, (p.next h).get? ≠ some '=') ∨
      isBlank c = false ∧ isNameStart c = false ∧ c.isDigit = false ∧ c ≠ '.' ∧
        c ∉ ['+', '-', '*', '/', '%', '(', ')', '=', '!', '<', '>', '"', '\x60'])

theorem exists_textFrom {c : Char} (h : p.get? = some c) : ∃ r, textFrom p = c :: r := by
  rw [get?_eq_head?] at h
  exact List.head?_eq_some_iff.1 h

section

variable {c : Char} {r : List Char}

theorem quoted_of_unclosed (hp : textFrom p = '"' :: r)
    (h : ∀ q, p < q → q.get? = some '"' → Escaped p q) : quoted r = none := by
  by_contra hsome
  obtain ⟨⟨t, n⟩, hread⟩ := Option.ne_none_iff_exists'.1 hsome
  obtain ⟨x, y, rfl, hx, -⟩ := quoted_eq_some_iff.1 hread
  obtain ⟨q, hq, hpq, htext, hsize⟩ := exists_pos (x := '"' :: x) hp
  have hquote : q.get? = some '"' := by rw [get?_eq_head?, hq, List.head?_cons]
  have hodd := h q (lt_of_byteIdx_eq hsize) hquote
  rw [Escaped, htext, String.toList_ofList, List.reverse_cons, takeWhile_stop rfl,
    even_of_quotedBody hx] at hodd
  cases hodd

theorem raw_of_unclosed (hp : textFrom p = '\x60' :: r)
    (h : ∀ q, p < q → q.get? ≠ some '\x60') : raw r = none := by
  apply raw_open
  intro hmem
  obtain ⟨x, y, rfl, -⟩ := List.eq_append_cons_of_mem hmem
  obtain ⟨q, hq, -, -, hsize⟩ := exists_pos (x := '\x60' :: x) hp
  exact h q (lt_of_byteIdx_eq hsize) (by rw [get?_eq_head?, hq, List.head?_cons])

theorem lexeme_of_stray (h : Stray p c) : ∃ r, textFrom p = c :: r ∧ isBlank c = false ∧
    ∀ offset, lexeme offset c r = .error (.unexpectedChar c offset) := by
  obtain ⟨hget, hc⟩ := h
  obtain ⟨r, hp⟩ := exists_textFrom hget
  refine ⟨r, hp, ?_⟩
  rcases hc with ⟨hsign, hnext⟩ | ⟨hblank, hname, hdigit, hpoint, hother⟩
  · have hend : p ≠ s.endPos := by
      rintro rfl
      rw [String.Pos.get?_endPos] at hget
      cases hget
    have hr : r.head? ≠ some '=' := by
      rw [textFrom_next hend] at hp
      rw [← (List.cons.inj hp).2, ← get?_eq_head?]
      exact hnext hend
    rcases hsign with rfl | rfl <;> exact ⟨rfl, fun _ => if_neg hr⟩
  · refine ⟨hblank, fun offset => ?_⟩
    rw [lexeme_word hother (by simp [hdigit, hpoint]), if_neg (by simp [hname])]

end

/-- After lexemes and blanks, what cannot be read ends the whole with an error of its own. -/
theorem tokenize_stuck {ls : List (Lexeme s)} (h : Covers s.startPos p ls) :
    (LonePoint p → ∃ q, p < q ∧ tokenize s = .error (.invalidNumber (String.extract p q))) ∧
      (Unclosed p → tokenize s = .error (.unterminatedString p.offset.byteIdx)) ∧
      ∀ c, Stray p c → tokenize s = .error (.unexpectedChar c p.offset.byteIdx) := by
  refine ⟨fun hpoint => ?_, fun hopen => ?_, fun c hc => ?_⟩
  · obtain ⟨r, hp⟩ := exists_textFrom hpoint.1
    have hnone := (Numeral.value?_eq_none_iff (.inr rfl)).2 ((lonePoint_iff hp).1 hpoint)
    have he := lexeme_number p.offset.byteIdx (.inr rfl) (r := r)
    rw [hnone] at he
    have herror := tokenize_of_covers h hp rfl he
    rcases (refused hp rfl he).reason with ⟨c, -, hother⟩ | ⟨-, hother⟩ | ⟨q, hpq, hnumber⟩
    · cases hother
    · cases hother
    · exact ⟨q, hpq, by rw [herror, hnumber]⟩
  · rcases hopen with ⟨hget, hnever⟩ | ⟨hget, hescaped⟩
    · obtain ⟨r, hp⟩ := exists_textFrom hget
      refine tokenize_of_covers h hp rfl ?_
      rw [lexeme, raw_of_unclosed hp hnever]
    · obtain ⟨r, hp⟩ := exists_textFrom hget
      refine tokenize_of_covers h hp rfl ?_
      rw [lexeme, quoted_of_unclosed hp hescaped]
  · obtain ⟨r, hp, hblank, he⟩ := lexeme_of_stray hc
    exact tokenize_of_covers h hp hblank (he _)

example : tokenize "1 =" = .error (.unexpectedChar '=' 2) := by decide +kernel

example : tokenize "2 + .x" = .error (.invalidNumber ".") := by decide +kernel

end FlowGraph.Expression
