import FlowGraph.Expression.Lexer
import FlowGraph.Proofs.Json.Tokens

namespace FlowGraph.Expression

def Ends (cs : List Char) : Prop := ∀ c ∈ cs.head?, c = ' '

theorem ends_nil : Ends [] := nofun

theorem ends_space (cs : List Char) : Ends (' ' :: cs) := by
  rintro c ⟨⟩
  rfl

theorem takeWhile_digits {ds cs : List Char} (hds : ∀ c ∈ ds, c.isDigit = true)
    (hcs : ∀ c ∈ cs.head?, c.isDigit = false) : (ds ++ cs).takeWhile Char.isDigit = ds := by
  rw [List.takeWhile_append_of_pos hds]
  cases cs with
  | nil => simp
  | cons c cs =>
    have hc : c.isDigit = false := hcs c rfl
    simp [hc]

theorem dropWhile_digits {ds cs : List Char} (hds : ∀ c ∈ ds, c.isDigit = true)
    (hcs : ∀ c ∈ cs.head?, c.isDigit = false) : (ds ++ cs).dropWhile Char.isDigit = cs := by
  rw [List.dropWhile_append_of_pos hds]
  cases cs with
  | nil => rfl
  | cons c cs =>
    have hc : c.isDigit = false := hcs c rfl
    simp [hc]

theorem Ends.isDigit {cs : List Char} (h : Ends cs) : ∀ c ∈ cs.head?, c.isDigit = false := by
  intro c hc
  rw [h c hc]
  decide

namespace Numeral

def unsigned : List Char → List Char
  | '+' :: ds | '-' :: ds => ds
  | ds => ds

def LegalExponent : List Char → Prop
  | [] => True
  | c :: r => (c = 'e' ∨ c = 'E') ∧ unsigned r ≠ [] ∧ ∀ d ∈ unsigned r, d.isDigit = true

structure Legal (n : Numeral) : Prop where
  whole : ∀ c ∈ n.whole, c.isDigit = true
  fraction : ∀ c ∈ n.fraction, c.isDigit = true
  point : n.point = false → n.fraction = []
  digits : n.whole ≠ [] ∨ n.fraction ≠ []
  exponent : LegalExponent n.exponent

theorem Legal.whole_only {ds : List Char} (hne : ds ≠ []) (hds : ∀ c ∈ ds, c.isDigit = true) :
    (Numeral.mk ds false [] []).Legal where
  whole := hds
  fraction := List.forall_mem_nil _
  point _ := rfl
  digits := .inl hne
  exponent := trivial

theorem Legal.pointed {ds fs : List Char} (hne : ds ≠ []) (hds : ∀ c ∈ ds, c.isDigit = true)
    (hfs : ∀ c ∈ fs, c.isDigit = true) : (Numeral.mk ds true fs []).Legal where
  whole := hds
  fraction := hfs
  point h := absurd h Bool.noConfusion
  digits := .inl hne
  exponent := trivial

def value (n : Numeral) : Float := Decimal.ofParts n.whole n.fraction n.power

theorem Legal.value? {n : Numeral} (h : n.Legal) : n.value? = some n.value := by
  have hdigits : ¬(n.whole = [] ∧ n.fraction = []) := by
    rintro ⟨hwhole, hfraction⟩
    exact h.digits.elim (· hwhole) (· hfraction)
  rw [Numeral.value?, if_neg hdigits, value]

theorem unsigned_cons (s : Char) (r : List Char) :
    unsigned (s :: r) = if s = '+' ∨ s = '-' then r else s :: r := by
  split
  · next hs => rcases hs with rfl | rfl <;> rfl
  · next hs =>
    rw [unsigned]
    · rintro ds ⟨⟩
      exact hs (.inl rfl)
    · rintro ds ⟨⟩
      exact hs (.inr rfl)

theorem exponentOf_append {e rest : List Char} (he : LegalExponent e) (hrest : Ends rest) :
    exponentOf (e ++ rest) = e := by
  cases e with
  | nil =>
    cases rest with
    | nil => rfl
    | cons c rest =>
      obtain rfl : c = ' ' := hrest c rfl
      rfl
  | cons c r =>
    obtain ⟨hc, hne, hdigits⟩ := he
    cases r with
    | nil => exact absurd rfl hne
    | cons s r =>
      rw [List.cons_append, List.cons_append, exponentOf, if_pos hc]
      rw [unsigned_cons] at hne hdigits
      by_cases hs : s = '+' ∨ s = '-'
      · rw [if_pos hs] at hne hdigits
        simp only [if_pos hs, takeWhile_digits hdigits hrest.isDigit, if_neg hne]
      · rw [if_neg hs] at hne hdigits
        rw [if_neg hs, ← List.cons_append]
        simp only [takeWhile_digits hdigits hrest.isDigit, if_neg hne]

def IsChar (c : Char) : Prop := c.isDigit = true ∨ c ∈ ['.', 'e', 'E', '+', '-']

theorem isChar_exponent {e : List Char} (he : LegalExponent e) : ∀ c ∈ e, IsChar c := by
  cases e with
  | nil => nofun
  | cons c r =>
    obtain ⟨hc, hne, hdigits⟩ := he
    have hfirst : IsChar c := by rcases hc with rfl | rfl <;> exact .inr (by decide)
    cases r with
    | nil => exact absurd rfl hne
    | cons s r =>
      rw [unsigned_cons] at hdigits
      by_cases hs : s = '+' ∨ s = '-'
      · rw [if_pos hs] at hdigits
        have hsign : IsChar s := by rcases hs with rfl | rfl <;> exact .inr (by decide)
        exact List.forall_mem_cons.2 ⟨hfirst, List.forall_mem_cons.2 ⟨hsign, fun d hd => .inl (hdigits d hd)⟩⟩
      · rw [if_neg hs] at hdigits
        exact List.forall_mem_cons.2 ⟨hfirst, fun d hd => .inl (hdigits d hd)⟩

theorem isChar_chars {n : Numeral} (h : n.Legal) : ∀ c ∈ n.chars, IsChar c := by
  obtain ⟨whole, point, fraction, exponent⟩ := n
  have hfraction : ∀ c ∈ (if point then '.' :: fraction else []), IsChar c := by
    cases point with
    | false => nofun
    | true =>
      exact List.forall_mem_cons.2 ⟨.inr (by decide), fun c hc => .inl (h.fraction c hc)⟩
  apply List.forall_mem_append.2 ⟨List.forall_mem_append.2 ⟨?_, hfraction⟩, isChar_exponent h.exponent⟩
  exact fun c hc => .inl (h.whole c hc)

theorem head_exponent {e rest : List Char} (he : LegalExponent e) (hrest : Ends rest) :
    ∀ c ∈ (e ++ rest).head?, c.isDigit = false ∧ c ≠ '.' := by
  cases e with
  | nil =>
    intro c hc
    rw [hrest c hc]
    decide
  | cons d r =>
    rintro c ⟨⟩
    rcases he.1 with rfl | rfl <;> decide

theorem ofText_append {n : Numeral} (h : n.Legal) {rest : List Char} (hrest : Ends rest) :
    ofText (n.chars ++ rest) = n := by
  obtain ⟨whole, point, fraction, exponent⟩ := n
  have hhead := head_exponent h.exponent hrest
  have hexponent : exponentOf (exponent ++ rest) = exponent := exponentOf_append h.exponent hrest
  have hstop : ∀ c ∈ (exponent ++ rest).head?, c.isDigit = false := fun c hc => (hhead c hc).1
  cases point with
  | true =>
    have hchars : (Numeral.mk whole true fraction exponent).chars ++ rest =
        whole ++ ('.' :: (fraction ++ (exponent ++ rest))) := by
      simp [chars]
    have hpoint : ∀ c ∈ ('.' :: (fraction ++ (exponent ++ rest))).head?, c.isDigit = false := by
      rintro c ⟨⟩
      rfl
    rw [hchars, ofText, takeWhile_digits h.whole hpoint, dropWhile_digits h.whole hpoint]
    simp only [takeWhile_digits h.fraction hstop, dropWhile_digits h.fraction hstop, hexponent]
  | false =>
    obtain rfl : fraction = [] := h.point rfl
    have hchars : (Numeral.mk whole false [] exponent).chars ++ rest = whole ++ (exponent ++ rest) := by
      simp [chars]
    rw [hchars, ofText, takeWhile_digits h.whole hstop, dropWhile_digits h.whole hstop]
    split
    · next r hr =>
      have := (hhead '.' (by rw [hr]; rfl)).2
      exact absurd rfl this
    · rw [hexponent]

theorem chars_eq_cons {n : Numeral} (h : n.Legal) :
    ∃ c r, n.chars = c :: r ∧ (c.isDigit = true ∨ c = '.') := by
  obtain ⟨whole, point, fraction, exponent⟩ := n
  cases whole with
  | cons c whole => exact ⟨c, _, rfl, .inl (h.whole c List.mem_cons_self)⟩
  | nil =>
    cases point with
    | true => exact ⟨'.', _, rfl, .inr rfl⟩
    | false =>
      have hfraction : fraction = [] := h.point rfl
      exact absurd h.digits (by simp [hfraction])

end Numeral

theorem lexeme_number (offset : Nat) {c : Char} (hc : c.isDigit = true ∨ c = '.') (r : List Char) :
    lexeme offset c r = match (Numeral.ofText (c :: r)).value? with
      | some x => .ok (.number x, (Numeral.ofText (c :: r)).chars.length - 1)
      | none => .error (.invalidNumber (String.ofList (Numeral.ofText (c :: r)).chars)) := by
  unfold lexeme
  split
  all_goals try exact absurd hc (by decide)
  exact if_pos hc

def Lexes (word : List Char) (ts : List Token) : Prop :=
  ∀ offset rest, Ends rest → ∃ taken offset', taken.map Placed.token = ts ∧
    scan offset 0 (word ++ rest) = (scan offset' 0 rest).map (taken ++ ·)

theorem scan_pending (offset : Nat) (cs rest : List Char) :
    scan offset cs.length (cs ++ rest) = scan (offset + (String.ofList cs).utf8ByteSize) 0 rest := by
  induction cs generalizing offset with
  | nil => rfl
  | cons c cs ih =>
    rw [List.cons_append, List.length_cons, scan, ih, String.ofList_cons, String.utf8ByteSize_append,
      String.utf8ByteSize_singleton, Nat.add_assoc]

theorem scan_blank {c : Char} (h : isBlank c = true) (offset : Nat) (rest : List Char) :
    scan offset 0 (c :: rest) = scan (offset + c.utf8Size) 0 rest := by
  rw [scan]
  simp only [h, ↓reduceIte]

theorem scan_error {offset : Nat} {c : Char} {rest : List Char} {e : Error}
    (hblank : isBlank c = false) (h : lexeme offset c rest = .error e) :
    scan offset 0 (c :: rest) = .error e := by
  rw [scan]
  simp only [hblank, h, Bool.false_eq_true, ↓reduceIte]
  rfl

theorem scan_lexeme {offset : Nat} {c : Char} {cs rest : List Char} {t : Token}
    (hblank : isBlank c = false) (h : lexeme offset c (cs ++ rest) = .ok (t, cs.length)) :
    scan offset 0 (c :: (cs ++ rest)) =
      (scan (offset + (String.ofList (c :: cs)).utf8ByteSize) 0 rest).map (⟨t, offset⟩ :: ·) := by
  rw [scan, String.ofList_cons, String.utf8ByteSize_append, String.utf8ByteSize_singleton,
    ← Nat.add_assoc]
  simp only [hblank, h, scan_pending, Bool.false_eq_true, ↓reduceIte, bind, Except.bind, pure,
    Except.pure]
  cases scan (offset + c.utf8Size + (String.ofList cs).utf8ByteSize) 0 rest <;> rfl

theorem tokenize_lexeme {c : Char} {cs : List Char} {t : Token} (hblank : isBlank c = false)
    (h : lexeme 0 c (cs ++ []) = .ok (t, cs.length)) :
    tokenize (String.ofList (c :: cs)) = .ok [⟨t, 0⟩] := by
  have hscan := scan_lexeme hblank h
  rw [List.append_nil] at hscan
  rw [tokenize, String.toList_ofList, hscan]
  rfl

theorem Lexes.of_lexeme {c : Char} {cs : List Char} {t : Token} (hblank : isBlank c = false)
    (h : ∀ offset rest, Ends rest → lexeme offset c (cs ++ rest) = .ok (t, cs.length)) :
    Lexes (c :: cs) [t] := by
  intro offset rest hrest
  exact ⟨[⟨t, offset⟩], _, rfl, scan_lexeme hblank (h offset rest hrest)⟩

theorem lexes_numeral {n : Numeral} (h : n.Legal) : Lexes n.chars [.number n.value] := by
  obtain ⟨c, cs, hchars, hc⟩ := n.chars_eq_cons h
  have hblank : isBlank c = false := by
    rcases hc with hc | rfl
    · cases hb : isBlank c with
      | false => rfl
      | true =>
        simp only [isBlank, Bool.or_eq_true, decide_eq_true_eq] at hb
        rcases hb with (((rfl | rfl) | rfl) | rfl) | rfl <;> exact absurd hc (by decide)
    · rfl
  rw [hchars]
  apply Lexes.of_lexeme hblank
  intro offset rest hrest
  have htext : Numeral.ofText (c :: (cs ++ rest)) = n := by
    rw [← List.cons_append, ← hchars, Numeral.ofText_append h hrest]
  rw [lexeme_number offset hc, htext, h.value?, hchars]
  rfl

theorem lexes_operator (o : Operator) : Lexes o.symbol.toList [.op o] := by
  have hends : ∀ {rest : List Char}, Ends rest → rest.head? ≠ some '=' := by
    intro rest hrest heq
    exact absurd (hrest '=' heq) (by decide)
  cases o with
  | lt =>
    apply Lexes.of_lexeme rfl
    intro offset rest hrest
    exact if_neg (hends hrest)
  | gt =>
    apply Lexes.of_lexeme rfl
    intro offset rest hrest
    exact if_neg (hends hrest)
  | _ => exact Lexes.of_lexeme rfl fun _ _ _ => rfl

theorem lexes_lparen : Lexes ['('] [.lparen] := .of_lexeme rfl fun _ _ _ => rfl

theorem lexes_rparen : Lexes [')'] [.rparen] := .of_lexeme rfl fun _ _ _ => rfl

theorem Lexes.minus {word : List Char} {ts : List Token} (h : Lexes word ts) :
    Lexes ('-' :: word) (.op .sub :: ts) := by
  intro offset rest hrest
  have hminus : lexeme offset '-' ([] ++ (word ++ rest)) = .ok (.op .sub, 0) := rfl
  have hscan₁ := scan_lexeme rfl hminus
  obtain ⟨taken, offset', htaken, hscan⟩ := h _ rest hrest
  refine ⟨⟨.op .sub, offset⟩ :: taken, offset', by rw [List.map_cons, htaken], ?_⟩
  rw [List.cons_append]
  rw [List.nil_append, hscan] at hscan₁
  rw [hscan₁]
  cases scan offset' 0 rest <;> rfl

inductive Lexed : List (List Char) → List Token → Prop
  | nil : Lexed [] []
  | cons {word : List Char} {words : List (List Char)} {ts us : List Token} (h : Lexes word ts)
      (hs : Lexed words us) : Lexed (word :: words) (ts ++ us)

theorem Lexed.single {word : List Char} {ts : List Token} (h : Lexes word ts) : Lexed [word] ts := by
  have := Lexed.cons h .nil
  rwa [List.append_nil] at this

theorem Lexed.append {words words' : List (List Char)} {ts us : List Token} (h : Lexed words ts)
    (h' : Lexed words' us) : Lexed (words ++ words') (ts ++ us) := by
  induction h with
  | nil => exact h'
  | cons hword _ ih =>
    rw [List.cons_append, List.append_assoc]
    exact .cons hword ih

theorem scan_spaced {words : List (List Char)} {ts : List Token} (h : Lexed words ts) (offset : Nat) :
    ∃ ps, scan offset 0 ([' '].intercalate words) = .ok ps ∧ ps.map Placed.token = ts := by
  induction h generalizing offset with
  | nil => exact ⟨[], rfl, rfl⟩
  | @cons word words ts us hword hwords ih =>
    cases words with
    | nil =>
      obtain ⟨taken, offset', htaken, hscan⟩ := hword offset [] ends_nil
      cases hwords
      refine ⟨taken, ?_, ?_⟩
      · rw [List.append_nil] at hscan
        simp [hscan, scan, Except.map]
      · rw [htaken, List.append_nil]
    | cons next words =>
      obtain ⟨taken, offset', htaken, hscan⟩ := hword offset
        (' ' :: [' '].intercalate (next :: words)) (ends_space _)
      obtain ⟨ps, hps, hus⟩ := ih (offset' + 1)
      refine ⟨taken ++ ps, ?_, ?_⟩
      · have hspace : scan offset' 0 (' ' :: [' '].intercalate (next :: words)) = .ok ps := hps
        rw [List.intercalate_cons_cons, List.append_assoc, List.singleton_append, hscan, hspace]
        rfl
      · rw [List.map_append, htaken, hus]

theorem tokenize_spaced {words : List String} {ts : List Token}
    (h : Lexed (words.map String.toList) ts) :
    ∃ ps, tokenize (String.intercalate " " words) = .ok ps ∧ ps.map Placed.token = ts := by
  rw [tokenize, String.toList_intercalate]
  exact scan_spaced h 0

end FlowGraph.Expression
