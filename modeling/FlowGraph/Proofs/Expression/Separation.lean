import FlowGraph.Proofs.Expression.Lexeme

namespace FlowGraph.Expression

def Placed.shift (k : Nat) (p : Placed) : Placed := { p with offset := k + p.offset }

def Error.shift (k : Nat) : Error → Error
  | .unexpectedChar c offset => .unexpectedChar c (k + offset)
  | .unterminatedString offset => .unterminatedString (k + offset)
  | .unexpectedToken found offset => .unexpectedToken found (k + offset)
  | .tooDeep offset => .tooDeep (k + offset)
  | .tooLarge offset => .tooLarge (k + offset)
  | e => e

theorem lexeme_shift (k offset : Nat) (c : Char) (r : List Char) :
    lexeme (k + offset) c r = (lexeme offset c r).mapError (Error.shift k) := by
  cases start c with
  | symbol u hc hu =>
    rw [hu, hu]
    rfl
  | paired u alone hc halone hu =>
    rw [hu, hu]
    split
    · rfl
    · rcases halone with ⟨v, halone⟩ | halone
      · rw [halone, halone]
        rfl
      · rw [halone, halone]
        rfl
  | text read Body hc hread hu =>
    rw [hu, hu]
    split <;> rfl
  | numeral hc =>
    rw [lexeme_number _ hc, lexeme_number _ hc]
    split <;> rfl
  | name hc hu =>
    rw [hu, hu]
    rfl
  | other hc hu =>
    rw [hu, hu]
    rfl

theorem lexeme_offset {offset n : Nat} {c : Char} {r : List Char} {t : Token}
    (h : lexeme offset c r = .ok (t, n)) (offset' : Nat) : lexeme offset' c r = .ok (t, n) := by
  have hfirst : lexeme 0 c r = .ok (t, n) := by
    have hshift := lexeme_shift offset 0 c r
    rw [Nat.add_zero, h] at hshift
    cases hzero : lexeme 0 c r with
    | error e =>
      rw [hzero] at hshift
      cases hshift
    | ok p =>
      rw [hzero] at hshift
      exact hshift.symm
  have hshift := lexeme_shift offset' 0 c r
  rwa [Nat.add_zero, hfirst] at hshift

theorem scan_shift (k offset pending : Nat) (cs : List Char) :
    scan (k + offset) pending cs =
      ((scan offset pending cs).mapError (Error.shift k)).map (List.map (Placed.shift k)) := by
  induction cs generalizing offset pending with
  | nil => rfl
  | cons c cs ih =>
    cases pending with
    | succ n =>
      rw [scan, scan, Nat.add_assoc]
      exact ih _ n
    | zero =>
      rw [scan, scan, Nat.add_assoc]
      dsimp only
      split
      · exact ih _ 0
      · rw [lexeme_shift]
        cases lexeme offset c cs with
        | error e => rfl
        | ok p =>
          obtain ⟨t, n⟩ := p
          simp only [Except.mapError, bind, Except.bind]
          rw [ih]
          cases scan (offset + c.utf8Size) n cs <;> rfl

theorem utf8Size_of_isBlank {w : Char} (h : isBlank w = true) : w.utf8Size = 1 := by
  rcases blank_cases h with rfl | rfl | rfl | rfl | rfl <;> rfl

theorem scan_separated {offset pending : Nat} {a : List Char} {w : Char} {ps : List Placed}
    (hw : isBlank w = true) (h : scan offset pending a = .ok ps) (hpending : pending ≤ a.length)
    (b : List Char) : scan offset pending (a ++ w :: b) =
      (scan (offset + (String.ofList a).utf8ByteSize + 1) 0 b).map (ps ++ ·) := by
  induction a generalizing offset pending ps with
  | nil =>
    -- no token is still open where the first text ends
    obtain rfl : pending = 0 := Nat.le_zero.1 hpending
    cases h
    have hsize : (String.ofList []).utf8ByteSize = 0 := rfl
    rw [List.nil_append, scan_blank hw, utf8Size_of_isBlank hw, hsize, Nat.add_zero]
    cases scan (offset + 1) 0 b <;> rfl
  | cons c a ih =>
    rw [List.cons_append, String.ofList_cons, String.utf8ByteSize_append,
      String.utf8ByteSize_singleton, ← Nat.add_assoc]
    cases pending with
    | succ n => exact ih h (Nat.le_of_succ_le_succ hpending)
    | zero =>
      rw [scan] at h ⊢
      dsimp only at h ⊢
      split at h
      · next hblank =>
        rw [if_pos hblank]
        exact ih h (Nat.zero_le _)
      · next hblank =>
        obtain ⟨⟨t, n⟩, hlexeme, h⟩ := bind_eq_ok.1 h
        obtain ⟨qs, hqs, h⟩ := bind_eq_ok.1 h
        cases h
        rw [if_neg hblank, lexeme_blank hw hlexeme]
        simp only [bind, Except.bind]
        rw [ih hqs (lexeme_length hlexeme)]
        cases scan (offset + c.utf8Size + (String.ofList a).utf8ByteSize + 1) 0 b <;> rfl

theorem tokenize_separated {a : String} {ps : List Placed} (h : tokenize a = .ok ps) {w : Char}
    (hw : isBlank w = true) (b : String) :
    tokenize (a ++ String.singleton w ++ b) = match tokenize b with
      | .ok qs => .ok (ps ++ qs.map (Placed.shift (a.utf8ByteSize + 1)))
      | .error e => .error (e.shift (a.utf8ByteSize + 1)) := by
  have hscan := scan_separated hw h (Nat.zero_le _) b.toList
  have hshift := scan_shift (a.utf8ByteSize + 1) 0 0 b.toList
  rw [String.ofList_toList, Nat.zero_add, ← Nat.add_zero (a.utf8ByteSize + 1), hshift] at hscan
  rw [tokenize, String.toList_append, String.toList_append, String.toList_singleton,
    List.append_assoc, List.singleton_append, hscan, tokenize]
  cases scan 0 0 b.toList <;> rfl

theorem tokenize_separated_signs :
    tokenize "\"é\" <" = .ok [⟨.str "é", 0⟩, ⟨.op .lt, 5⟩] ∧ isBlank '\n' = true ∧
      tokenize ("\"é\" <" ++ String.singleton '\n' ++ "= 1") = .error (.unexpectedChar '=' 7) ∧
      tokenize ("\"é\" <" ++ String.singleton '\n' ++ " `=`") =
        .ok [⟨.str "é", 0⟩, ⟨.op .lt, 5⟩, ⟨.str "=", 8⟩] := by
  have ha : tokenize "\"é\" <" = .ok [⟨.str "é", 0⟩, ⟨.op .lt, 5⟩] := by decide +kernel
  have hw : isBlank '\n' = true := rfl
  exact ⟨ha, hw, (tokenize_separated ha hw "= 1").trans (by decide +kernel),
    (tokenize_separated ha hw " `=`").trans (by decide +kernel)⟩

end FlowGraph.Expression
