import FlowGraph.Proofs.Json.Written
import FlowGraph.Store.Column

namespace FlowGraph.Store

open Json.Reading (digits fraction exponent exponentSign)

theorem digitsOff_of_digits {cs ds r : List Char} (h : digits cs = (ds, r)) :
    digitsOff cs = (decide (ds ≠ []), r) := by
  obtain ⟨rfl, rfl⟩ := Prod.mk.inj h
  have hlength := congrArg List.length (List.takeWhile_append_dropWhile (p := Char.isDigit) (l := cs))
  rw [List.length_append] at hlength
  rw [digitsOff, Prod.mk.injEq, decide_eq_decide, ← List.length_pos_iff]
  exact ⟨by omega, rfl⟩

theorem signOff_eq (cs : List Char) : signOff cs = (exponentSign cs).2 := by
  unfold exponentSign
  split
  · rfl
  · rfl
  · next hminus hplus => exact signOff.eq_3 cs hminus hplus

theorem exponentOff_cons {c : Char} {cs r : List Char} (hc : c = 'e' ∨ c = 'E')
    (h : digitsOff (signOff cs) = (true, r)) : exponentOff (c :: cs) = some r := by
  rcases hc with rfl | rfl <;> simp only [exponentOff, h]

theorem exponentOff_of_exponent {cs r : List Char} {e : Option Int}
    (h : exponent cs = some (e, r)) : exponentOff cs = some r := by
  cases cs with
  | nil =>
    cases h
    rfl
  | cons c cs =>
    rw [Json.Reading.exponent_cons] at h
    split at h
    · next hc =>
      split at h
      · cases h
      · next ds r' hds hd =>
        cases h
        have hsome : decide (ds ≠ []) = true := decide_eq_true hds
        apply exponentOff_cons hc
        rw [signOff_eq, digitsOff_of_digits hd, hsome]
    · next hc =>
      cases h
      rw [exponentOff]
      · intro r hr
        exact hc (.inl (List.cons.inj hr).1)
      · intro r hr
        exact hc (.inr (List.cons.inj hr).1)

theorem isNumeral_of_unsigned {negative : Bool} {s : String} {n : Number}
    (h : Json.Reading.unsigned negative (signOff (s.toList.dropWhile isSpace)) = some (n, [])) :
    isNumeral s = true := by
  obtain ⟨ds, r₁, fs, r₂, e, hd, hne, -, hf, he, -⟩ := Json.Reading.unsigned_eq_some.1 h
  have hsome : decide (ds ≠ []) = true := decide_eq_true hne
  have hexponent := exponentOff_of_exponent he
  unfold isNumeral
  rw [digitsOff_of_digits hd, hsome]
  unfold fraction at hf
  split at hf
  · next r =>
    have hoff : digitsOff r = (_, r.dropWhile Char.isDigit) := digitsOff_of_digits rfl
    split at hf
    · cases hf
    · next heq =>
      cases hf
      simp only [hoff, hexponent]
      rfl
  · next hdot =>
    cases hf
    dsimp only
    split
    · exact absurd rfl (hdot _)
    · rw [hexponent]
      rfl

theorem signOff_cons {c : Char} (hminus : c ≠ '-') (hplus : c ≠ '+') (cs : List Char) :
    signOff (c :: cs) = c :: cs :=
  signOff.eq_3 _ (fun _ hr => hminus (List.cons.inj hr).1) fun _ hr => hplus (List.cons.inj hr).1

theorem digit_cases {c : Char} (h : c.isDigit = true) : isSpace c = false ∧ c ≠ '-' ∧ c ≠ '+' := by
  have hc : 48 ≤ c.toNat ∧ c.toNat ≤ 57 := Char.isDigit_iff_toNat.1 h
  refine ⟨?_, ?_, ?_⟩
  · simp only [isSpace, Bool.or_eq_false_iff, Bool.and_eq_false_iff, decide_eq_false_iff_not]
    refine ⟨?_, .inr (by omega)⟩
    rintro rfl
    cases h
  · rintro rfl
    cases h
  · rintro rfl
    cases h

theorem isNumeral_number {n : Number} (h : n.ReadsBack) : isNumeral (Json.num n).compact = true := by
  have htext : (Json.num n).compact.toList = n.chars := by
    rw [Json.compact, String.toList_ofList, Json.emit, List.append_nil]
  obtain ⟨c, cs, hcs, hc⟩ := Json.number_head h
  have hspace : isSpace c = false := by
    rcases hc with rfl | hc
    · rfl
    · exact (digit_cases hc).1
  have hdrop : (Json.num n).compact.toList.dropWhile isSpace = c :: cs := by
    rw [htext, hcs]
    exact List.dropWhile_cons_of_neg (by simp [hspace])
  rw [Number.ReadsBack, hcs] at h
  rcases hc with rfl | hc
  · apply isNumeral_of_unsigned
    rw [hdrop]
    exact h
  · obtain ⟨-, hminus, hplus⟩ := digit_cases hc
    apply isNumeral_of_unsigned
    rw [hdrop, signOff_cons hminus hplus]
    rw [Json.Reading.number] at h
    · exact h
    · exact fun r hr => hminus (List.cons.inj hr).1

theorem isNumeral_of_head {c : Char} {cs : List Char} {s : String} (hs : s.toList = c :: cs)
    (hspace : isSpace c = false) (hdigit : c.isDigit = false) (hminus : c ≠ '-') (hplus : c ≠ '+')
    (hdot : c ≠ '.') : isNumeral s = false := by
  have hdrop : (c :: cs).dropWhile isSpace = c :: cs :=
    List.dropWhile_cons_of_neg (by simp [hspace])
  have hdigits : digitsOff (c :: cs) = (false, c :: cs) := by
    rw [digitsOff, List.dropWhile_cons_of_neg (by simp [hdigit])]
    simp
  unfold isNumeral
  rw [hs, hdrop, signOff_cons hminus hplus, hdigits]
  dsimp only
  split
  · next heq => exact absurd (List.cons.inj heq).1 hdot
  · rfl

theorem isNumeral_compact {v : Json} (hv : ∀ n, v ≠ .num n) : isNumeral v.compact = false := by
  have htext : v.compact.toList = v.emit [] := String.toList_ofList
  cases v with
  | num n => exact absurd rfl (hv n)
  | bool b =>
    cases b <;>
      exact isNumeral_of_head htext (by decide) (by decide) (by decide) (by decide) (by decide)
  | _ => exact isNumeral_of_head htext (by decide) (by decide) (by decide) (by decide) (by decide)

theorem textKept_compact {v : Json} (h : v.ReadsBack) {s : String} :
    textKept v.compact = some s ↔ s = v.compact ∧ ∀ n, v ≠ .num n := by
  by_cases hv : ∃ n, v = .num n
  · obtain ⟨n, rfl⟩ := hv
    have hn : n.ReadsBack := h n (List.mem_singleton.2 rfl)
    simp [textKept, isNumeral_number hn]
  · have hv : ∀ n, v ≠ .num n := fun n hn => hv ⟨n, hn⟩
    simp [textKept, isNumeral_compact hv, hv, eq_comm]

end FlowGraph.Store
