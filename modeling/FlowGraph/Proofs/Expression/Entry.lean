import FlowGraph.Proofs.Expression.Kinds
import FlowGraph.Proofs.Expression.Lexeme

namespace FlowGraph.Expression

def Error.OfReading : Error → Prop
  | .empty | .unexpectedChar _ _ | .unterminatedString _ | .invalidNumber _ | .unexpectedToken _ _
  | .unexpectedEnd | .tooDeep _ | .tooLarge _ => True
  | _ => False

variable {e : Error}

theorem scan_eq_error {offset pending : Nat} {cs : List Char}
    (h : scan offset pending cs = .error e) : e.OfReading := by
  induction cs generalizing offset pending with
  | nil => cases h
  | cons c cs ih =>
    rw [scan.eq_def] at h
    dsimp only at h
    split at h
    · exact ih h
    · split at h
      · exact ih h
      rcases bind_eq_error.1 h with h | ⟨⟨t, n⟩, -, h⟩
      · rcases lexeme_eq_error h with ⟨-, rfl⟩ | ⟨-, rfl⟩ | ⟨-, rfl⟩ <;> trivial
      rcases bind_eq_error.1 h with h | ⟨ps, -, h⟩
      · exact ih h
      · cases h

namespace Parser

variable {offset nodes fuel room : Nat} {r : List Placed} {s : State} {lhs inner : Tree}
  {level : Level} {P : State → Result}

theorem count_eq_error (h : count offset r nodes = .error e) : e.OfReading := by
  unfold count at h
  split at h
  · cases h
    trivial
  · cases h

theorem count_bind_eq_error {α : Type} {f : State → Except Error α}
    (h : (count offset r nodes >>= f) = .error e)
    (hf : ∀ s, f s = .error e → e.OfReading) : e.OfReading := by
  rcases bind_eq_error.1 h with h | ⟨s, -, h⟩
  · exact count_eq_error h
  · exact hf s h

theorem closeGroup_eq_error (h : closeGroup inner s = .error e) : e.OfReading := by
  unfold closeGroup at h
  split at h
  · cases h
  · cases h
    trivial
  · cases h
    trivial

section

variable (hP : ∀ {s e}, P s = .error e → e.OfReading)
include hP

theorem chainRest_eq_error (h : chainRest P level fuel lhs s = .error e) : e.OfReading := by
  induction fuel generalizing lhs s with
  | zero => cases h
  | succ fuel ih =>
    rw [chainRest] at h
    split at h
    · split at h
      · apply count_bind_eq_error h
        intro s' h
        rcases bind_eq_error.1 h with h | ⟨⟨rhs, s''⟩, -, h⟩
        · exact hP h
        · exact ih h
      · cases h
    · cases h

theorem chain_eq_error (h : chain P level s = .error e) : e.OfReading := by
  rcases bind_eq_error.1 h with h | ⟨⟨lhs, s'⟩, -, h⟩
  · exact hP h
  · exact chainRest_eq_error hP h

theorem comparison_eq_error (h : comparison P s = .error e) : e.OfReading :=
  chain_eq_error (chain_eq_error (chain_eq_error hP)) h

end

theorem operand_step_eq_error
    (hinner : ∀ m, room = m + 1 → ∀ {s e}, operand m s = .error e → e.OfReading)
    (h : operand room s = .error e) : e.OfReading := by
  rw [operand.eq_def] at h
  dsimp only at h
  split at h
  · cases h
    trivial
  · exact count_bind_eq_error h fun s' h => by cases h
  · exact count_bind_eq_error h fun s' h => by cases h
  · exact count_bind_eq_error h fun s' h => by cases h
  · split at h
    · cases h
      trivial
    · next m =>
      apply count_bind_eq_error h
      intro s' h
      rcases bind_eq_error.1 h with h | ⟨⟨operand, s''⟩, -, h⟩
      · exact hinner m rfl h
      · cases h
  · split at h
    · cases h
      trivial
    · next m =>
      apply count_bind_eq_error h
      intro s' h
      rcases bind_eq_error.1 h with h | ⟨⟨inner, s''⟩, -, h⟩
      · exact comparison_eq_error (hinner m rfl) h
      · exact closeGroup_eq_error h
  · apply count_bind_eq_error h
    intro s' h
    cases h
    trivial

theorem operand_eq_error (h : operand room s = .error e) : e.OfReading := by
  induction room generalizing s e with
  | zero =>
    apply operand_step_eq_error _ h
    intro m hm
    cases hm
  | succ room ih =>
    apply operand_step_eq_error _ h
    intro m hm s e h
    cases hm
    exact ih h

end Parser

theorem parse_eq_error {tokens : List Placed} (h : parse tokens = .error e) : e.OfReading := by
  unfold parse at h
  split at h
  · cases h
    trivial
  · rcases bind_eq_error.1 h with h | ⟨⟨t, s⟩, -, h⟩
    · exact Parser.comparison_eq_error Parser.operand_eq_error h
    · dsimp only at h
      split at h
      · cases h
      · cases h
        trivial

theorem read_eq_error {s : String} (h : read s = .error e) : e.OfReading := by
  rcases bind_eq_error.1 h with h | ⟨tokens, -, h⟩
  · exact scan_eq_error h
  · exact parse_eq_error h

namespace Tree

variable {t : Tree}

theorem kind_of_isComparison (h : t.isComparison = true) : t.kind = .number := by
  induction t with
  | group inner ih => exact ih h
  | binary op lhs rhs => rfl
  | number | str | ident | neg => cases h

theorem boolean_eq_ok {b : Bool} (h : t.boolean = .ok b) : t.isComparison = true := by
  unfold boolean at h
  split at h
  · assumption
  · cases h

theorem boolean_of_eval {v : Value} (ht : t.isComparison = true) (hv : t.eval = .ok v) :
    ∃ b, t.boolean = .ok b := by
  have hkind : v.kind = .number := (eval_eq_ok hv).2.1.trans (kind_of_isComparison ht)
  unfold boolean
  rw [if_pos ht, hv]
  cases v with
  | number x => exact ⟨x == 1, rfl⟩
  | str s => cases hkind

theorem boolean_of_eval_error (ht : t.isComparison = true) (h : t.eval = .error e) :
    t.boolean = .error e := by
  unfold boolean
  rw [if_pos ht, h]
  rfl

theorem boolean_eq_error (h : t.boolean = .error e) :
    e = .expectedBoolean ∨ t.eval = .error e := by
  by_cases ht : t.isComparison = true
  · cases heval : t.eval with
    | ok v =>
      obtain ⟨b, hb⟩ := boolean_of_eval ht heval
      rw [hb] at h
      cases h
    | error e' =>
      rw [boolean_of_eval_error ht heval] at h
      cases h
      exact .inr rfl
  · unfold boolean at h
    rw [if_neg ht] at h
    cases h
    exact .inl rfl

theorem numeric_eq_ok {x : Float} (h : t.numeric = .ok x) :
    t.isComparison = false ∧ Decimal.isFinite x = true := by
  unfold numeric at h
  split at h
  · cases h
  · next ht =>
    obtain ⟨v, -, h⟩ := bind_eq_ok.1 h
    cases v with
    | str s => cases h
    | number y =>
      dsimp only at h
      split at h
      · next hfinite =>
        cases h
        exact ⟨eq_false_of_ne_true ht, hfinite⟩
      · cases h

end Tree

variable {s : String} {t : Tree}

theorem evaluateBoolean_eq_error (h : evaluateBoolean s = .error e) :
    e.OfReading ∨ e = .expectedBoolean ∨ e.OfKinds ∨ e.OfDivision := by
  rcases bind_eq_error.1 h with h | ⟨t, -, h⟩
  · exact .inl (read_eq_error h)
  rcases Tree.boolean_eq_error h with he | h
  · exact .inr (.inl he)
  rcases Tree.eval_eq_error h with ⟨-, he⟩ | ⟨-, he⟩
  · exact .inr (.inr (.inl he))
  · exact .inr (.inr (.inr he))

theorem exists_evaluateBoolean_iff (hread : read s = .ok t) (ht : t.isComparison = true) :
    (∃ b, evaluateBoolean s = .ok b) ↔ ∃ v, t.eval = .ok v := by
  have hboolean : evaluateBoolean s = t.boolean := by
    rw [evaluateBoolean, hread]
    rfl
  rw [hboolean]
  constructor
  · rintro ⟨b, hb⟩
    cases heval : t.eval with
    | ok v => exact ⟨v, rfl⟩
    | error e =>
      rw [Tree.boolean_of_eval_error ht heval] at hb
      cases hb
  · rintro ⟨v, hv⟩
    exact Tree.boolean_of_eval ht hv

theorem evaluate_disjoint {x : Float} {b : Bool} (hx : evaluateNumeric s = .ok x)
    (hb : evaluateBoolean s = .ok b) : False := by
  obtain ⟨t, ht, hx⟩ := bind_eq_ok.1 hx
  obtain ⟨u, hu, hb⟩ := bind_eq_ok.1 hb
  obtain rfl : t = u := by
    rw [ht] at hu
    exact Except.ok.inj hu
  have hcomparison := Tree.boolean_eq_ok hb
  rw [(Tree.numeric_eq_ok hx).1] at hcomparison
  cases hcomparison

/-- Of trees the first two parts, of the texts that they are read from the others. -/
theorem evaluation_sound :
    (∀ t : Tree, t.WellKinded →
      (∃ v, t.eval = .ok v ∧ v.kind = t.kind) ∨ ∃ e, t.eval = .error e ∧ e.OfDivision) ∧
    (∀ t : Tree, ¬t.WellKinded → ∃ e, t.eval = .error e) ∧
    (∀ s t, read s = .ok t → t.WellKinded → t.isComparison = true →
      ((∃ b, evaluateBoolean s = .ok b) ↔ ¬t.DividesByZero)) ∧
    (∀ s e, evaluateBoolean s = .error e → e ≠ .nonNumericResult ∧ e ≠ .nonFinite) ∧
    (∀ s x, evaluateNumeric s = .ok x → Decimal.isFinite x = true) ∧
    ∀ s x b, ¬(evaluateNumeric s = .ok x ∧ evaluateBoolean s = .ok b) := by
  refine ⟨?_, ?_, ?_, ?_, ?_, fun s x b h => evaluate_disjoint h.1 h.2⟩
  · intro t ht
    cases h : t.eval with
    | ok v => exact .inl ⟨v, rfl, (Tree.eval_eq_ok h).2.1⟩
    | error e =>
      rcases Tree.eval_eq_error h with ⟨hill, -⟩ | ⟨-, he⟩
      · exact absurd ht hill
      · exact .inr ⟨e, rfl, he⟩
  · intro t ht
    cases h : t.eval with
    | ok v => exact absurd (Tree.eval_eq_ok h).1 ht
    | error e => exact ⟨e, rfl⟩
  · intro s t hread ht hcomparison
    rw [exists_evaluateBoolean_iff hread hcomparison, Tree.exists_eval_iff]
    exact and_iff_right ht
  · intro s e h
    rcases evaluateBoolean_eq_error h with he | rfl | he | rfl | rfl
    · constructor <;> rintro rfl <;> exact he
    · exact ⟨nofun, nofun⟩
    · constructor <;> rintro rfl <;> exact he
    · exact ⟨nofun, nofun⟩
    · exact ⟨nofun, nofun⟩
  · intro s x h
    obtain ⟨t, -, h⟩ := bind_eq_ok.1 h
    exact (Tree.numeric_eq_ok h).2

example : evaluateBoolean "1 / 0 < 2" = .error .divisionByZero := by decide +kernel

example : evaluateNumeric "2 + 3 * -(7 % 4) / 2" = .ok (-2.5) := by decide +kernel

example : evaluateBoolean "\"b\" > `ab`" = .ok true := by decide +kernel

end FlowGraph.Expression
