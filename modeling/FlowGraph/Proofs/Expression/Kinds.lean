import FlowGraph.Expression.Evaluation
import FlowGraph.Proofs.Except

namespace FlowGraph.Expression

def Operator.Suits (op : Operator) (k l : Kind) : Prop :=
  if op.isComparison then k = l else k = .number ∧ l = .number

def Operator.IsDivision (op : Operator) : Prop := op = .div ∨ op = .rem

def Value.IsZero (v : Value) : Prop := ∃ x, v = .number x ∧ (x == 0) = true

def Error.OfDivision (e : Error) : Prop := e = .divisionByZero ∨ e = .moduloByZero

def Error.OfKinds : Error → Prop
  | .nonNumericOperand _ | .mixedComparison _ _ => True
  | _ => False

namespace Tree

def kind : Tree → Kind
  | number _ | neg _ | binary _ _ _ => .number
  | str _ => .string
  | ident name => if name = "pi" ∨ name = "e" then .number else .string
  | group inner => inner.kind

def WellKinded : Tree → Prop
  | number _ | str _ | ident _ => True
  | neg operand => operand.WellKinded ∧ operand.kind = .number
  | group inner => inner.WellKinded
  | binary op lhs rhs => lhs.WellKinded ∧ rhs.WellKinded ∧ op.Suits lhs.kind rhs.kind

/-- Somewhere in it a divisor has the value zero. -/
def DividesByZero : Tree → Prop
  | number _ | str _ | ident _ => False
  | neg t | group t => t.DividesByZero
  | binary op lhs rhs => lhs.DividesByZero ∨ rhs.DividesByZero ∨
      op.IsDivision ∧ ∃ v, rhs.eval = .ok v ∧ v.IsZero

end Tree

section

variable {op : Operator} {x y v : Value} {e : Error}

theorem compare_eq_ok (h : compare op x y = .ok v) : x.kind = y.kind ∧ v.kind = .number := by
  unfold compare at h
  split at h
  · cases h
    exact ⟨rfl, rfl⟩
  · cases h
    exact ⟨rfl, rfl⟩
  · cases h

theorem compare_eq_error (h : compare op x y = .error e) : x.kind ≠ y.kind ∧ e.OfKinds := by
  unfold compare at h
  split at h
  · cases h
  · cases h
  · next hnumbers hstrings =>
    cases h
    refine ⟨?_, trivial⟩
    cases x with
    | number x =>
      cases y with
      | number y => exact absurd rfl (hnumbers x y rfl)
      | str t => exact nofun
    | str s =>
      cases y with
      | number y => exact nofun
      | str t => exact absurd rfl (hstrings s t rfl)

theorem arithmetic_eq_ok (hop : op.isComparison = false) (h : arithmetic op x y = .ok v) :
    x.kind = .number ∧ y.kind = .number ∧ v.kind = .number ∧ ¬(op.IsDivision ∧ y.IsZero) := by
  cases x with
  | str s => cases h
  | number x =>
    cases y with
    | str t => cases h
    | number y =>
      refine ⟨rfl, rfl, ?_⟩
      cases op with
      | div | rem =>
        simp only [arithmetic] at h
        split at h
        · cases h
        · next hy =>
          cases h
          refine ⟨rfl, ?_⟩
          rintro ⟨-, z, hz, hzero⟩
          cases hz
          exact hy hzero
      | add | sub | mul =>
        cases h
        exact ⟨rfl, fun hdiv => by cases hdiv.1 <;> contradiction⟩
      | _ => cases hop

theorem arithmetic_eq_error (hop : op.isComparison = false) (h : arithmetic op x y = .error e) :
    ¬(x.kind = .number ∧ y.kind = .number) ∧ e.OfKinds ∨
      (op.IsDivision ∧ y.IsZero) ∧ e.OfDivision := by
  cases x with
  | str s =>
    cases h
    exact .inl ⟨nofun, trivial⟩
  | number x =>
    cases y with
    | str t =>
      cases h
      exact .inl ⟨nofun, trivial⟩
    | number y =>
      right
      cases op with
      | div =>
        simp only [arithmetic] at h
        split at h
        · next hzero =>
          cases h
          exact ⟨⟨.inl rfl, y, rfl, hzero⟩, .inl rfl⟩
        · cases h
      | rem =>
        simp only [arithmetic] at h
        split at h
        · next hzero =>
          cases h
          exact ⟨⟨.inr rfl, y, rfl, hzero⟩, .inr rfl⟩
        · cases h
      | add | sub | mul => cases h
      | _ => cases hop

theorem Operator.IsDivision.not_isComparison (h : op.IsDivision) : op.isComparison = false := by
  rcases h with rfl | rfl <;> rfl

theorem Operator.apply_eq_ok (h : op.apply x y = .ok v) :
    op.Suits x.kind y.kind ∧ v.kind = .number ∧ ¬(op.IsDivision ∧ y.IsZero) := by
  unfold Operator.apply at h
  unfold Operator.Suits
  split at h
  · next hop =>
    obtain ⟨hkind, hv⟩ := compare_eq_ok h
    refine ⟨by rwa [if_pos hop], hv, fun hdiv => ?_⟩
    rw [hdiv.1.not_isComparison] at hop
    cases hop
  · next hop =>
    obtain ⟨hx, hy, hv, hdiv⟩ := arithmetic_eq_ok (eq_false_of_ne_true hop) h
    exact ⟨by rw [if_neg hop]; exact ⟨hx, hy⟩, hv, hdiv⟩

theorem Operator.apply_eq_error (h : op.apply x y = .error e) :
    ¬op.Suits x.kind y.kind ∧ e.OfKinds ∨ (op.IsDivision ∧ y.IsZero) ∧ e.OfDivision := by
  unfold Operator.apply at h
  unfold Operator.Suits
  split at h
  · next hop =>
    rw [if_pos hop]
    exact .inl (compare_eq_error h)
  · next hop =>
    rw [if_neg hop]
    exact arithmetic_eq_error (eq_false_of_ne_true hop) h

theorem negate_eq_ok (h : negate x = .ok v) : x.kind = .number ∧ v.kind = .number := by
  cases x with
  | number x =>
    cases h
    exact ⟨rfl, rfl⟩
  | str s => cases h

theorem negate_eq_error (h : negate x = .error e) : x.kind ≠ .number ∧ e.OfKinds := by
  cases x with
  | number x => cases h
  | str s =>
    cases h
    exact ⟨nofun, trivial⟩

end

namespace Tree

theorem kind_nameValue (name : String) : (nameValue name).kind = (ident name).kind := by
  rw [nameValue, kind]
  unfold constant?
  split
  · next h =>
    split at h
    · rfl
    · rfl
    · cases h
  · next h =>
    split at h
    · cases h
    · cases h
    · next hpi he => rw [if_neg (not_or_intro hpi he), Value.kind]

variable {t : Tree} {v : Value} {e : Error}

theorem eval_eq_ok (h : t.eval = .ok v) : t.WellKinded ∧ v.kind = t.kind ∧ ¬t.DividesByZero := by
  induction t generalizing v with
  | number x =>
    cases h
    exact ⟨trivial, rfl, nofun⟩
  | str s =>
    cases h
    exact ⟨trivial, rfl, nofun⟩
  | ident name =>
    cases h
    exact ⟨trivial, kind_nameValue name, nofun⟩
  | group inner ih => exact ih h
  | neg operand ih =>
    obtain ⟨x, hx, h⟩ := bind_eq_ok.1 h
    obtain ⟨hwell, hkind, hdiv⟩ := ih hx
    obtain ⟨hnumber, hv⟩ := negate_eq_ok h
    exact ⟨⟨hwell, hkind ▸ hnumber⟩, hv, hdiv⟩
  | binary op lhs rhs ihl ihr =>
    obtain ⟨x, hx, h⟩ := bind_eq_ok.1 h
    obtain ⟨y, hy, h⟩ := bind_eq_ok.1 h
    obtain ⟨hlhs, hxkind, hldiv⟩ := ihl hx
    obtain ⟨hrhs, hykind, hrdiv⟩ := ihr hy
    obtain ⟨hsuits, hv, hzero⟩ := Operator.apply_eq_ok h
    rw [hxkind, hykind] at hsuits
    refine ⟨⟨hlhs, hrhs, hsuits⟩, hv, ?_⟩
    rintro (hdiv | hdiv | ⟨hop, z, hz, hdiv⟩)
    · exact hldiv hdiv
    · exact hrdiv hdiv
    · rw [hy] at hz
      cases hz
      exact hzero ⟨hop, hdiv⟩

theorem eval_eq_error (h : t.eval = .error e) :
    ¬t.WellKinded ∧ e.OfKinds ∨ t.DividesByZero ∧ e.OfDivision := by
  induction t with
  | number x => cases h
  | str s => cases h
  | ident name => cases h
  | group inner ih => exact ih h
  | neg operand ih =>
    rcases bind_eq_error.1 h with hx | ⟨x, hx, h⟩
    · exact (ih hx).imp_left (And.imp_left fun hwell ht => hwell ht.1)
    · obtain ⟨hkind, he⟩ := negate_eq_error h
      rw [(eval_eq_ok hx).2.1] at hkind
      exact .inl ⟨fun ht => hkind ht.2, he⟩
  | binary op lhs rhs ihl ihr =>
    rcases bind_eq_error.1 h with hx | ⟨x, hx, h⟩
    · exact (ihl hx).imp (And.imp_left fun hwell ht => hwell ht.1) (And.imp_left .inl)
    rcases bind_eq_error.1 h with hy | ⟨y, hy, h⟩
    · exact (ihr hy).imp (And.imp_left fun hwell ht => hwell ht.2.1)
        (And.imp_left fun hdiv => .inr (.inl hdiv))
    rcases Operator.apply_eq_error h with ⟨hsuits, he⟩ | ⟨⟨hop, hzero⟩, he⟩
    · rw [(eval_eq_ok hx).2.1, (eval_eq_ok hy).2.1] at hsuits
      exact .inl ⟨fun ht => hsuits ht.2.2, he⟩
    · exact .inr ⟨.inr (.inr ⟨hop, y, hy, hzero⟩), he⟩

theorem exists_eval_iff : (∃ v, t.eval = .ok v) ↔ t.WellKinded ∧ ¬t.DividesByZero := by
  constructor
  · rintro ⟨v, hv⟩
    obtain ⟨hwell, -, hdiv⟩ := eval_eq_ok hv
    exact ⟨hwell, hdiv⟩
  · rintro ⟨hwell, hdiv⟩
    cases h : t.eval with
    | ok v => exact ⟨v, rfl⟩
    | error e =>
      rcases eval_eq_error h with ⟨hill, -⟩ | ⟨hzero, -⟩
      · exact absurd hwell hill
      · exact absurd hzero hdiv

end Tree

end FlowGraph.Expression
