import FlowGraph.Proofs.Expression.Shown
import FlowGraph.Proofs.Template

namespace FlowGraph.Expression

open Template (Piece)

/-- An expression over decimal literals and placeholders, as it is written in a template. -/
inductive Form where
  | literal (n : Numeral) (h : n.Legal)
  | hole (name : String) (h : Template.name? name.toList = some name)
  | neg (operand : Form)
  | group (inner : Form)
  | binary (op : Operator) (lhs rhs : Form)

namespace Form

def words : Form → List Piece
  | literal n _ => [.text n.chars]
  | hole name _ => [.name name]
  | neg operand => .text ['-'] :: operand.words
  | group inner => .text ['('] :: (inner.words ++ [.text [')']])
  | binary op lhs rhs => lhs.words ++ .text op.symbol.toList :: rhs.words

def text (f : Form) : String := Template.spaced f.words fun p => String.ofList p.written

def names : Form → List String
  | literal _ _ => []
  | hole name _ => [name]
  | neg operand => operand.names
  | group inner => inner.names
  | binary _ lhs rhs => lhs.names ++ rhs.names

def fill (leaf : String → Tree) : Form → Tree
  | literal n _ => .number n.value
  | hole name _ => leaf name
  | neg operand => .neg (operand.fill leaf)
  | group inner => .group (inner.fill leaf)
  | binary op lhs rhs => .binary op (lhs.fill leaf) (rhs.fill leaf)

def direct (numbers : String → Number) (f : Form) : Tree := f.fill fun v => .number (numbers v).toFloat

def rendered (numbers : String → Number) (f : Form) : Tree := f.fill fun v => (numbers v).operand

section

variable {leaf leaf' : String → Tree}

theorem binding_fill (h : ∀ v, (leaf v).binding = 3) (h' : ∀ v, (leaf' v).binding = 3) (f : Form) :
    (f.fill leaf).binding = (f.fill leaf').binding := by
  cases f with
  | hole name => rw [fill, fill, h, h']
  | _ => rfl

theorem canonical_fill (h : ∀ v, (leaf v).binding = 3) (h' : ∀ v, (leaf' v).binding = 3)
    (hleaf' : ∀ v, (leaf' v).Canonical) {f : Form} (hf : (f.fill leaf).Canonical) :
    (f.fill leaf').Canonical := by
  induction f with
  | literal => trivial
  | hole name => exact hleaf' name
  | neg operand ih =>
    have hbinding := binding_fill h h' operand
    exact ⟨ih hf.1, hbinding ▸ hf.2⟩
  | group inner ih => exact ih hf
  | binary op lhs rhs ihl ihr =>
    have hl := binding_fill h h' lhs
    have hr := binding_fill h h' rhs
    obtain ⟨hlhs, hrhs, hleft, hright⟩ := hf
    exact ⟨ihl hlhs, ihr hrhs, hl ▸ hleft, hr ▸ hright⟩

theorem eval_fill {f : Form} (h : ∀ v ∈ f.names, (leaf v).eval = (leaf' v).eval) :
    (f.fill leaf).eval = (f.fill leaf').eval := by
  induction f with
  | literal => rfl
  | hole name => exact h name List.mem_cons_self
  | neg operand ih => rw [fill, fill, Tree.eval, Tree.eval, ih h]
  | group inner ih => exact ih h
  | binary op lhs rhs ihl ihr =>
    have hlhs := ihl fun v hv => h v (List.mem_append_left _ hv)
    have hrhs := ihr fun v hv => h v (List.mem_append_right _ hv)
    rw [fill, fill, Tree.eval, Tree.eval, hlhs, hrhs]

theorem topOperator_fill (h : ∀ v, (leaf v).topOperator = (leaf' v).topOperator) (f : Form) :
    (f.fill leaf).topOperator = (f.fill leaf').topOperator := by
  induction f with
  | hole name => exact h name
  | group inner ih => exact ih
  | _ => rfl

end

theorem brace_notMem_chars {n : Numeral} (h : n.Legal) : '{' ∉ n.chars := by
  intro hmem
  rcases Numeral.isChar_chars h _ hmem with hc | hc <;> exact absurd hc (by decide)

theorem words_legal (f : Form) : ∀ p ∈ f.words, p.Legal := by
  induction f with
  | literal n h =>
    intro p hp
    rw [List.mem_singleton.1 hp]
    exact brace_notMem_chars h
  | hole name h =>
    intro p hp
    rw [List.mem_singleton.1 hp]
    exact h
  | neg operand ih =>
    refine List.forall_mem_cons.2 ⟨?_, ih⟩
    rw [Piece.Legal]
    decide
  | group inner ih =>
    refine List.forall_mem_cons.2 ⟨?_, List.forall_mem_append.2 ⟨ih, List.forall_mem_singleton.2 ?_⟩⟩
    · rw [Piece.Legal]
      decide
    · rw [Piece.Legal]
      decide
  | binary op lhs rhs ihl ihr =>
    refine List.forall_mem_append.2 ⟨ihl, List.forall_mem_cons.2 ⟨?_, ihr⟩⟩
    rw [Piece.Legal]
    cases op <;> decide

variable {scope : Scope} {numbers : String → Number}

theorem shown_hole {v : String} {n : Number} (h : scope.get? v = some (.num n)) :
    (Piece.name v).shown (Template.lookup scope []) = n.display := by
  have hlook : Template.lookup scope [] v = some (.num n) := h
  rw [Piece.shown, Template.resolve, hlook]
  rfl

theorem lexes_text {look : String → Option Json} {s : List Char} {ts : List Token} (h : Lexes s ts) :
    Lexes ((Piece.text s).shown look).toList ts := by
  rwa [Piece.shown, String.toList_ofList]

theorem lexed_words {f : Form} (hbound : ∀ v ∈ f.names, scope.get? v = some (.num (numbers v)))
    (hplain : ∀ v ∈ f.names, (numbers v).Plain) :
    Lexed (f.words.map fun p => (p.shown (Template.lookup scope [])).toList)
      (f.rendered numbers).tokens := by
  induction f with
  | literal n h => exact .single (lexes_text (lexes_numeral h))
  | hole name =>
    apply Lexed.single
    dsimp only
    rw [shown_hole (hbound name List.mem_cons_self)]
    exact Number.lexes_display (hplain name List.mem_cons_self)
  | neg operand ih => exact .cons (lexes_text (lexes_operator .sub)) (ih hbound hplain)
  | group inner ih =>
    rw [words, List.map_cons, List.map_append]
    exact .cons (lexes_text lexes_lparen)
      ((ih hbound hplain).append (.single (lexes_text lexes_rparen)))
  | binary op lhs rhs ihl ihr =>
    have hlhs := ihl (fun v hv => hbound v (List.mem_append_left _ hv))
      fun v hv => hplain v (List.mem_append_left _ hv)
    have hrhs := ihr (fun v hv => hbound v (List.mem_append_right _ hv))
      fun v hv => hplain v (List.mem_append_right _ hv)
    rw [words, List.map_append, List.map_cons]
    exact hlhs.append (.cons (lexes_text (lexes_operator op)) hrhs)

theorem read_render {f : Form} (hbound : ∀ v ∈ f.names, scope.get? v = some (.num (numbers v)))
    (hplain : ∀ v ∈ f.names, (numbers v).Plain) (hcanonical : (f.rendered numbers).Canonical)
    (hsize : (f.rendered numbers).size ≤ maxNodes)
    (hnesting : (f.rendered numbers).nesting ≤ maxNesting) :
    read (Template.render f.text scope []) = .ok (f.rendered numbers) := by
  have hlexed : Lexed ((f.words.map (Piece.shown (Template.lookup scope []))).map String.toList)
      (f.rendered numbers).tokens := by
    rw [List.map_map]
    exact lexed_words hbound hplain
  obtain ⟨ps, hps, htokens⟩ := tokenize_spaced hlexed
  have hparse := parse_of_tokens hcanonical htokens.symm hsize hnesting
  rw [text, Template.render_spaced scope [] f.words_legal, Template.spaced, read, hps]
  exact hparse

theorem operand_cases (n : Number) : ∃ x, n.operand = .number x ∨ n.operand = .neg (.number x) := by
  rw [Number.operand]
  split
  · exact ⟨_, .inr rfl⟩
  · exact ⟨_, .inl rfl⟩

theorem canonical_rendered {f : Form} (h : (f.direct numbers).Canonical) :
    (f.rendered numbers).Canonical := by
  apply canonical_fill (fun _ => rfl) _ _ h
  · intro v
    obtain ⟨x, hx | hx⟩ := operand_cases (numbers v) <;> rw [hx] <;> rfl
  · intro v
    obtain ⟨x, hx | hx⟩ := operand_cases (numbers v)
    · rw [hx]
      trivial
    · rw [hx]
      exact ⟨trivial, rfl⟩

theorem topOperator_rendered (numbers : String → Number) (f : Form) :
    (f.rendered numbers).topOperator = (f.direct numbers).topOperator := by
  apply topOperator_fill
  intro v
  obtain ⟨x, hx | hx⟩ := operand_cases (numbers v) <;> rw [hx] <;> rfl

theorem eval_rendered {f : Form} (hplain : ∀ v ∈ f.names, (numbers v).Plain)
    (hback : ∀ v ∈ f.names, (numbers v).PlainReadsBack) :
    (f.rendered numbers).eval = (f.direct numbers).eval :=
  eval_fill fun v hv => Number.eval_operand (hplain v hv) (hback v hv)

theorem numeric_eq {t t' : Tree} (heval : t.eval = t'.eval) (htop : t.topOperator = t'.topOperator) :
    t.numeric = t'.numeric := by
  rw [Tree.numeric, Tree.numeric, Tree.isComparison, Tree.isComparison, heval, htop]

theorem boolean_eq {t t' : Tree} (heval : t.eval = t'.eval) (htop : t.topOperator = t'.topOperator) :
    t.boolean = t'.boolean := by
  rw [Tree.boolean, Tree.boolean, Tree.isComparison, Tree.isComparison, heval, htop]

end Form

theorem evaluate_render (f : Form) (scope : Scope) (numbers : String → Number)
    (hbound : ∀ v ∈ f.names, scope.get? v = some (.num (numbers v)))
    (hplain : ∀ v ∈ f.names, (numbers v).Plain)
    (hback : ∀ v ∈ f.names, (numbers v).PlainReadsBack)
    (hcanonical : (f.direct numbers).Canonical) (hsize : (f.rendered numbers).size ≤ 1024)
    (hnesting : (f.rendered numbers).nesting ≤ 256) :
    evaluateNumeric (Template.render f.text scope []) = (f.direct numbers).numeric ∧
      evaluateBoolean (Template.render f.text scope []) = (f.direct numbers).boolean := by
  have hread := Form.read_render hbound hplain (Form.canonical_rendered hcanonical) hsize hnesting
  have heval := Form.eval_rendered hplain hback
  have htop := Form.topOperator_rendered numbers f
  constructor
  · rw [evaluateNumeric, hread, ← Form.numeric_eq heval htop]
    rfl
  · rw [evaluateBoolean, hread, ← Form.boolean_eq heval htop]
    rfl

namespace Sample

theorem legal_three : (Numeral.mk ['3'] false [] []).Legal :=
  .whole_only (List.cons_ne_nil '3' []) (List.forall_mem_singleton.2 rfl)

theorem legal_five : (Numeral.mk [] true ['5'] ['e', '1']).Legal where
  whole := List.forall_mem_nil _
  fraction := List.forall_mem_singleton.2 rfl
  point h := absurd h Bool.noConfusion
  digits := .inr (List.cons_ne_nil '5' [])
  exponent := ⟨.inl rfl, List.cons_ne_nil '1' [], List.forall_mem_singleton.2 rfl⟩

def x : Form := .hole "x" (by decide +kernel)

def y : Form := .hole "y" (by decide +kernel)

def form : Form :=
  .binary .sub (.literal _ legal_three) (.binary .mul x (.group (.binary .add y (.literal _ legal_five))))

def numbers (v : String) : Number := if v = "x" then .int (-5) else .float (-0.25)

def scope : Scope := .ofEntries [("x", .num (.int (-5))), ("y", .num (.float (-0.25)))]

end Sample

theorem evaluate_render_negative :
    Template.render Sample.form.text Sample.scope [] = "3 - -5 * ( -0.25 + .5e1 )" ∧
      (Sample.form.direct Sample.numbers).numeric = .ok 26.75 ∧
      evaluateNumeric (Template.render Sample.form.text Sample.scope []) =
        (Sample.form.direct Sample.numbers).numeric ∧
      evaluateBoolean (Template.render Sample.form.text Sample.scope []) =
        (Sample.form.direct Sample.numbers).boolean := by
  have hbound : ∀ v ∈ Sample.form.names, Sample.scope.get? v = some (.num (Sample.numbers v)) := by
    decide +kernel
  have hplain : ∀ v ∈ Sample.form.names, (Sample.numbers v).Plain := by decide +kernel
  have hback : ∀ v ∈ Sample.form.names, (Sample.numbers v).PlainReadsBack := by decide +kernel
  have hcanonical : (Sample.form.direct Sample.numbers).Canonical := by
    simp [Sample.form, Sample.x, Sample.y, Form.direct, Form.fill, Tree.Canonical, Tree.binding,
      Operator.level, Level.rank]
  exact ⟨by decide +kernel, by decide +kernel, evaluate_render _ _ _ hbound hplain hback hcanonical
    (by decide +kernel) (by decide +kernel)⟩

end FlowGraph.Expression
