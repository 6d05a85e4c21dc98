import FlowGraph.Expression.Evaluation
import FlowGraph.Proofs.Expression.Grammar
import FlowGraph.Proofs.Expression.Lexeme
import FlowGraph.Proofs.Template.Decomposition
import FlowGraph.Proofs.Text.Order

namespace FlowGraph.Expression

def escaped (s : List Char) : List Char :=
  s.flatMap fun c => if c = '"' ∨ c = '\\' then ['\\', c] else [c]

def doubleQuoted (s : String) : String := String.ofList ('"' :: (escaped s.toList ++ ['"']))

def backticked (s : String) : String := String.ofList ('\x60' :: (s.toList ++ ['\x60']))

theorem quotedBody_escaped (s : List Char) : QuotedBody (escaped s) s := by
  induction s with
  | nil => exact .nil
  | cons c s ih =>
    rw [escaped, List.flatMap_cons]
    split
    · next hc =>
      rcases hc with rfl | rfl
      · exact .escape '"' ih
      · exact .escape '\\' ih
    · next hc =>
      rw [not_or] at hc
      exact .plain hc.1 hc.2 ih

theorem lexeme_doubleQuoted {x s : List Char} (h : QuotedBody x s) (offset : Nat)
    (rest : List Char) : lexeme offset '"' (x ++ ['"'] ++ rest) =
      .ok (.str (String.ofList s), (x ++ ['"']).length) := by
  have hquoted : quoted (x ++ ['"'] ++ rest) = some (s, (x ++ ['"']).length) :=
    quoted_eq_some_iff.2 ⟨x, rest, by simp, h, by simp⟩
  simp only [lexeme, hquoted]

theorem lexeme_backticked {s : List Char} (hs : '\x60' ∉ s) (offset : Nat) (rest : List Char) :
    lexeme offset '\x60' (s ++ ['\x60'] ++ rest) =
      .ok (.str (String.ofList s), (s ++ ['\x60']).length) := by
  have hraw : raw (s ++ ['\x60'] ++ rest) = some (s, (s ++ ['\x60']).length) :=
    raw_eq_some_iff.2 ⟨s, rest, by simp, ⟨rfl, hs⟩, by simp⟩
  simp only [lexeme, hraw]

theorem lexes_backticked {s : String} (hs : '\x60' ∉ s.toList) :
    Lexes (backticked s).toList [.str s] := by
  rw [backticked, String.toList_ofList]
  apply Lexes.of_lexeme rfl
  intro offset rest _
  rw [lexeme_backticked hs, String.ofList_toList]

def Operator.ofBytes : Operator → List Nat → List Nat → Bool
  | .eq, a, b => a = b
  | .ne, a, b => a ≠ b
  | .lt, a, b => a < b
  | .gt, a, b => b < a
  | .le, a, b => a ≤ b
  | .ge, a, b => b ≤ a
  | _, _, _ => false

theorem holds_textOrder (op : Operator) (x y : String) :
    op.holds (some (textOrder x y)) = op.ofBytes (Text.bytes x) (Text.bytes y) := by
  unfold textOrder
  rcases lt_trichotomy x y with h | rfl | h
  · cases op <;> simp [Operator.holds, Operator.ofBytes, h, h.le, h.ne, h.not_gt]
  · cases op <;> simp [Operator.holds, Operator.ofBytes]
  · cases op <;> simp [Operator.holds, Operator.ofBytes, h, h.le, h.ne', h.not_gt]

theorem boolean_compare {op : Operator} (hop : op.isComparison = true) (x y : String) :
    (Tree.binary op (.str x) (.str y)).boolean = .ok (op.holds (some (textOrder x y))) := by
  have htop : (Tree.binary op (.str x) (.str y)).isComparison = true := hop
  have heval : (Tree.binary op (.str x) (.str y)).eval =
      .ok (truth (op.holds (some (textOrder x y)))) := by
    simp only [Tree.eval, bind, Except.bind, Operator.apply, hop, ↓reduceIte, compare]
  rw [Tree.boolean, if_pos htop, heval]
  cases op.holds (some (textOrder x y)) <;> rfl

def comparison (s : String) (op : Operator) (t : String) : String :=
  backticked s ++ " " ++ op.symbol ++ " " ++ backticked t

theorem read_comparison (op : Operator) {s t : String} (hs : '\x60' ∉ s.toList)
    (ht : '\x60' ∉ t.toList) : read (comparison s op t) = .ok (.binary op (.str s) (.str t)) := by
  have hspaced : comparison s op t =
      String.intercalate " " [backticked s, op.symbol, backticked t] := by
    apply String.toList_inj.1
    simp [comparison]
  have hlexed : Lexed ([backticked s, op.symbol, backticked t].map String.toList)
      (Tree.binary op (.str s) (.str t)).tokens :=
    .cons (lexes_backticked hs) (.cons (lexes_operator op) (.single (lexes_backticked ht)))
  obtain ⟨ps, hps, htokens⟩ := tokenize_spaced hlexed
  have hcanonical : (Tree.binary op (.str s) (.str t)).Canonical :=
    ⟨trivial, trivial, Nat.le_of_lt op.level.rank_lt, op.level.rank_lt⟩
  have hsize : (Tree.binary op (.str s) (.str t)).size ≤ maxNodes := by
    simp [Tree.size, maxNodes]
  have hnesting : (Tree.binary op (.str s) (.str t)).nesting ≤ maxNesting := Nat.zero_le _
  rw [hspaced, read, hps]
  exact parse_of_tokens hcanonical htokens.symm hsize hnesting

theorem evaluate_comparison {op : Operator} (hop : op.isComparison = true) {s t : String}
    (hs : '\x60' ∉ s.toList) (ht : '\x60' ∉ t.toList) :
    evaluateBoolean (comparison s op t) = .ok (op.ofBytes (Text.bytes s) (Text.bytes t)) := by
  rw [evaluateBoolean, read_comparison op hs ht, ← holds_textOrder, ← boolean_compare hop]
  rfl

section

open Template (Parts IsName bare name? lookup placeholder)

def comparisonParts (p : String) (op : Operator) (q : String) : Parts where
  holes := [⟨['\x60'], p.toList⟩, ⟨'\x60' :: ' ' :: (op.symbol.toList ++ [' ', '\x60']), q.toList⟩]
  last := ['\x60']

theorem ofList_fill (f : List Char → List Char) (p : String) (op : Operator) (q : String) :
    String.ofList ((comparisonParts p op q).fill f) =
      comparison (String.ofList (f p.toList)) op (String.ofList (f q.toList)) := by
  apply String.toList_inj.1
  simp [comparisonParts, Parts.fill, comparison, backticked]

theorem comparisonParts_legal {p q : String} (hp : IsName (bare p.toList))
    (hq : IsName (bare q.toList)) (op : Operator) : (comparisonParts p op q).Legal := by
  have hfirst : '\x7b' ∉ ['\x60'] := by decide
  have hsecond : '\x7b' ∉ '\x60' :: ' ' :: (op.symbol.toList ++ [' ', '\x60']) := by
    cases op <;> decide
  exact ⟨List.forall_mem_cons.2 ⟨hfirst, List.forall_mem_singleton.2 hsecond⟩,
    List.forall_mem_cons.2 ⟨hp, List.forall_mem_singleton.2 hq⟩, hfirst⟩

theorem render_comparison {scope : Scope} {p q x y : String} {v w : Json}
    (hp : name? p.toList = some x) (hq : name? q.toList = some y) (hv : scope.get? x = some v)
    (hw : scope.get? y = some w) (op : Operator) :
    Template.render (comparison (placeholder p) op (placeholder q)) scope [] =
      comparison v.display op w.display := by
  have hlegal := comparisonParts_legal (Template.name?_eq_some_iff.1 hp).1
    (Template.name?_eq_some_iff.1 hq).1 op
  have htemplate : comparison (placeholder p) op (placeholder q) =
      String.ofList (comparisonParts p op q).written := by
    rw [Parts.written, ofList_fill, placeholder, placeholder]
  have hdecomposes : Template.Decomposes
      (comparison (placeholder p) op (placeholder q)).toList (comparisonParts p op q) := by
    rw [htemplate, String.toList_ofList]
    exact hlegal.decomposes
  have hlook : ∀ {name u}, scope.get? name = some u → lookup scope [] name = some u := id
  rw [Template.render_of_decomposes hdecomposes, ofList_fill, Template.shown_of_bound hp (hlook hv),
    Template.shown_of_bound hq (hlook hw), String.ofList_toList, String.ofList_toList]

end

/-- What stands in a placeholder is the name itself, or the name after another dot if it begins with
one; there may be blanks around it. -/
theorem quotes_carry_texts :
    (∀ s : String, tokenize (doubleQuoted s) = .ok [⟨.str s, 0⟩]) ∧
    (∀ s : String, '\x60' ∉ s.toList → tokenize (backticked s) = .ok [⟨.str s, 0⟩]) ∧
    ∀ (scope : Scope) (op : Operator) (p q x y : String) (v w : Json), op.isComparison = true →
      Template.name? p.toList = some x → Template.name? q.toList = some y →
      scope.get? x = some v → scope.get? y = some w →
      '\x60' ∉ v.display.toList → '\x60' ∉ w.display.toList →
      evaluateBoolean (Template.render
          (comparison (Template.placeholder p) op (Template.placeholder q)) scope []) =
        .ok (op.ofBytes (Text.bytes v.display) (Text.bytes w.display)) := by
  refine ⟨fun s => ?_, fun s hs => ?_, ?_⟩
  · have hlexeme := lexeme_doubleQuoted (quotedBody_escaped s.toList) 0 []
    rw [String.ofList_toList] at hlexeme
    exact tokenize_lexeme rfl hlexeme
  · have hlexeme := lexeme_backticked hs 0 []
    rw [String.ofList_toList] at hlexeme
    exact tokenize_lexeme rfl hlexeme
  · intro scope op p q x y v w hop hp hq hv hw hvquote hwquote
    rw [render_comparison hp hq hv hw, evaluate_comparison hop hvquote hwquote]

namespace Sample

def texts : Scope := .ofEntries [(".x", .str "\uFFFF\"\\n"), ("y", .str "😀\x7b\x7by\x7d\x7d\n")]

end Sample

theorem quotes_carry_texts_braces :
    tokenize (backticked "\"\\n") = .ok [⟨.str "\"\\n", 0⟩] ∧
    Template.name? " ..x ".toList = some ".x" ∧ Template.name? "y".toList = some "y" ∧
    evaluateBoolean (Template.render (comparison (Template.placeholder " ..x ") .lt
      (Template.placeholder "y")) Sample.texts []) = .ok true := by
  have hp : Template.name? " ..x ".toList = some ".x" := by decide +kernel
  have hq : Template.name? "y".toList = some "y" := by decide +kernel
  obtain ⟨-, hraw, hcompare⟩ := quotes_carry_texts
  refine ⟨hraw _ (by decide), hp, hq, ?_⟩
  rw [hcompare Sample.texts .lt _ _ _ _ (.str "\uFFFF\"\\n") (.str "😀\x7b\x7by\x7d\x7d\n") rfl hp
    hq (by decide +kernel) (by decide +kernel) (by decide) (by decide)]
  decide +kernel

end FlowGraph.Expression
