import FlowGraph.Template

namespace FlowGraph.Template

namespace Piece

def written : Piece → List Char
  | text s => s
  | name n => '{' :: '{' :: (n.toList ++ ['}', '}'])

def Legal : Piece → Prop
  | text s => '{' ∉ s
  | name n => name? n.toList = some n

end Piece

theorem all_isNameChar {cs : List Char} {n : String} (h : name? cs = some n) :
    n.toList.all isNameChar = true := by
  simp only [name?, Option.ite_none_right_eq_some, Option.some.injEq] at h
  obtain ⟨⟨-, hall⟩, rfl⟩ := h
  rwa [String.toList_ofList]

theorem pieces_text {s : List Char} (hs : '{' ∉ s) (acc rest : List Char) :
    pieces false acc (s ++ rest) = pieces false (s.reverse ++ acc) rest := by
  induction s generalizing acc with
  | nil => rfl
  | cons c s ih =>
    have hc : '{' ≠ c := fun h => hs (h ▸ List.mem_cons_self)
    have hs : '{' ∉ s := fun h => hs (List.mem_cons_of_mem c h)
    have hread : pieces false acc (c :: (s ++ rest)) = pieces false (c :: acc) (s ++ rest) := by
      rw [pieces]
      · rintro r - rfl
        exact absurd rfl hc
      · nofun
    rw [List.cons_append, hread, ih hs, List.reverse_cons, List.append_assoc, List.singleton_append]

theorem pieces_inside {s : List Char} (hs : '}' ∉ s) (acc rest : List Char) :
    pieces true acc (s ++ '}' :: '}' :: rest) =
      pieces true (s.reverse ++ acc) ('}' :: '}' :: rest) := by
  induction s generalizing acc with
  | nil => rfl
  | cons c s ih =>
    have hc : '}' ≠ c := fun h => hs (h ▸ List.mem_cons_self)
    have hs : '}' ∉ s := fun h => hs (List.mem_cons_of_mem c h)
    have hread : pieces true acc (c :: (s ++ '}' :: '}' :: rest)) =
        pieces true (c :: acc) (s ++ '}' :: '}' :: rest) := by
      rw [pieces]
      · nofun
      · rintro r - rfl
        exact absurd rfl hc
    rw [List.cons_append, hread, ih hs, List.reverse_cons, List.append_assoc, List.singleton_append]

theorem pieces_name {n : String} (hn : name? n.toList = some n) (acc rest : List Char) :
    pieces false acc ((Piece.name n).written ++ rest) =
      (pieces false [] rest).map (literal acc.reverse ++ .name n :: ·) := by
  have hbrace : '}' ∉ n.toList := by
    intro h
    have := List.all_eq_true.1 (all_isNameChar hn) '}' h
    exact absurd this (by decide)
  have hinside : pieces true [] (n.toList ++ '}' :: '}' :: rest) =
      (pieces false [] rest).map (.name n :: ·) := by
    rw [pieces_inside hbrace, pieces, List.append_nil, List.reverse_reverse, hn]
  rw [Piece.written, List.cons_append, List.cons_append, List.append_assoc, pieces]
  change (pieces true [] (n.toList ++ '}' :: '}' :: rest)).map _ = _
  rw [hinside, Option.map_map]
  rfl

theorem shown_literal (look : String → Option Json) (s : List Char) :
    (literal s).flatMap (fun p => (p.shown look).toList) = s := by
  rw [literal]
  split
  · next hs => rw [hs]; rfl
  · rw [List.flatMap_singleton, Piece.shown, String.toList_ofList]

theorem pieces_written (look : String → Option Json) {ps : List Piece} (h : ∀ p ∈ ps, p.Legal)
    (acc : List Char) : ∃ qs, pieces false acc (ps.flatMap Piece.written) = some qs ∧
      qs.flatMap (fun p => (p.shown look).toList) =
        acc.reverse ++ ps.flatMap fun p => (p.shown look).toList := by
  -- neighbouring texts are read as one, so the text before the piece is carried along
  induction ps generalizing acc with
  | nil => exact ⟨literal acc.reverse, by rw [List.flatMap_nil, pieces], by simp [shown_literal]⟩
  | cons p ps ih =>
    obtain ⟨hp, hps⟩ := List.forall_mem_cons.1 h
    rw [List.flatMap_cons, List.flatMap_cons]
    cases p with
    | text s =>
      obtain ⟨qs, hqs, hshown⟩ := ih hps (s.reverse ++ acc)
      refine ⟨qs, ?_, ?_⟩
      · rw [Piece.written, pieces_text hp, hqs]
      · rw [hshown, Piece.shown, String.toList_ofList]
        simp
    | name n =>
      obtain ⟨qs, hqs, hshown⟩ := ih hps []
      refine ⟨literal acc.reverse ++ .name n :: qs, ?_, ?_⟩
      · rw [pieces_name hp, hqs, Option.map_some]
      · rw [List.flatMap_append, List.flatMap_cons, shown_literal, hshown]
        rfl

theorem render_written (scope : Scope) (extra : List (String × Json)) {ps : List Piece}
    (h : ∀ p ∈ ps, p.Legal) : render (String.ofList (ps.flatMap Piece.written)) scope extra =
      String.join (ps.map (Piece.shown (lookup scope extra))) := by
  obtain ⟨qs, hqs, hshown⟩ := pieces_written (lookup scope extra) h []
  rw [render, parse, String.toList_ofList, hqs]
  apply String.toList_inj.1
  simpa [List.flatMap_map] using hshown

def spaced (ps : List Piece) (f : Piece → String) : String := String.intercalate " " (ps.map f)

theorem spaced_eq {f : Piece → String} (hf : f (.text [' ']) = " ") (ps : List Piece) :
    spaced ps f = String.join ((ps.intersperse (.text [' '])).map f) := by
  apply String.toList_inj.1
  rw [spaced, String.toList_intercalate, String.toList_join]
  induction ps with
  | nil => rfl
  | cons p ps ih =>
    cases ps with
    | nil => simp
    | cons q ps =>
      have hright : (List.map f (p :: .text [' '] :: (q :: ps).intersperse (.text [' ']))).flatMap
          String.toList = (f p).toList ++ (" ".toList ++
            " ".toList.intercalate (((q :: ps).map f).map String.toList)) := by
        rw [ih, List.map_cons, List.map_cons, List.flatMap_cons, List.flatMap_cons, hf]
      rw [List.intersperse_cons_cons, hright]
      simp [List.intercalate_cons_cons]

theorem legal_intersperse {ps : List Piece} (h : ∀ p ∈ ps, p.Legal) :
    ∀ p ∈ ps.intersperse (.text [' ']), p.Legal := by
  have hspace : (Piece.text [' ']).Legal := by
    rw [Piece.Legal]
    decide
  induction ps with
  | nil => nofun
  | cons p ps ih =>
    cases ps with
    | nil => exact h
    | cons q ps =>
      obtain ⟨hp, hps⟩ := List.forall_mem_cons.1 h
      rw [List.intersperse_cons_cons]
      exact List.forall_mem_cons.2 ⟨hp, List.forall_mem_cons.2 ⟨hspace, ih hps⟩⟩

theorem render_spaced (scope : Scope) (extra : List (String × Json)) {ps : List Piece}
    (h : ∀ p ∈ ps, p.Legal) : render (spaced ps fun p => String.ofList p.written) scope extra =
      spaced ps (Piece.shown (lookup scope extra)) := by
  have hjoin : String.join ((ps.intersperse (.text [' '])).map fun p => String.ofList p.written) =
      String.ofList ((ps.intersperse (.text [' '])).flatMap Piece.written) := by
    apply String.toList_inj.1
    simp [List.flatMap_map]
  rw [spaced_eq rfl, hjoin, render_written scope extra (legal_intersperse h), spaced_eq rfl]

end FlowGraph.Template
