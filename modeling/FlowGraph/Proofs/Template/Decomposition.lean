import FlowGraph.Proofs.Template
import Mathlib.Data.List.TakeWhile
/-!
A template is filled in once, and as a whole or not at all. Its decomposition is told apart from
the reader: text, the first double brace that opens, the first that closes after it, and so on.
-/

namespace FlowGraph.Template

def opening : List Char := ['{', '{']

def closing : List Char := ['}', '}']

structure FirstAt (mark s l r : List Char) : Prop where
  cut : s = l ++ mark ++ r
  leftmost : ∀ l' r', s = l' ++ mark ++ r' → l.length ≤ l'.length

/-- What a placeholder names: the blanks around it and one dot before it do not count. -/
def bare (inside : List Char) : List Char :=
  match Text.trim inside with
  | '.' :: r => r
  | r => r

def IsName (n : List Char) : Prop :=
  n ≠ [] ∧ ∀ c ∈ n, c.isAlphanum ∨ c = '_' ∨ c = '.' ∨ c = '-'

def shown (look : String → Option Json) (inside : List Char) : List Char :=
  match resolve look (String.ofList (bare inside)) with
  | some v => v.display.toList
  | none => []

structure Hole where
  before : List Char
  inside : List Char
deriving DecidableEq

structure Parts where
  holes : List Hole
  last : List Char
deriving DecidableEq

namespace Parts

def fill (f : List Char → List Char) (d : Parts) : List Char :=
  d.holes.flatMap (fun h => h.before ++ f h.inside) ++ d.last

def written : Parts → List Char := fill fun inside => opening ++ inside ++ closing

def prepend (l : List Char) : Parts → Parts
  | ⟨[], last⟩ => ⟨[], l ++ last⟩
  | ⟨h :: hs, last⟩ => ⟨⟨l ++ h.before, h.inside⟩ :: hs, last⟩

def join (d e : Parts) : Parts :=
  ⟨d.holes ++ (e.prepend d.last).holes, (e.prepend d.last).last⟩

theorem fill_cons (f : List Char → List Char) (h : Hole) (hs : List Hole) (last : List Char) :
    fill f ⟨h :: hs, last⟩ = h.before ++ f h.inside ++ fill f ⟨hs, last⟩ := by
  simp [fill]

theorem fill_prepend (f : List Char → List Char) (l : List Char) (e : Parts) :
    (e.prepend l).fill f = l ++ e.fill f := by
  obtain ⟨_ | ⟨h, hs⟩, last⟩ := e
  · rfl
  · simp [prepend, fill_cons]

theorem fill_join (f : List Char → List Char) (d e : Parts) :
    (d.join e).fill f = d.fill f ++ e.fill f := by
  have hprepend := fill_prepend f d.last e
  unfold fill at hprepend ⊢
  rw [join, List.flatMap_append, List.append_assoc, hprepend, List.append_assoc]

end Parts

inductive Decomposes : List Char → Parts → Prop
  | text {s : List Char} : ¬opening <:+: s → Decomposes s ⟨[], s⟩
  | hole {s l r inside r' last : List Char} {hs : List Hole} :
    FirstAt opening s l r → FirstAt closing r inside r' → IsName (bare inside) →
    Decomposes r' ⟨hs, last⟩ → Decomposes s ⟨⟨l, inside⟩ :: hs, last⟩

namespace FirstAt

variable {mark s l r l' r' : List Char}

theorem unique (h : FirstAt mark s l r) (h' : FirstAt mark s l' r') : l = l' ∧ r = r' := by
  have hlength : l.length = l'.length :=
    Nat.le_antisymm (h.leftmost l' r' h'.cut) (h'.leftmost l r h.cut)
  have hcut : l ++ (mark ++ r) = l' ++ (mark ++ r') := by
    rw [← List.append_assoc, ← List.append_assoc, ← h.cut, h'.cut]
  obtain ⟨hl, hr⟩ := List.append_inj hcut hlength
  exact ⟨hl, List.append_cancel_left hr⟩

theorem isInfix (h : FirstAt mark s l r) : mark <:+: s := ⟨l, r, h.cut.symm⟩

theorem cons {c : Char} (hc : ¬mark <+: c :: s) (h : FirstAt mark s l r) :
    FirstAt mark (c :: s) (c :: l) r := by
  refine ⟨by rw [h.cut]; rfl, fun l' r' hcut => ?_⟩
  cases l' with
  | nil => exact absurd ⟨r', hcut.symm⟩ hc
  | cons c' l' =>
    obtain ⟨-, hcut⟩ := List.cons_eq_cons.1 hcut
    exact Nat.succ_le_succ (h.leftmost l' r' hcut)

theorem uncons {c : Char} (h : FirstAt mark s (c :: l) r) :
    ∃ s', s = c :: s' ∧ ¬mark <+: c :: s' ∧ FirstAt mark s' l r := by
  refine ⟨l ++ mark ++ r, h.cut, ?_, rfl, fun l' r' hcut => ?_⟩
  · rintro ⟨r', hcut⟩
    exact absurd (h.leftmost [] r' (h.cut.trans hcut.symm)) (Nat.not_succ_le_zero _)
  · apply Nat.le_of_succ_le_succ
    apply h.leftmost (c :: l') r'
    rw [h.cut, List.cons_append, List.cons_append, hcut]
    rfl

theorem append (h : FirstAt mark s l r) (b : List Char) :
    FirstAt mark (s ++ b) l (r ++ b) := by
  refine ⟨by rw [h.cut, List.append_assoc], fun l' r' hcut => ?_⟩
  apply Nat.le_of_not_lt
  intro hlt
  -- an earlier place would lie wholly in the first text
  have hlong : (l' ++ mark).length ≤ s.length := by
    rw [h.cut]
    simp only [List.length_append]
    omega
  have hprefix : l' ++ mark <+: s :=
    List.prefix_of_prefix_length_le ⟨r', hcut.symm⟩ (List.prefix_append s b) hlong
  obtain ⟨r'', hr''⟩ := hprefix
  exact Nat.not_le_of_lt hlt (h.leftmost l' r'' hr''.symm)

end FirstAt

theorem exists_firstAt {mark s : List Char} (h : mark <:+: s) : ∃ l r, FirstAt mark s l r := by
  induction s with
  | nil =>
    obtain rfl := List.infix_nil.1 h
    exact ⟨[], [], rfl, fun _ _ _ => Nat.zero_le _⟩
  | cons c s ih =>
    by_cases hc : mark <+: c :: s
    · obtain ⟨r, hr⟩ := hc
      exact ⟨[], r, hr.symm, fun _ _ _ => Nat.zero_le _⟩
    · have hs : mark <:+: s := (List.infix_cons_iff.1 h).resolve_left hc
      obtain ⟨l, r, hfirst⟩ := ih hs
      exact ⟨c :: l, r, hfirst.cons hc⟩

theorem name?_eq_some_iff {inside : List Char} {n : String} :
    name? inside = some n ↔ IsName (bare inside) ∧ n = String.ofList (bare inside) := by
  have hname : name? inside = if bare inside ≠ [] ∧ (bare inside).all isNameChar then
      some (String.ofList (bare inside)) else none := rfl
  have hlegal : IsName (bare inside) ↔ bare inside ≠ [] ∧ (bare inside).all isNameChar := by
    simp [IsName, isNameChar, or_assoc]
  rw [hname, hlegal, Option.ite_none_right_eq_some, Option.some.injEq, eq_comm (a := n)]

theorem pieces_skip_text {c : Char} {s : List Char} (h : ¬opening <+: c :: s) (acc : List Char) :
    pieces false acc (c :: s) = pieces false (c :: acc) s := by
  rw [pieces]
  · rintro r - rfl rfl
    exact h ⟨r, rfl⟩
  · intro r hr
    cases hr

theorem pieces_skip_inside {c : Char} {s : List Char} (h : ¬closing <+: c :: s)
    (acc : List Char) : pieces true acc (c :: s) = pieces true (c :: acc) s := by
  rw [pieces]
  · intro r hr
    cases hr
  · rintro r - rfl rfl
    exact h ⟨r, rfl⟩

theorem pieces_opening {s l r : List Char} (h : FirstAt opening s l r) (acc : List Char) :
    pieces false acc s = (pieces true [] r).map (literal (acc.reverse ++ l) ++ ·) := by
  induction l generalizing s acc with
  | nil =>
    rw [h.cut, List.append_nil]
    change pieces false acc ('{' :: '{' :: r) = _
    rw [pieces]
  | cons c l ih =>
    obtain ⟨s, rfl, hc, hs⟩ := h.uncons
    rw [pieces_skip_text hc, ih hs, List.reverse_cons, List.append_assoc, List.singleton_append]

theorem pieces_plain {s : List Char} (h : ¬opening <:+: s) (acc : List Char) :
    pieces false acc s = some (literal (acc.reverse ++ s)) := by
  induction s generalizing acc with
  | nil => rw [pieces, List.append_nil]
  | cons c s ih =>
    rw [List.infix_cons_iff, not_or] at h
    rw [pieces_skip_text h.1, ih h.2, List.reverse_cons, List.append_assoc, List.singleton_append]

theorem pieces_closing {s inside r : List Char} (h : FirstAt closing s inside r)
    (acc : List Char) : pieces true acc s = (name? (acc.reverse ++ inside)).bind fun n =>
      (pieces false [] r).map (.name n :: ·) := by
  induction inside generalizing s acc with
  | nil =>
    rw [h.cut, List.append_nil]
    change pieces true acc ('}' :: '}' :: r) = _
    rw [pieces]
    cases name? acc.reverse <;> rfl
  | cons c inside ih =>
    obtain ⟨s, rfl, hc, hs⟩ := h.uncons
    rw [pieces_skip_inside hc, ih hs, List.reverse_cons, List.append_assoc, List.singleton_append]

theorem pieces_unclosed {s : List Char} (h : ¬closing <:+: s) (acc : List Char) :
    pieces true acc s = none := by
  induction s generalizing acc with
  | nil => rw [pieces]
  | cons c s ih =>
    rw [List.infix_cons_iff, not_or] at h
    rw [pieces_skip_inside h.1, ih h.2]

theorem shown_name (look : String → Option Json) (inside : List Char) :
    ((Piece.name (String.ofList (bare inside))).shown look).toList = shown look inside := by
  rw [Piece.shown, shown]
  cases resolve look (String.ofList (bare inside)) <;> rfl

theorem Decomposes.pieces {s : List Char} {d : Parts} (h : Decomposes s d) :
    ∃ ps, pieces false [] s = some ps ∧ ∀ look,
      ps.flatMap (fun p => (p.shown look).toList) = d.fill (shown look) := by
  induction h with
  | @text s hs => exact ⟨literal s, pieces_plain hs [], fun look => shown_literal look s⟩
  | @hole s l r inside r' last hs hopen hclose hname _ ih =>
    obtain ⟨ps, hps, hshown⟩ := ih
    have hn : name? inside = some (String.ofList (bare inside)) :=
      name?_eq_some_iff.2 ⟨hname, rfl⟩
    refine ⟨literal l ++ .name (String.ofList (bare inside)) :: ps, ?_, fun look => ?_⟩
    · rw [pieces_opening hopen, pieces_closing hclose, List.reverse_nil, List.nil_append,
        List.nil_append, hn, Option.bind_some, hps]
      rfl
    · rw [List.flatMap_append, List.flatMap_cons, shown_literal, shown_name, hshown,
        Parts.fill_cons, List.append_assoc]

theorem decomposes_of_pieces {s : List Char} {ps : List Piece}
    (h : Template.pieces false [] s = some ps) : ∃ d, Decomposes s d := by
  -- each placeholder leaves a shorter rest
  induction hn : s.length using Nat.strongRecOn generalizing s ps with
  | ind n ih =>
    by_cases hopen : opening <:+: s
    · obtain ⟨l, r, hl⟩ := exists_firstAt hopen
      rw [pieces_opening hl, Option.map_eq_some_iff] at h
      obtain ⟨ps', hps', -⟩ := h
      by_cases hclose : closing <:+: r
      · obtain ⟨inside, r', hr⟩ := exists_firstAt hclose
        rw [pieces_closing hr, Option.bind_eq_some_iff] at hps'
        obtain ⟨name, hname, hrest⟩ := hps'
        obtain ⟨qs, hqs, -⟩ := Option.map_eq_some_iff.1 hrest
        have hshorter : r'.length < n := by
          rw [← hn, hl.cut, hr.cut]
          simp only [List.length_append]
          change _ < _ + 2 + _
          omega
        obtain ⟨⟨hs, last⟩, hd⟩ := ih r'.length hshorter hqs rfl
        exact ⟨_, .hole hl hr (name?_eq_some_iff.1 hname).1 hd⟩
      · rw [pieces_unclosed hclose] at hps'
        cases hps'
    · exact ⟨_, .text hopen⟩

namespace Decomposes

variable {s a b : List Char} {d e : Parts}

theorem unique (h : Decomposes s d) (h' : Decomposes s e) : d = e := by
  induction h generalizing e with
  | text hs =>
    cases h' with
    | text => rfl
    | hole hopen => exact absurd hopen.isInfix hs
  | hole hopen hclose _ _ ih =>
    cases h' with
    | text hs => exact absurd hopen.isInfix hs
    | hole hopen' hclose' _ hrest =>
      obtain ⟨rfl, rfl⟩ := hopen.unique hopen'
      obtain ⟨rfl, rfl⟩ := hclose.unique hclose'
      cases ih hrest
      rfl

theorem written (h : Decomposes s d) : d.written = s := by
  induction h with
  | text => rfl
  | hole hopen hclose _ _ ih =>
    rw [Parts.written] at ih ⊢
    rw [Parts.fill_cons, ih, hopen.cut, hclose.cut]
    simp only [List.append_assoc]

theorem opening_append {l r : List Char} (h : a ++ b = l ++ opening ++ r) : opening <:+: a ∨
    (a.getLast? = some '{' ∧ b.head? = some '{') ∨ ∃ l', l = a ++ l' ∧ b = l' ++ opening ++ r := by
  rw [List.append_assoc, List.append_eq_append_iff] at h
  rcases h with ⟨l', rfl, rfl⟩ | ⟨a', rfl, ha'⟩
  · exact .inr (.inr ⟨l', rfl, (List.append_assoc ..).symm⟩)
  · match a', ha' with
    | [], ha' => exact .inr (.inr ⟨[], by simp, by simpa using ha'.symm⟩)
    | [c], ha' =>
      obtain ⟨rfl, rfl⟩ : c = '{' ∧ b = '{' :: r := by simpa [opening, eq_comm] using ha'
      exact .inr (.inl ⟨by simp, rfl⟩)
    | c :: c' :: a', ha' =>
      obtain ⟨rfl, rfl, -⟩ : c = '{' ∧ c' = '{' ∧ a' ++ b = r := by
        simpa [opening, eq_comm] using ha'
      exact .inl ⟨l, a', by simp [opening]⟩

theorem prepend (ha : ¬opening <:+: a) (h : Decomposes b e)
    (hborder : ¬(a.getLast? = some '{' ∧ b.head? = some '{')) :
    Decomposes (a ++ b) (e.prepend a) := by
  cases h with
  | text hb =>
    apply text
    rintro ⟨l, r, hcut⟩
    rcases opening_append hcut.symm with h | h | ⟨l', -, rfl⟩
    · exact ha h
    · exact hborder h
    · exact hb ⟨l', r, rfl⟩
  | @hole _ l r _ _ _ _ hopen hclose hname hrest =>
    refine hole ⟨by rw [hopen.cut]; simp only [List.append_assoc], fun l' r' hcut => ?_⟩ hclose
      hname hrest
    rcases opening_append hcut with h | h | ⟨l'', rfl, hb⟩
    · exact absurd h ha
    · exact absurd h hborder
    · rw [List.length_append, List.length_append]
      exact Nat.add_le_add_left (hopen.leftmost l'' r' hb) _

theorem append (ha : Decomposes a d) (hb : Decomposes b e)
    (hborder : ¬(a.getLast? = some '{' ∧ b.head? = some '{')) :
    Decomposes (a ++ b) (d.join e) := by
  induction ha with
  | text ha => exact prepend ha hb hborder
  | @hole s l r inside r' last hs hopen hclose hname _ ih =>
    -- a brace at the end of what is left is one at the end of the template
    have hlast : r'.getLast? = some '{' → s.getLast? = some '{' := by
      intro h
      rw [hopen.cut, hclose.cut, List.getLast?_append, List.getLast?_append, h]
      rfl
    have hrest := ih fun h => hborder ⟨hlast h.1, h.2⟩
    exact hole (hopen.append b) (hclose.append b) hname hrest

end Decomposes

theorem render_of_decomposes {t : String} {d : Parts} (h : Decomposes t.toList d) (scope : Scope)
    (extra : List (String × Json)) :
    render t scope extra = String.ofList (d.fill (shown (lookup scope extra))) := by
  obtain ⟨ps, hps, hshown⟩ := h.pieces
  rw [render, parse, hps]
  apply String.toList_inj.1
  rw [String.toList_ofList, ← hshown]
  simp [List.flatMap_map]

theorem render_of_malformed {t : String} (h : ∀ d, ¬Decomposes t.toList d) (scope : Scope)
    (extra : List (String × Json)) : render t scope extra = t := by
  rw [render, parse]
  cases hps : pieces false [] t.toList with
  | none => rfl
  | some ps =>
    obtain ⟨d, hd⟩ := decomposes_of_pieces hps
    exact absurd hd (h d)

theorem FirstAt.of_notMem {c : Char} {mark l : List Char} (hl : c ∉ l) (r : List Char) :
    FirstAt (c :: mark) (l ++ (c :: mark) ++ r) l r := by
  induction l with
  | nil => exact ⟨rfl, fun _ _ _ => Nat.zero_le _⟩
  | cons d l ih =>
    obtain ⟨hcd, hl⟩ := List.ne_and_not_mem_of_not_mem_cons hl
    apply FirstAt.cons _ (ih hl)
    intro hprefix
    exact hcd (List.cons_prefix_cons.1 hprefix).1

theorem mem_trim {c : Char} {cs : List Char} (hc : c ∈ cs) (hblank : Text.isBlank c = false) :
    c ∈ Text.trim cs := by
  have hkept : ∀ {as : List Char}, c ∈ as → c ∈ as.dropWhile Text.isBlank := by
    intro as has
    rw [← List.takeWhile_append_dropWhile (p := Text.isBlank) (l := as)] at has
    rcases List.mem_append.1 has with has | has
    · rw [List.mem_takeWhile_imp has] at hblank
      cases hblank
    · exact has
  exact List.mem_reverse.2 (hkept (List.mem_reverse.2 (hkept hc)))

theorem mem_bare {c : Char} {inside : List Char} (hc : c ∈ inside)
    (hblank : Text.isBlank c = false) (hdot : c ≠ '.') : c ∈ bare inside := by
  have htrim := mem_trim hc hblank
  unfold bare
  split
  · next r hr =>
    rw [hr] at htrim
    exact (List.mem_cons.1 htrim).resolve_left hdot
  · exact htrim

theorem brace_notMem {inside : List Char} (h : IsName (bare inside)) : '}' ∉ inside := by
  intro hmem
  have hname := h.2 '}' (mem_bare hmem (by decide) (by decide))
  exact absurd hname (by decide)

/-- No text opens a placeholder, and what is inside one names something. -/
structure Parts.Legal (d : Parts) : Prop where
  before : ∀ h ∈ d.holes, '{' ∉ h.before
  inside : ∀ h ∈ d.holes, IsName (bare h.inside)
  last : '{' ∉ d.last

theorem Parts.Legal.decomposes {d : Parts} (h : d.Legal) : Decomposes d.written d := by
  obtain ⟨holes, last⟩ := d
  induction holes with
  | nil =>
    apply Decomposes.text
    intro hopens
    exact h.last (hopens.subset List.mem_cons_self)
  | cons hole holes ih =>
    obtain ⟨hbefore, hsbefore⟩ := List.forall_mem_cons.1 h.before
    obtain ⟨hinside, hsinside⟩ := List.forall_mem_cons.1 h.inside
    have hwritten : written ⟨hole :: holes, last⟩ =
        hole.before ++ opening ++ (hole.inside ++ closing ++ written ⟨holes, last⟩) := by
      rw [written, fill_cons]
      simp only [List.append_assoc]
    rw [hwritten]
    apply Decomposes.hole
    · exact FirstAt.of_notMem hbefore _
    · exact FirstAt.of_notMem (brace_notMem hinside) _
    · exact hinside
    · exact ih ⟨hsbefore, hsinside, h.last⟩

def placeholder (inside : String) : String := String.ofList (opening ++ inside.toList ++ closing)

theorem shown_of_bound {inside : List Char} {name : String} (hname : name? inside = some name)
    {look : String → Option Json} {v : Json} (h : look name = some v) :
    shown look inside = v.display.toList := by
  obtain ⟨-, rfl⟩ := name?_eq_some_iff.1 hname
  rw [shown, resolve, h, Option.some_or]

theorem render_decomposed (t : String) (scope : Scope) (extra : List (String × Json)) :
    (∀ d e, Decomposes t.toList d → Decomposes t.toList e → d = e) ∧
    (∀ d, Decomposes t.toList d → d.written = t.toList ∧
      render t scope extra = String.ofList (d.fill (shown (lookup scope extra)))) ∧
    ((∀ d, ¬Decomposes t.toList d) → render t scope extra = t) ∧
    ∀ u d e, Decomposes t.toList d → Decomposes u.toList e →
      ¬(t.toList.getLast? = some '{' ∧ u.toList.head? = some '{') →
      render (t ++ u) scope extra = render t scope extra ++ render u scope extra := by
  refine ⟨fun d e => Decomposes.unique, fun d hd => ⟨hd.written, ?_⟩, fun h => ?_, ?_⟩
  · exact render_of_decomposes hd scope extra
  · exact render_of_malformed h scope extra
  · intro u d e hd he hborder
    have hjoin : Decomposes (t ++ u).toList (d.join e) := by
      rw [String.toList_append]
      exact hd.append he hborder
    rw [render_of_decomposes hjoin, render_of_decomposes hd, render_of_decomposes he,
      Parts.fill_join, String.ofList_append]

namespace Sample

def braced (s : String) : String := String.ofList (opening ++ s.toList ++ closing)

def first : String := braced " .x " ++ String.singleton '{'

def second : String := "!" ++ braced "y"

def malformed : String := braced "x" ++ braced ""

def scope : Scope := Scope.initial.bind "x" (.str (braced "y"))

end Sample

open Template.Sample (braced first second malformed scope) in
theorem render_decomposed_braces :
    (∃ d e, Decomposes first.toList d ∧ Decomposes second.toList e) ∧
    render (first ++ second) scope [] = render first scope [] ++ render second scope [] ∧
    render first scope [] = braced "y" ++ String.singleton '{' ∧ render second scope [] = "!" ∧
    (∀ d, ¬Decomposes malformed.toList d) ∧ render malformed scope [] = malformed := by
  have hfirst : pieces false [] first.toList = some [.name "x", .text ['{']] := rfl
  have hsecond : pieces false [] second.toList = some [.text ['!'], .name "y"] := rfl
  obtain ⟨d, hd⟩ := decomposes_of_pieces hfirst
  obtain ⟨e, he⟩ := decomposes_of_pieces hsecond
  have hmalformed : ∀ d, ¬Decomposes malformed.toList d := by
    intro d hd
    obtain ⟨ps, hps, -⟩ := hd.pieces
    cases hps
  obtain ⟨-, -, -, happend⟩ := render_decomposed first scope []
  obtain ⟨-, -, hsame, -⟩ := render_decomposed malformed scope []
  exact ⟨⟨d, e, hd, he⟩, happend _ d e hd he (by decide), rfl, rfl, hmalformed, hsame hmalformed⟩

end FlowGraph.Template
