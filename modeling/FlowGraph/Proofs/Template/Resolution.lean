import FlowGraph.Template

namespace FlowGraph

def Scope.overlaid (s : Scope) (extra : List (String × Json)) : Scope :=
  extra.foldr (fun e s => s.bind e.1 e.2) s

theorem Scope.get?_overlaid (s : Scope) (extra : List (String × Json)) (name : String) :
    (s.overlaid extra).get? name = (Entries.get? name extra).or (s.get? name) := by
  induction extra with
  | nil => rfl
  | cons e extra ih =>
    change ((s.overlaid extra).bind e.1 e.2).get? name = _
    rw [get?_bind, ih, Entries.get?]
    split <;> rfl

namespace Template

/-- Where a path leads from a value, by the fields of objects and the places of lists. -/
inductive Leads : Json → List (List Char) → Json → Prop
  | here (v : Json) : Leads v [] v
  | field {fields : List (String × Json)} {segment : List Char} {path : List (List Char)}
      {v w : Json} :
    Entries.get? (String.ofList segment) fields = some v → Leads v path w →
    Leads (.obj fields) (segment :: path) w
  | item {items : List Json} {segment digits : List Char} {path : List (List Char)} {v w : Json} :
    segment = digits ∨ segment = '+' :: digits → digits ≠ [] → digits.all Char.isDigit = true →
    items[Decimal.digitsValue digits]? = some v → Leads v path w →
    Leads (.arr items) (segment :: path) w

/-- The variable `p` is bound, and what follows the dot behind it leads from there to `v`. -/
structure Reading (m : Scope) (name : String) (p q : List Char) (v : Json) : Prop where
  cut : name.toList = p ++ '.' :: q
  walked : ∃ root, m.get? (String.ofList p) = some root ∧ Leads root (q.splitOn '.') v

theorem segments_eq_splitOn (path : List Char) : segments path = path.splitOn '.' := by
  induction path with
  | nil => rfl
  | cons c path ih =>
    rw [segments, ih, List.splitOn_cons_eq_if_modifyHead]
    cases hs : path.splitOn '.' with
    | nil => exact absurd hs (List.splitOn_ne_nil _ _)
    | cons s ss => simp

theorem unsigned_cases (segment : List Char) :
    segment = unsigned segment ∨ segment = '+' :: unsigned segment := by
  unfold unsigned
  split
  · exact .inr rfl
  · exact .inl rfl

theorem unsigned_of_digits {digits : List Char} (h : digits.all Char.isDigit = true) :
    unsigned digits = digits := by
  unfold unsigned
  split
  · rw [List.all_cons] at h
    cases h
  · rfl

theorem position?_eq_some_iff {segment : List Char} {i : Nat} : position? segment = some i ↔
    ∃ digits, (segment = digits ∨ segment = '+' :: digits) ∧ digits ≠ [] ∧
      digits.all Char.isDigit = true ∧ i = Decimal.digitsValue digits := by
  have hposition : position? segment = if unsigned segment ≠ [] ∧
      (unsigned segment).all Char.isDigit = true then
        some (Decimal.digitsValue (unsigned segment)) else none := rfl
  rw [hposition, Option.ite_none_right_eq_some, Option.some.injEq]
  constructor
  · rintro ⟨⟨hne, hall⟩, rfl⟩
    exact ⟨_, unsigned_cases segment, hne, hall, rfl⟩
  · rintro ⟨digits, rfl | rfl, hne, hall, rfl⟩
    · rw [unsigned_of_digits hall]
      exact ⟨⟨hne, hall⟩, rfl⟩
    · exact ⟨⟨hne, hall⟩, rfl⟩

theorem foldlM_step_eq_some_iff {root v : Json} {path : List (List Char)} :
    path.foldlM step root = some v ↔ Leads root path v := by
  induction path generalizing root with
  | nil =>
    constructor
    · rintro ⟨⟩
      exact .here v
    · rintro ⟨⟩
      rfl
  | cons segment path ih =>
    rw [List.foldlM_cons, Option.bind_eq_bind, Option.bind_eq_some_iff]
    constructor
    · rintro ⟨w, hw, hpath⟩
      have hleads := ih.1 hpath
      cases root with
      | obj fields => exact .field hw hleads
      | arr items =>
        obtain ⟨i, hi, hitem⟩ := Option.bind_eq_some_iff.1 hw
        obtain ⟨digits, hsegment, hne, hall, rfl⟩ := position?_eq_some_iff.1 hi
        exact .item hsegment hne hall hitem hleads
      | null | bool | num | str => cases hw
    · intro h
      cases h with
      | field hfield hleads => exact ⟨_, hfield, ih.2 hleads⟩
      | item hsegment hne hall hitem hleads =>
        refine ⟨_, Option.bind_eq_some_iff.2 ⟨_, ?_, hitem⟩, ih.2 hleads⟩
        exact position?_eq_some_iff.2 ⟨_, hsegment, hne, hall, rfl⟩

theorem walk_eq_some_iff {root v : Json} {path : List Char} :
    walk root path = some v ↔ Leads root (path.splitOn '.') v := by
  rw [walk, segments_eq_splitOn, foldlM_step_eq_some_iff]

theorem mem_cuts {name p q : List Char} : (p, q) ∈ cuts name ↔ name = p ++ '.' :: q := by
  induction name generalizing p with
  | nil => simp [cuts]
  | cons c name ih =>
    have hmore : (p, q) ∈ (cuts name).map (fun e => (c :: e.1, e.2)) ↔
        ∃ p', p = c :: p' ∧ name = p' ++ '.' :: q := by
      simp only [List.mem_map, Prod.exists, Prod.mk.injEq]
      constructor
      · rintro ⟨p', q', hcut, rfl, rfl⟩
        exact ⟨p', rfl, ih.1 hcut⟩
      · rintro ⟨p', rfl, hcut⟩
        exact ⟨p', q, ih.2 hcut, rfl, rfl⟩
    have hcuts : (p, q) ∈ cuts (c :: name) ↔ (c = '.' ∧ p = [] ∧ q = name) ∨
        (p, q) ∈ (cuts name).map (fun e => (c :: e.1, e.2)) := by
      rw [cuts]
      by_cases hc : c = '.' <;> simp [hc]
    rw [hcuts, hmore]
    cases p with
    | nil => simp [eq_comm]
    | cons c' p => simp [and_assoc, eq_comm]

theorem cuts_ascending (name : List Char) :
    (cuts name).Pairwise fun a b => a.1.length < b.1.length := by
  induction name with
  | nil => exact List.Pairwise.nil
  | cons c name ih =>
    have hmore : ((cuts name).map fun e => (c :: e.1, e.2)).Pairwise
        fun a b => a.1.length < b.1.length := by
      rw [List.pairwise_map]
      exact ih.imp fun h => Nat.succ_lt_succ h
    rw [cuts]
    split
    · refine List.pairwise_cons.2 ⟨fun e he => ?_, hmore⟩
      obtain ⟨e', -, rfl⟩ := List.mem_map.1 he
      exact Nat.succ_pos _
    · exact hmore

theorem findSome?_reverse {α β : Type} {f : α → Option β} {size : α → Nat} {es : List α}
    (hes : es.Pairwise fun a b => size a < size b) {v : β} :
    es.reverse.findSome? f = some v ↔
      ∃ e ∈ es, f e = some v ∧ ∀ e' ∈ es, (f e').isSome = true → size e' ≤ size e := by
  rw [List.findSome?_eq_some_iff]
  constructor
  · rintro ⟨after, e, before, hcut, hv, hnone⟩
    have hes' : es = before.reverse ++ e :: after.reverse := by
      rw [← List.reverse_reverse es, hcut]
      simp
    subst hes'
    refine ⟨e, by simp, hv, fun e' he' hsome => ?_⟩
    obtain ⟨-, -, hlt⟩ := List.pairwise_append.1 hes
    rcases List.mem_append.1 he' with he' | he'
    · exact Nat.le_of_lt (hlt e' he' e List.mem_cons_self)
    · rcases List.mem_cons.1 he' with rfl | he'
      · exact Nat.le_refl _
      · rw [hnone e' (List.mem_reverse.1 he')] at hsome
        cases hsome
  · rintro ⟨e, he, hv, hlongest⟩
    obtain ⟨before, after, rfl⟩ := List.append_of_mem he
    refine ⟨after.reverse, e, before.reverse, by simp, hv, fun e' he' => ?_⟩
    have hafter : e' ∈ after := List.mem_reverse.1 he'
    obtain ⟨-, hrest, -⟩ := List.pairwise_append.1 hes
    have hlt := (List.pairwise_cons.1 hrest).1 e' hafter
    cases hf : f e' with
    | none => rfl
    | some w =>
      have hle := hlongest e' (by simp [hafter]) (by rw [hf]; rfl)
      omega

variable {m : Scope} {name : String}

theorem reading_iff {p q : List Char} {v : Json} : Reading m name p q v ↔
    (p, q) ∈ cuts name.toList ∧ (m.get? (String.ofList p)).bind (walk · q) = some v := by
  rw [mem_cuts, Option.bind_eq_some_iff]
  simp only [walk_eq_some_iff]
  exact ⟨fun h => ⟨h.cut, h.walked⟩, fun h => ⟨h.1, h.2⟩⟩

theorem resolve_of_bound {v : Json} (h : m.get? name = some v) : resolve m.get? name = some v := by
  rw [resolve, h, Option.some_or]

theorem resolve_of_unbound (h : m.get? name = none) (v : Json) : resolve m.get? name = some v ↔
    ∃ p q, Reading m name p q v ∧
      ∀ p' q' v', Reading m name p' q' v' → p'.length ≤ p.length := by
  rw [resolve, h, Option.none_or, findSome?_reverse (cuts_ascending name.toList)]
  constructor
  · rintro ⟨⟨p, q⟩, hcut, hv, hlongest⟩
    refine ⟨p, q, reading_iff.2 ⟨hcut, hv⟩, fun p' q' v' h' => ?_⟩
    obtain ⟨hcut', hv'⟩ := reading_iff.1 h'
    exact hlongest (p', q') hcut' (Option.isSome_iff_exists.2 ⟨v', hv'⟩)
  · rintro ⟨p, q, hreading, hlongest⟩
    obtain ⟨hcut, hv⟩ := reading_iff.1 hreading
    refine ⟨(p, q), hcut, hv, fun e he hsome => ?_⟩
    obtain ⟨v', hv'⟩ := Option.isSome_iff_exists.1 hsome
    exact hlongest e.1 e.2 v' (reading_iff.2 ⟨he, hv'⟩)

theorem resolve_eq_none_iff : resolve m.get? name = none ↔
    m.get? name = none ∧ ∀ p q v, ¬Reading m name p q v := by
  rw [resolve, Option.or_eq_none_iff, List.findSome?_eq_none_iff]
  simp only [List.mem_reverse, Prod.forall]
  constructor
  · rintro ⟨hname, hnone⟩
    refine ⟨hname, fun p q v h => ?_⟩
    obtain ⟨hcut, hv⟩ := reading_iff.1 h
    rw [hnone p q hcut] at hv
    cases hv
  · rintro ⟨hname, hnone⟩
    refine ⟨hname, fun p q hcut => Option.eq_none_iff_forall_ne_some.2 fun v hv => ?_⟩
    exact hnone p q v (reading_iff.2 ⟨hcut, hv⟩)

theorem lookup_eq_overlaid (scope : Scope) (extra : List (String × Json)) :
    lookup scope extra = (scope.overlaid extra).get? := by
  funext name
  rw [lookup, Scope.get?_overlaid]

theorem lookup_hidden {extra : List (String × Json)} {name : String} {v : Json}
    (h : Entries.get? name extra = some v) (scope : Scope) (w : Json) :
    lookup (scope.bind name w) extra = lookup scope extra := by
  funext other
  rw [lookup, lookup, Scope.get?_bind]
  split
  · next heq =>
    rw [← heq, h]
    rfl
  · rfl

theorem resolve_longest (scope : Scope) (extra : List (String × Json)) (name : String) :
    let m := scope.overlaid extra
    resolve (lookup scope extra) name = resolve m.get? name ∧
    (∀ v, m.get? name = some v → resolve (lookup scope extra) name = some v) ∧
    (m.get? name = none → ∀ v, resolve (lookup scope extra) name = some v ↔
      ∃ p q, Reading m name p q v ∧
        ∀ p' q' v', Reading m name p' q' v' → p'.length ≤ p.length) ∧
    (resolve (lookup scope extra) name = none ↔
      m.get? name = none ∧ ∀ p q v, ¬Reading m name p q v) ∧
    (∀ hidden v, Entries.get? hidden extra = some v → m.get? hidden = some v ∧
      ∀ w, resolve (lookup (scope.bind hidden w) extra) name = resolve (lookup scope extra) name) ∧
    ∀ t, render t scope extra = render t m [] := by
  intro m
  have hlook : lookup scope extra = m.get? := lookup_eq_overlaid scope extra
  refine ⟨by rw [hlook], ?_, ?_, ?_, fun hidden v hv => ⟨?_, fun w => ?_⟩, fun t => ?_⟩
  · rw [hlook]
    exact fun v => resolve_of_bound
  · rw [hlook]
    exact resolve_of_unbound
  · rw [hlook]
    exact resolve_eq_none_iff
  · rw [Scope.get?_overlaid, hv, Option.some_or]
  · rw [lookup_hidden hv]
  · have hnone : lookup m [] = m.get? := lookup_eq_overlaid m []
    rw [render, render, hlook, hnone]

namespace Sample

def nested : Scope := Scope.initial.bind "a" (.object [("b", .object [("c", .nat 1)])])

def emptied : List (String × Json) := [("a.b", .arr [])]

end Sample

open Template.Sample (nested emptied) in
theorem resolve_longest_shorter :
    let m := nested.overlaid emptied
    m.get? "a.b.c" = none ∧ m.get? "a.b" = some (.arr []) ∧
    (∃ p q, Reading m "a.b.c" p q (.nat 1) ∧
      ∀ p' q' v', Reading m "a.b.c" p' q' v' → p'.length ≤ p.length) ∧
    Entries.get? "a.b" emptied = some (.arr []) ∧
    resolve (lookup (nested.bind "a.b" (.object [("c", .null)])) emptied) "a.b.c" =
      some (.nat 1) := by
  intro m
  have hresolve : resolve (lookup nested emptied) "a.b.c" = some (.nat 1) := by decide
  have hunbound : m.get? "a.b.c" = none := by decide
  have hhidden : Entries.get? "a.b" emptied = some (.arr []) := by decide
  obtain ⟨-, -, hreading, -, hsame, -⟩ := resolve_longest nested emptied "a.b.c"
  obtain ⟨hbound, hrebound⟩ := hsame "a.b" _ hhidden
  exact ⟨hunbound, hbound, (hreading hunbound _).1 hresolve, hhidden,
    (hrebound (.object [("c", .null)])).trans hresolve⟩

end Template

end FlowGraph
