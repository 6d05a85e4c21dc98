import FlowGraph.Proofs.Json.Members
import FlowGraph.Proofs.Json.Tokens

namespace FlowGraph.Json

structure Fits (room : Nat) (v : Json) : Prop where
  nesting : v.nesting ≤ room
  numbers : ∀ n ∈ v.numbers, n.Exact

theorem Fits.member {room : Nat} {v x : Json} (h : v.Fits (room + 1)) (hx : x ∈ v.members) :
    x.Fits room :=
  ⟨nesting_le_succ.1 h.nesting x hx, fun n hn => h.numbers n (numbers_subset_of_mem hx hn)⟩

theorem Fits.of_members {room : Nat} {v : Json} (hv : ∀ n, v ≠ num n)
    (h : ∀ x ∈ v.members, x.Fits room) : v.Fits (room + 1) := by
  refine ⟨nesting_le_succ.2 fun x hx => (h x hx).nesting, fun n hn => ?_⟩
  rcases mem_numbers.1 hn with hnum | ⟨x, hx, hnx⟩
  · exact absurd hnum (hv n)
  · exact (h x hx).numbers n hnx

theorem Fits.settled {room : Nat} {v : Json} (h : v.Fits room) : v.settled.Fits room :=
  ⟨Nat.le_trans (nesting_settled_le v) h.nesting, fun n hn => h.numbers n (numbers_settled_subset v hn)⟩

theorem fits_null (room : Nat) : null.Fits room := ⟨Nat.zero_le room, nofun⟩

theorem fits_bool (room : Nat) (b : Bool) : (bool b).Fits room := ⟨Nat.zero_le room, nofun⟩

theorem fits_str (room : Nat) (s : String) : (str s).Fits room := ⟨Nat.zero_le room, nofun⟩

theorem fits_num {room : Nat} {n : Number} (h : n.Exact) : (num n).Fits room := by
  refine ⟨Nat.zero_le room, fun m hm => ?_⟩
  obtain rfl := List.mem_singleton.1 hm
  exact h

theorem fits_arr {room : Nat} {items : List Json} (h : ∀ x ∈ items, x.Fits room) :
    (arr items).Fits (room + 1) :=
  .of_members nofun h

theorem fits_object {room : Nat} {fields : List (String × Json)}
    (h : ∀ x ∈ fields.map (·.2), x.Fits room) : (object fields).Fits (room + 1) :=
  .of_members nofun fun x hx => h x (mem_members_object hx)

def ItemsFit (fuel : Nat) : Prop :=
  ∀ room cs items r, Reading.items room fuel cs = some (items, r) → ∀ x ∈ items, x.Fits room

def FieldsFit (fuel : Nat) : Prop :=
  ∀ room cs fields r, Reading.fields room fuel cs = some (fields, r) →
    ∀ x ∈ fields.map (·.2), x.Fits room

def ValueFits (fuel : Nat) : Prop :=
  ∀ room cs v r, Reading.value room fuel cs = some (v, r) → v.Fits room

theorem valueFits_succ {fuel : Nat} (hi : ItemsFit fuel) (hf : FieldsFit fuel) :
    ValueFits (fuel + 1) := by
  intro room cs v r h
  rw [Reading.value] at h
  split at h
  · cases h
    exact fits_null room
  · cases h
    exact fits_bool room true
  · cases h
    exact fits_bool room false
  · obtain ⟨⟨s, r'⟩, -, h⟩ := Option.map_eq_some_iff.1 h
    cases h
    exact fits_str room s
  · split at h
    · cases h
    · split at h
      · cases h
        exact .of_members nofun nofun
      · obtain ⟨⟨items, r'⟩, hread, h⟩ := Option.map_eq_some_iff.1 h
        cases h
        exact .of_members nofun (hi _ _ _ _ hread)
  · split at h
    · cases h
    · split at h
      · cases h
        exact .of_members nofun nofun
      · obtain ⟨⟨fields, r'⟩, hread, h⟩ := Option.map_eq_some_iff.1 h
        cases h
        exact .of_members nofun (hf _ _ _ _ hread)
  · obtain ⟨⟨n, r'⟩, hread, h⟩ := Option.map_eq_some_iff.1 h
    cases h
    exact fits_num (Reading.number_exact hread)

theorem itemsFit_succ {fuel : Nat} (hv : ValueFits fuel) (hi : ItemsFit fuel) :
    ItemsFit (fuel + 1) := by
  intro room cs items r h
  rw [Reading.items] at h
  split at h
  · cases h
  · next x r' hx =>
    have hfirst := hv _ _ _ _ hx
    split at h
    · obtain ⟨⟨xs, r''⟩, hread, h⟩ := Option.map_eq_some_iff.1 h
      cases h
      exact List.forall_mem_cons.2 ⟨hfirst, hi _ _ _ _ hread⟩
    · cases h
      simpa using hfirst
    · cases h

theorem fieldsFit_succ {fuel : Nat} (hv : ValueFits fuel) (hf : FieldsFit fuel) :
    FieldsFit (fuel + 1) := by
  intro room cs fields r h
  rw [Reading.fields] at h
  split at h
  · split at h
    · cases h
    · split at h
      · split at h
        · cases h
        · next x r' hx =>
          have hfirst := hv _ _ _ _ hx
          split at h
          · obtain ⟨⟨xs, r''⟩, hread, h⟩ := Option.map_eq_some_iff.1 h
            cases h
            exact List.forall_mem_cons.2 ⟨hfirst, hf _ _ _ _ hread⟩
          · cases h
            simpa using hfirst
          · cases h
      · cases h
  · cases h

theorem reads_fit (fuel : Nat) : ValueFits fuel ∧ ItemsFit fuel ∧ FieldsFit fuel := by
  induction fuel with
  | zero => exact ⟨nofun, nofun, nofun⟩
  | succ fuel ih =>
    obtain ⟨hv, hi, hf⟩ := ih
    exact ⟨valueFits_succ hi hf, itemsFit_succ hv hi, fieldsFit_succ hv hf⟩

theorem fits_of_leading? {s : String} {v : Json} {r : List Char} (h : leading? s = some (v, r)) :
    v.Fits maxNesting := by
  obtain ⟨⟨v', r'⟩, hread, h⟩ := Option.map_eq_some_iff.1 h
  cases h
  exact (reads_fit _).1 _ _ _ _ hread

end FlowGraph.Json
