import FlowGraph.Proofs.Json.Fits
import FlowGraph.Proofs.Json.Written

namespace FlowGraph.Json

open Reading (skip)

def ItemsGrow (fuel : Nat) : Prop :=
  ∀ room more cs x, Reading.items room fuel cs = some x →
    Reading.items (room + more) fuel cs = some x

def FieldsGrow (fuel : Nat) : Prop :=
  ∀ room more cs x, Reading.fields room fuel cs = some x →
    Reading.fields (room + more) fuel cs = some x

def ValueGrows (fuel : Nat) : Prop :=
  ∀ room more cs x, Reading.value room fuel cs = some x →
    Reading.value (room + more) fuel cs = some x

theorem itemsGrow_succ {fuel : Nat} (hv : ValueGrows fuel) (hi : ItemsGrow fuel) :
    ItemsGrow (fuel + 1) := by
  intro room more cs x h
  rw [Reading.items] at h ⊢
  split at h
  · cases h
  · next v r hx =>
    rw [hv _ more _ _ hx]
    dsimp only
    split at h
    · next r' hr =>
      obtain ⟨p, hread, rfl⟩ := Option.map_eq_some_iff.1 h
      simp only [hi _ more _ _ hread, Option.map_some]
    · next r' hr => simpa only [hr] using h
    · cases h

theorem fieldsGrow_succ {fuel : Nat} (hv : ValueGrows fuel) (hf : FieldsGrow fuel) :
    FieldsGrow (fuel + 1) := by
  intro room more cs x h
  rw [Reading.fields] at h ⊢
  split at h
  · dsimp only at h ⊢
    split at h
    · cases h
    · split at h
      · split at h
        · cases h
        · next v s hx =>
          simp only [hv _ more _ _ hx]
          split at h
          · obtain ⟨p, hread, rfl⟩ := Option.map_eq_some_iff.1 h
            simp only [hf _ more _ _ hread, Option.map_some]
          · exact h
          · cases h
      · cases h
  · cases h

theorem valueGrows_succ {fuel : Nat} (hi : ItemsGrow fuel) (hf : FieldsGrow fuel) :
    ValueGrows (fuel + 1) := by
  intro room more cs x h
  rw [Reading.value] at h ⊢
  split at h
  · exact h
  · exact h
  · exact h
  · exact h
  · cases room with
    | zero => cases h
    | succ room =>
      rw [Nat.succ_add]
      dsimp only at h ⊢
      split at h
      · exact h
      · obtain ⟨p, hread, rfl⟩ := Option.map_eq_some_iff.1 h
        simp only [hi _ more _ _ hread, Option.map_some]
  · cases room with
    | zero => cases h
    | succ room =>
      rw [Nat.succ_add]
      dsimp only at h ⊢
      split at h
      · exact h
      · obtain ⟨p, hread, rfl⟩ := Option.map_eq_some_iff.1 h
        simp only [hf _ more _ _ hread, Option.map_some]
  · exact h

theorem reads_grow (fuel : Nat) : ValueGrows fuel ∧ ItemsGrow fuel ∧ FieldsGrow fuel := by
  induction fuel with
  | zero => exact ⟨nofun, nofun, nofun⟩
  | succ fuel ih =>
    obtain ⟨hv, hi, hf⟩ := ih
    exact ⟨valueGrows_succ hi hf, itemsGrow_succ hv hi, fieldsGrow_succ hv hf⟩

theorem asWritten?_compact_eq_some_iff {v w : Json} (h : v.ReadsBack) :
    asWritten? v.compact = some w ↔ w = v ∧ v.nesting ≤ maxNesting := by
  constructor
  · intro hw
    have hlead : ∃ r, leading? v.compact = some (w, r) := by
      rw [asWritten?] at hw
      split at hw
      · next u hu =>
        cases hw
        exact ⟨_, hu⟩
      · cases hw
    obtain ⟨r, hr⟩ := hlead
    have hfits := (fits_of_leading? hr).nesting
    obtain ⟨⟨w', r'⟩, hread, heq⟩ := Option.map_eq_some_iff.1 hr
    cases heq
    rw [compact, String.toList_ofList] at hread
    -- with room for all of the value, what was read is the value
    have hgrown := (reads_grow _).1 _ v.nesting _ _ hread
    rw [value_emit h (Nat.le_add_left _ _)] at hgrown
    cases hgrown
    exact ⟨rfl, hfits⟩
  · rintro ⟨rfl, hdeep⟩
    exact asWritten?_compact h hdeep

theorem parse_compact_eq_some_iff {v w : Json} (h : v.ReadsBack) (hv : v.Settled) :
    parse v.compact = some w ↔ w = v ∧ v.nesting ≤ maxNesting := by
  rw [parse, Option.map_eq_some_iff]
  constructor
  · rintro ⟨u, hu, rfl⟩
    obtain ⟨rfl, hdeep⟩ := (asWritten?_compact_eq_some_iff h).1 hu
    exact ⟨hv, hdeep⟩
  · rintro ⟨rfl, hdeep⟩
    exact ⟨w, asWritten?_compact h hdeep, hv⟩

end FlowGraph.Json
