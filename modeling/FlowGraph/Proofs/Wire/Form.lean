import FlowGraph.Proofs.Except
import FlowGraph.Proofs.Json.Fits
import FlowGraph.Wire.Form

namespace FlowGraph.Wire

open Json (Fits)

namespace Shape

theorem fits_of_whole {room : Nat} {cs r : List Char} {v : Json} (h : whole room cs = .ok (v, r)) :
    v.Fits room := by
  rw [whole] at h
  cases hread : Json.Reading.value room (fuel cs) cs with
  | none =>
    rw [hread] at h
    cases h
  | some p =>
    rw [hread] at h
    cases h
    exact (Json.reads_fit _).1 _ _ _ _ hread

theorem refused_ne_ok {room : Nat} {cs : List Char} {p : Json × List Char} :
    refused room cs ≠ .ok p := by
  intro h
  unfold refused at h
  split at h
  · cases h
  · cases h
  · obtain ⟨_, -, h⟩ := bind_eq_ok.1 h
    cases h

section

variable {α : Type} {P : α → Prop} {close : Char}
  {last more : List Char → Except Refusal (α × List Char)} {cs r : List Char} {a : α}

theorem of_opened (hlast : ∀ r r' a, last r = .ok (a, r') → P a)
    (hmore : ∀ r r' a, more r = .ok (a, r') → P a) (h : opened close last more cs = .ok (a, r)) :
    P a := by
  unfold opened at h
  split at h
  · split at h
    · exact hlast _ _ _ h
    · exact hmore _ _ _ h
  · exact hmore _ _ _ h

theorem of_continued (hlast : ∀ r r' a, last r = .ok (a, r') → P a)
    (hmore : ∀ r r' a, more r = .ok (a, r') → P a) (h : continued close last more cs = .ok (a, r)) :
    P a := by
  unfold continued at h
  split at h
  · exact hmore _ _ _ h
  · split at h
    · exact hlast _ _ _ h
    · cases h
  · cases h

end

def MembersFit (room : Nat) (xs : List Json) : Prop := ∀ x ∈ xs, x.Fits room

def EntriesFit (room : Nat) (xs : List (String × Json)) : Prop := MembersFit room (xs.map (·.2))

theorem of_nothing {α : Type} {P : List α → Prop} (h : P []) (r r' : List Char) (xs : List α)
    (hread : nothing r = .ok (xs, r')) : P xs := by
  cases hread
  exact h

theorem of_complete {P : List Json → Prop} (h : P []) {fields : List (Field × Shape)}
    (r r' : List Char) (xs : List Json) (hread : complete fields r = .ok (xs, r')) : P xs := by
  rw [complete] at hread
  split at hread
  · cases hread
    exact h
  · cases hread

theorem fits_of_entry {room : Nat} {k : String} {known : Option Shape}
    {readAs : Shape → List Char → Except Refusal (Json × List Char)}
    (hread : ∀ shape cs v r, readAs shape cs = .ok (v, r) → v.Fits room) {cs r : List Char}
    {xs : List (String × Json)} (h : entry k known readAs cs = .ok (xs, r)) :
    EntriesFit room xs := by
  unfold entry at h
  split at h
  · obtain ⟨⟨x, r'⟩, hx, h⟩ := bind_eq_ok.1 h
    cases h
    simpa [EntriesFit, MembersFit] using hread _ _ _ _ hx
  · obtain ⟨r', -, h⟩ := bind_eq_ok.1 h
    cases h
    exact List.forall_mem_nil _
  · cases h

mutual

theorem fits_of_read : ∀ (fuel room : Nat) (shape : Shape) (cs : List Char) (v : Json)
    (r : List Char), read fuel room shape cs = .ok (v, r) → v.Fits room
  | 0, _, _, _, _, _, h => by
    unfold read at h
    cases h
  | fuel + 1, room, shape, cs, v, r, h => by
    unfold read at h
    split at h
    · exact fits_of_whole h
    · exact fits_of_whole h
    · exact fits_of_whole h
    · cases room with
      | zero => cases h
      | succ room =>
        obtain ⟨⟨xs, r'⟩, hread, h⟩ := bind_eq_ok.1 h
        cases h
        exact Json.fits_arr (of_opened (of_nothing nofun) (fits_of_readItems fuel room _) hread)
    · cases room with
      | zero => cases h
      | succ room =>
        obtain ⟨⟨xs, r'⟩, hread, h⟩ := bind_eq_ok.1 h
        dsimp only at h
        split at h
        · cases h
          exact Json.fits_arr (of_opened (of_complete nofun) (fits_of_readPlaced fuel room _) hread)
        · cases h
    · cases room with
      | zero => cases h
      | succ room =>
        obtain ⟨⟨xs, r'⟩, hread, h⟩ := bind_eq_ok.1 h
        dsimp only at h
        split at h
        · cases h
          refine .of_members nofun ?_
          exact of_opened (of_nothing nofun) (fits_of_readFields fuel room _ _) hread
        · cases h
    · exact absurd h refused_ne_ok

theorem fits_of_readItems : ∀ (fuel room : Nat) (item : Shape) (cs r : List Char)
    (xs : List Json), readItems fuel room item cs = .ok (xs, r) → MembersFit room xs
  | 0, _, _, _, _, _, h => by
    unfold readItems at h
    cases h
  | fuel + 1, room, item, cs, r, xs, h => by
    unfold readItems at h
    obtain ⟨⟨x, r₁⟩, hx, h⟩ := bind_eq_ok.1 h
    obtain ⟨⟨ys, r₂⟩, hys, h⟩ := bind_eq_ok.1 h
    cases h
    have hrest := of_continued (of_nothing nofun) (fits_of_readItems fuel room item) hys
    exact List.forall_mem_cons.2 ⟨fits_of_read fuel room item cs x r₁ hx, hrest⟩

theorem fits_of_readPlaced : ∀ (fuel room : Nat) (fields : List (Field × Shape))
    (cs r : List Char) (xs : List Json), readPlaced fuel room fields cs = .ok (xs, r) →
      MembersFit room xs
  | 0, _, _, _, _, _, h => by
    unfold readPlaced at h
    cases h
  | _ + 1, _, [], _, _, _, h => by
    unfold readPlaced at h
    cases h
  | fuel + 1, room, (_, shape) :: fields, cs, r, xs, h => by
    unfold readPlaced at h
    obtain ⟨⟨x, r₁⟩, hx, h⟩ := bind_eq_ok.1 h
    obtain ⟨⟨ys, r₂⟩, hys, h⟩ := bind_eq_ok.1 h
    cases h
    have hrest := of_continued (of_complete nofun) (fits_of_readPlaced fuel room fields) hys
    exact List.forall_mem_cons.2 ⟨fits_of_read fuel room shape cs x r₁ hx, hrest⟩

theorem fits_of_readFields : ∀ (fuel room : Nat) (fields : List (Field × Shape))
    (seen : List String) (cs r : List Char) (xs : List (String × Json)),
      readFields fuel room fields seen cs = .ok (xs, r) → EntriesFit room xs
  | 0, _, _, _, _, _, _, h => by
    unfold readFields at h
    cases h
  | fuel + 1, room, fields, seen, cs, r, xs, h => by
    unfold readFields at h
    split at h
    · obtain ⟨⟨k, r₁⟩, -, h⟩ := bind_eq_ok.1 h
      dsimp only at h
      split at h
      · cases h
      · obtain ⟨⟨x, r₂⟩, hx, h⟩ := bind_eq_ok.1 h
        obtain ⟨⟨ys, r₃⟩, hys, h⟩ := bind_eq_ok.1 h
        cases h
        have hfirst := fits_of_entry (fits_of_read fuel room) hx
        have hrest := of_continued (of_nothing nofun) (fits_of_readFields fuel room fields _) hys
        rw [EntriesFit, List.map_append]
        exact List.forall_mem_append.2 ⟨hfirst, hrest⟩
    · cases h

end

end Shape

theorem Form.decode_of_read {α : Type} {F : Form α} {s : String} {a : α} (h : F.read s = .ok a) :
    ∃ v, F.decode v = .ok a ∧ v.Fits Json.maxNesting := by
  obtain ⟨⟨v, r⟩, hread, h⟩ := bind_eq_ok.1 h
  dsimp only at h
  split at h
  · cases h
  · next hv _ =>
    cases h
    exact ⟨v, hv, Shape.fits_of_read _ _ _ _ _ _ hread⟩
  · cases h

end FlowGraph.Wire
