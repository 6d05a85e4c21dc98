import FlowGraph.Text.Bytes
import Mathlib.Data.List.Lex
import Mathlib.Data.String.Basic
import Mathlib.Order.Monotone.Basic

namespace FlowGraph.Text

def bytes (s : String) : List Nat := s.toByteArray.data.toList.map UInt8.toNat

theorem bytes_eq (s : String) : bytes s = s.toList.flatMap bytesOf := by
  rw [bytes, ← String.utf8Encode_toList, List.utf8Encode, List.toList_data_toByteArray,
    List.map_flatMap]
  rfl

theorem bytesOf_ne_nil (c : Char) : bytesOf c ≠ [] := by
  rw [bytesOf, ne_eq, List.map_eq_nil_iff]
  exact String.utf8EncodeChar_ne_nil

theorem bytesOf_eq (c : Char) : bytesOf c =
    if c.toNat ≤ 0x7F then [c.toNat]
    else if c.toNat ≤ 0x7FF then [0xC0 + c.toNat / 64, 0x80 + c.toNat % 64]
    else if c.toNat ≤ 0xFFFF then
      [0xE0 + c.toNat / 4096, 0x80 + c.toNat / 64 % 64, 0x80 + c.toNat % 64]
    else
      [0xF0 + c.toNat / 262144, 0x80 + c.toNat / 4096 % 64, 0x80 + c.toNat / 64 % 64,
        0x80 + c.toNat % 64] := by
  have hc : c.toNat < 0xD800 ∨ 0xDFFF < c.toNat ∧ c.toNat < 0x110000 := c.valid
  have hval : c.val.toNat = c.toNat := rfl
  rw [bytesOf, String.utf8EncodeChar, hval]
  -- the width of a byte cuts nothing off
  repeat' split
  all_goals
    simp only [List.map_cons, List.map_nil, UInt8.toNat_ofNat', List.cons.injEq, and_true]
    omega

theorem bytesOf_append_lt {c d : Char} (h : c < d) (x y : List Nat) :
    bytesOf c ++ x < bytesOf d ++ y := by
  have hcd : c.toNat < d.toNat := h
  rw [bytesOf_eq, bytesOf_eq]
  -- one case for each pair of lengths
  repeat' split
  all_goals
    simp only [List.cons_append, List.nil_append, List.cons_lt_cons_iff]
    omega

theorem flatMap_bytesOf_lt {as bs : List Char} (h : as < bs) :
    as.flatMap bytesOf < bs.flatMap bytesOf := by
  induction as generalizing bs with
  | nil =>
    cases bs with
    | nil => cases h
    | cons b bs =>
      obtain ⟨n, ns, hb⟩ := List.exists_cons_of_ne_nil (bytesOf_ne_nil b)
      rw [List.flatMap_nil, List.flatMap_cons, hb, List.cons_append]
      exact List.nil_lt_cons _ _
  | cons a as ih =>
    cases bs with
    | nil => cases h
    | cons b bs =>
      rw [List.flatMap_cons, List.flatMap_cons]
      rcases List.cons_lt_cons_iff.1 h with hlt | ⟨rfl, hlt⟩
      · exact bytesOf_append_lt hlt _ _
      · exact List.append_left_lt (ih hlt)

theorem bytes_strictMono : StrictMono bytes := by
  intro s t h
  rw [bytes_eq, bytes_eq]
  exact flatMap_bytesOf_lt (String.lt_iff_toList_lt.1 h)

section

variable {s t : String}

@[simp] theorem bytes_lt_bytes : bytes s < bytes t ↔ s < t := bytes_strictMono.lt_iff_lt

@[simp] theorem bytes_le_bytes : bytes s ≤ bytes t ↔ s ≤ t := bytes_strictMono.le_iff_le

@[simp] theorem bytes_inj : bytes s = bytes t ↔ s = t := bytes_strictMono.injective.eq_iff

end

end FlowGraph.Text
