
namespace FlowGraph.Text

structure Partial where
  missing : Nat
  low : Nat
  high : Nat
  bits : Nat

def lead (b : Nat) : Option Partial :=
  if 0xC2 ≤ b ∧ b ≤ 0xDF then some ⟨1, 0x80, 0xBF, b - 0xC0⟩
  else if b = 0xE0 then some ⟨2, 0xA0, 0xBF, 0⟩
  else if b = 0xED then some ⟨2, 0x80, 0x9F, 0xD⟩
  else if 0xE1 ≤ b ∧ b ≤ 0xEF then some ⟨2, 0x80, 0xBF, b - 0xE0⟩
  else if b = 0xF0 then some ⟨3, 0x90, 0xBF, 0⟩
  else if 0xF1 ≤ b ∧ b ≤ 0xF3 then some ⟨3, 0x80, 0xBF, b - 0xF0⟩
  else if b = 0xF4 then some ⟨3, 0x80, 0x8F, 4⟩
  else none

def characters : Option Partial → List Nat → List (Option Char)
  | none, [] => []
  | some _, [] => [none]
  | none, b :: r => fresh b (characters · r)
  | some p, b :: r =>
    if p.low ≤ b ∧ b ≤ p.high then
      let bits := 64 * p.bits + (b - 0x80)
      if p.missing ≤ 1 then some (Char.ofNat bits) :: characters none r
      else characters (some ⟨p.missing - 1, 0x80, 0xBF, bits⟩) r
    else none :: fresh b (characters · r)
where
  fresh (b : Nat) (rest : Option Partial → List (Option Char)) : List (Option Char) :=
    if b < 0x80 then some (Char.ofNat b) :: rest none
    else match lead b with
      | some p => rest (some p)
      | none => none :: rest none

def ofBytes? (bs : List Nat) : Option String :=
  ((characters none bs).mapM id).map String.ofList

def replacement : Char := '\uFFFD'

def ofBytes (bs : List Nat) : String :=
  String.ofList ((characters none bs).map (·.getD replacement))

def bytesOf (c : Char) : List Nat := (String.utf8EncodeChar c).map UInt8.toNat

end FlowGraph.Text
