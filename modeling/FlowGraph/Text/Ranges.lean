
namespace FlowGraph.Text

structure Range where
  lo : Nat
  hi : Nat
deriving DecidableEq, Inhabited

structure CharSet where
  ranges : Array Range
deriving DecidableEq, Inhabited

namespace CharSet

def lastCode : Nat := 0x10FFFF

def join : List Range → List Range
  | [] => []
  | [r] => [r]
  | r :: s :: rest =>
    if s.lo ≤ r.hi + 1 then join (⟨r.lo, max r.hi s.hi⟩ :: rest) else r :: join (s :: rest)
termination_by rs => rs.length

def ofList (rs : List Range) : CharSet :=
  ⟨(join ((rs.filter fun r => r.lo ≤ r.hi).mergeSort fun r s => r.lo ≤ s.lo)).toArray⟩

def empty : CharSet := ⟨#[]⟩

def single (n : Nat) : CharSet := ⟨#[⟨n, n⟩]⟩

def union (a b : CharSet) : CharSet := ofList (a.ranges.toList ++ b.ranges.toList)

def gaps (next : Nat) : List Range → List Range
  | [] => if next ≤ lastCode then [⟨next, lastCode⟩] else []
  | r :: rs => if next < r.lo then ⟨next, r.lo - 1⟩ :: gaps (r.hi + 1) rs else gaps (r.hi + 1) rs

def complement (a : CharSet) : CharSet := ⟨(gaps 0 a.ranges.toList).toArray⟩

def inter (a b : CharSet) : CharSet := (a.complement.union b.complement).complement

def diff (a b : CharSet) : CharSet := a.inter b.complement

def symmDiff (a b : CharSet) : CharSet := (a.diff b).union (b.diff a)

def search (rs : Array Range) (n : Nat) : (fuel lo hi : Nat) → Bool
  | 0, _, _ => false
  | fuel + 1, lo, hi =>
    if lo < hi then
      let mid := (lo + hi) / 2
      match rs[mid]? with
      | some r =>
        if n < r.lo then search rs n fuel lo mid
        else if r.hi < n then search rs n fuel (mid + 1) hi
        else true
      | none => false
    else false

def contains (a : CharSet) (n : Nat) : Bool := search a.ranges n 32 0 a.ranges.size

def isEmpty (a : CharSet) : Bool := a.ranges.isEmpty

end CharSet

namespace Table

def hexValue (c : Char) : Nat :=
  if c.isDigit then c.toNat - '0'.toNat else c.toNat - 'a'.toNat + 10

def number : List Char → Int
  | '-' :: ds => -((ds.foldl (fun n c => 16 * n + hexValue c) 0 : Nat) : Int)
  | ds => (ds.foldl (fun n c => 16 * n + hexValue c) 0 : Nat)

def words (cs : List Char) : List (List Char) :=
  let s := cs.foldr (fun c (ws, w) =>
    if c = ' ' ∨ c = '\n' then (w :: ws, []) else (ws, c :: w)) ([], [])
  (s.2 :: s.1).filter (· ≠ [])

def numbers (s : String) : List Int := (words s.toList).map number

def ranges (start : Nat) : List Int → List Range
  | gap :: n :: rest =>
    let lo := start + gap.toNat
    ⟨lo, lo + n.toNat - 1⟩ :: ranges (lo + n.toNat) rest
  | _ => []

def charSet (s : String) : CharSet := ⟨(ranges 0 (numbers s)).toArray⟩

structure Shift where
  lo : Nat
  count : Nat
  step : Nat
  shift : Int

def Shift.send? (r : Shift) (n : Nat) : Option Nat :=
  if r.lo ≤ n ∧ (n - r.lo) % r.step = 0 ∧ (n - r.lo) / r.step < r.count then
    some (n + r.shift).toNat
  else none

def shifts (start : Nat) : List Int → List Shift
  | d :: count :: step :: shift :: rest =>
    let lo := start + d.toNat
    ⟨lo, count.toNat, step.toNat, shift⟩ :: shifts lo rest
  | _ => []

end Table

end FlowGraph.Text
