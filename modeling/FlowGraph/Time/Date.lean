
namespace FlowGraph

def isLeapYear (y : Int) : Bool := y % 4 = 0 && (y % 100 ≠ 0 || y % 400 = 0)

def daysIn (y : Int) : (month : Nat) → Nat
  | 2 => if isLeapYear y then 29 else 28
  | 4 | 6 | 9 | 11 => 30
  | _ => 31

theorem daysIn_pos (y : Int) (m : Nat) : 1 ≤ daysIn y m := by
  unfold daysIn
  split
  · split <;> omega
  all_goals omega

structure Date where
  year : Int
  month : Nat
  day : Nat
  legal : 1 ≤ month ∧ month ≤ 12 ∧ 1 ≤ day ∧ day ≤ daysIn year month
deriving DecidableEq

namespace Date

def of? (y : Int) (m d : Nat) : Option Date :=
  if h : 1 ≤ m ∧ m ≤ 12 ∧ 1 ≤ d ∧ d ≤ daysIn y m then some ⟨y, m, d, h⟩ else none

def next (t : Date) : Date :=
  if h : t.day < daysIn t.year t.month then
    ⟨t.year, t.month, t.day + 1, by have := t.legal; omega⟩
  else if h : t.month < 12 then
    ⟨t.year, t.month + 1, 1, by have := daysIn_pos t.year (t.month + 1); omega⟩
  else ⟨t.year + 1, 1, 1, by have := daysIn_pos (t.year + 1) 1; omega⟩

def previous (t : Date) : Date :=
  if h : 1 < t.day then ⟨t.year, t.month, t.day - 1, by have := t.legal; omega⟩
  else if h : 1 < t.month then
    ⟨t.year, t.month - 1, daysIn t.year (t.month - 1), by
      have := t.legal
      have := daysIn_pos t.year (t.month - 1)
      omega⟩
  else ⟨t.year - 1, 12, 31, by decide, by decide, by decide, by simp [daysIn]⟩

end Date

end FlowGraph
