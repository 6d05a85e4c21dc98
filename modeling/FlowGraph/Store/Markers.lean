import FlowGraph.Keyed
/-!
Claims on the windows of interval triggers. A marker holds the moment, in milliseconds, at which
the claim of a workflow ends; until then nobody else can make one.
-/

namespace FlowGraph.Store

abbrev Markers := Keyed Int

namespace Markers

def lastMoment : Int := Nat.pow 2 63 - 1

def expiry (now : Int) (ttl : Nat) : Int := min (now + min (ttl : Int) lastMoment) lastMoment

def claim (m : Markers) (id : String) (now : Int) (ttl : Nat) : Bool × Markers :=
  let won := (m.get? id).all fun e => e ≤ now
  (won, if won then m.put id (expiry now ttl) else m)

theorem claim_lost {m : Markers} {id : String} {now : Int} {ttl : Nat}
    (h : (m.claim id now ttl).1 = false) : (m.claim id now ttl).2 = m := by
  simp only [claim] at h ⊢
  simp [h]

theorem get?_claim_of_ne {m : Markers} {id other : String} (now : Int) (ttl : Nat)
    (h : id ≠ other) : (m.claim id now ttl).2.get? other = m.get? other := by
  simp only [claim]
  split <;> simp [h]

def clear (m : Markers) (id : String) : Markers := m.erase id

end Markers

end FlowGraph.Store
