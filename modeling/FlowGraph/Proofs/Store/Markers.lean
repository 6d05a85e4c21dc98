import FlowGraph.Store.Markers

namespace FlowGraph.Store

structure Reading where
  millis : Int
  legal : -8334632937600000 ≤ millis ∧ millis ≤ 8210298412799999

namespace Markers

variable {m : Markers} {id other : String} {now e : Int} {ttl : Nat}

theorem lastMoment_eq : lastMoment = 9223372036854775807 := by decide

theorem le_expiry (h : now ≤ lastMoment) (ttl : Nat) : now ≤ expiry now ttl := by
  rw [expiry]
  rw [lastMoment_eq] at h ⊢
  omega

theorem Reading.due {now now' : Reading} {ttl : Nat} (h : expiry now.millis ttl ≤ now'.millis) :
    now.millis + ttl ≤ now'.millis := by
  -- times that no clock shows are out of reach, whether or not the expiry was cut short
  have hnow := now.legal
  have hnow' := now'.legal
  rw [expiry, lastMoment_eq] at h
  omega

def saturatingAdd (a b : Int64) : Int64 := .ofIntClamp (a.toInt + b.toInt)

theorem toInt_saturatingAdd {a b : Int64} (h : 0 ≤ b.toInt) :
    (saturatingAdd a b).toInt = min (a.toInt + b.toInt) lastMoment := by
  have ha := a.le_toInt
  rw [lastMoment_eq, saturatingAdd, Int64.ofIntClamp]
  split
  · split
    · next hmax =>
      rw [Int64.toInt_maxValue] at hmax
      rw [Int64.toInt_ofIntLE]
      omega
    · next hmax =>
      rw [Int64.toInt_maxValue] at hmax ⊢
      omega
  · next hmin =>
    rw [Int64.toInt_minValue] at hmin
    omega

/-- What is computed in words of 64 bits, from a time to live in 128. -/
def expiryWord (now : Int64) (ttl : BitVec 128) : Int64 :=
  let most : BitVec 128 := (BitVec.intMax 64).setWidth 128
  let capped := if ttl ≤ most then ttl else most
  saturatingAdd now (.ofBitVec (capped.setWidth 64))

theorem toInt_capped (ttl : BitVec 128) :
    let most : BitVec 128 := (BitVec.intMax 64).setWidth 128
    ((if ttl ≤ most then ttl else most).setWidth 64).toInt = min (ttl.toNat : Int) lastMoment := by
  intro most
  have hmost : most.toNat = 2 ^ 63 - 1 := by decide
  rw [lastMoment_eq]
  split
  · next hle =>
    rw [BitVec.le_def, hmost] at hle
    have hnat : (ttl.setWidth 64).toNat = ttl.toNat := by
      rw [BitVec.toNat_setWidth]
      omega
    rw [BitVec.toInt_eq_toNat_of_lt (by omega), hnat]
    omega
  · next hle =>
    rw [BitVec.le_def, hmost] at hle
    have htoInt : (most.setWidth 64).toInt = 2 ^ 63 - 1 := by decide
    omega

theorem toInt_expiryWord (now : Int64) (ttl : BitVec 128) :
    (expiryWord now ttl).toInt = expiry now.toInt ttl.toNat := by
  have hcapped := toInt_capped ttl
  rw [expiryWord, toInt_saturatingAdd]
  · rw [Int64.toInt_ofBitVec, hcapped, expiry]
  · rw [Int64.toInt_ofBitVec, hcapped, lastMoment_eq]
    omega

theorem claim_won_iff :
    (m.claim id now ttl).1 = true ↔ ∀ e, m.get? id = some e → e ≤ now := by
  simp [claim, Option.all_eq_true]

theorem get?_claim_of_won (h : (m.claim id now ttl).1 = true) :
    (m.claim id now ttl).2.get? id = some (expiry now ttl) := by
  simp only [claim] at h ⊢
  simp [h]

def HeldUntil (m : Markers) (id : String) (e : Int) : Prop := ∃ e', m.get? id = some e' ∧ e ≤ e'

theorem heldUntil_of_won (h : (m.claim id now ttl).1 = true) :
    (m.claim id now ttl).2.HeldUntil id (expiry now ttl) :=
  ⟨_, get?_claim_of_won h, Int.le_refl _⟩

theorem HeldUntil.le_of_won (h : m.HeldUntil id e) (hwon : (m.claim id now ttl).1 = true) :
    e ≤ now := by
  obtain ⟨e', he', hle⟩ := h
  have := claim_won_iff.1 hwon e' he'
  omega

theorem HeldUntil.claim (h : m.HeldUntil id e) (hnow : now ≤ lastMoment) (ttl : Nat) :
    (m.claim other now ttl).2.HeldUntil id e := by
  -- whoever takes the window over does it after `e`, and for a time that ends later still
  by_cases hid : other = id
  · subst hid
    cases hwon : (m.claim other now ttl).1 with
    | true =>
      have hle := h.le_of_won hwon
      have hexpiry := le_expiry hnow ttl
      exact ⟨_, get?_claim_of_won hwon, by omega⟩
    | false =>
      rw [claim_lost hwon]
      exact h
  · obtain ⟨e', he', hle⟩ := h
    exact ⟨e', by rwa [get?_claim_of_ne now ttl hid], hle⟩

theorem HeldUntil.clear (h : m.HeldUntil id e) (hid : other ≠ id) :
    (m.clear other).HeldUntil id e := by
  obtain ⟨e', he', hle⟩ := h
  exact ⟨e', by simpa [Markers.clear, hid] using he', hle⟩

end Markers

end FlowGraph.Store
