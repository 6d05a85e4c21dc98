import FlowGraph.Platform
import FlowGraph.Proofs.Run.Course
import FlowGraph.Proofs.Store.Markers
import FlowGraph.Server.Interval

namespace FlowGraph

open Store Markers

variable {H : Host} {s s' : Server} {id : String} {weekday : Nat} {now : Int} {g : Graph} {why : Skip}
  {m : Markers} {e : Int}

namespace Server

def sharing (m : Markers) (s : Server) : Server := { s with store := { s.store with markers := m } }

structure Opens (s : Server) (id : String) (weekday : Nat) (g : Graph) (p : Nat) : Prop where
  known : s.registry.get? id = some g
  trigger : ∃ t, g.interval? = some t ∧ t.period? = some p ∧ t.runsOn weekday = true

theorem Opens.period {p : Nat} (h : s.Opens id weekday g p) : g.period? = some p := by
  obtain ⟨t, ht, hp, -⟩ := h.trigger
  simp [Graph.period?, ht, hp]

theorem claim_of_opens {p : Nat} (h : s.Opens id weekday g p) : s.claim id weekday now =
    if (s.store.markers.claim id now (claimTime p)).1 then
      (.ok g, s.sharing (s.store.markers.claim id now (claimTime p)).2)
    else (.error .windowClaimed, s) := by
  obtain ⟨t, ht, hp, hday⟩ := h.trigger
  simp only [claim, h.known, ht, hp, hday, if_true]
  cases hwon : (s.store.markers.claim id now (claimTime p)).1 with
  | true => rfl
  | false =>
    rw [claim_lost hwon]
    rfl

theorem opens_or_error (s : Server) (id : String) (weekday : Nat) (now : Int) :
    (∃ g p, s.Opens id weekday g p) ∨ ∃ why, s.claim id weekday now = (.error why, s) := by
  rw [claim]
  split
  · exact .inr ⟨_, rfl⟩
  · next g hg =>
    split
    · exact .inr ⟨_, rfl⟩
    · next t ht =>
      split
      · exact .inr ⟨_, rfl⟩
      · next p hp =>
        split
        · next hday => exact .inl ⟨g, p, hg, t, ht, hp, hday⟩
        · exact .inr ⟨_, rfl⟩

theorem store_perform (H : Host) (g : Graph) (id : String) (trigger : Run.Trigger) (scope : Scope)
    (s : Server) : (s.perform H g id trigger scope).2.store = s.store := by
  rw [perform]
  split <;> rfl

theorem fire_of_won {p : Nat} (h : s.Opens id weekday g p)
    (hwon : (s.store.markers.claim id now (claimTime p)).1 = true) :
    ∃ f s', s.fire H id weekday now = (.ok f, s') ∧
      s'.store.markers = (s.store.markers.claim id now (claimTime p)).2 := by
  have hstore := store_perform H g id .interval .initial
    (s.sharing (s.store.markers.claim id now (claimTime p)).2)
  rw [fire, claim_of_opens h, if_pos hwon]
  exact ⟨_, _, rfl, congrArg Store.markers hstore⟩

theorem fire_cases (H : Host) (s : Server) (id : String) (weekday : Nat) (now : Int) :
    (∃ why, s.fire H id weekday now = (.error why, s)) ∨
    ∃ g p, s.Opens id weekday g p ∧ (s.store.markers.claim id now (claimTime p)).1 = true := by
  rcases s.opens_or_error id weekday now with ⟨g, p, hopens⟩ | ⟨why, hclaim⟩
  · cases hwon : (s.store.markers.claim id now (claimTime p)).1 with
    | true => exact .inr ⟨g, p, hopens, hwon⟩
    | false => exact .inl ⟨.windowClaimed, by simp [fire, claim_of_opens hopens, hwon]⟩
  · exact .inl ⟨why, by rw [fire, hclaim]⟩

theorem fire_error (h : s.fire H id weekday now = (.error why, s')) :
    s' = s ∧ s.tick H id weekday now = s := by
  rcases s.fire_cases H id weekday now with ⟨why', hfire⟩ | ⟨g, p, hopens, hwon⟩
  · rw [hfire] at h
    cases h
    exact ⟨rfl, by rw [tick, hfire]⟩
  · obtain ⟨f, s₁, hfire, -⟩ := fire_of_won (H := H) hopens hwon
    rw [hfire] at h
    cases h

end Server

theorem claimTime_of_pos {p : Nat} (h : 0 < p) : claimTime p = 1000 * p - markerSlack := by
  rw [claimTime, if_pos]
  rw [markerSlack]
  omega

theorem Graph.period?_pos {p : Nat} (h : g.period? = some p) : 0 < p := by
  obtain ⟨t, -, hp⟩ := Option.bind_eq_some_iff.1 h
  unfold Interval.period? at hp
  split at hp
  · cases hp
  · next hlength =>
    obtain rfl := Option.some.inj hp
    have hunit : 0 < t.unit.inSeconds := by cases t.unit <;> decide
    have hproduct : 0 < t.length * t.unit.inSeconds := Nat.mul_pos (by omega) hunit
    have hmost : 0 < Interval.maxSeconds := by decide
    omega

structure Claim where
  id : String
  now : Reading
  ttl : Nat

namespace Claim

def Wins (c : Claim) (m : Markers) : Prop := (m.claim c.id c.now.millis c.ttl).1 = true

def after (c : Claim) (m : Markers) : Markers := (m.claim c.id c.now.millis c.ttl).2

end Claim

structure Tick where
  host : Host
  server : Server
  id : String
  weekday : Nat
  now : Reading

namespace Tick

def fired (t : Tick) (m : Markers) : Except Skip (Option Server.Finished) × Server :=
  (t.server.sharing m).fire t.host t.id t.weekday t.now.millis

def Dispatched (t : Tick) (m : Markers) : Prop := (t.fired m).1.isOk = true

def after (t : Tick) (m : Markers) : Markers := (t.fired m).2.store.markers

instance (t : Tick) (m : Markers) : Decidable (t.Dispatched m) :=
  inferInstanceAs (Decidable (_ = true))

def claim (t : Tick) (p : Nat) : Claim := ⟨t.id, t.now, claimTime p⟩

theorem turn_cases (t : Tick) (m : Markers) :
    (¬ t.Dispatched m ∧ t.after m = m) ∨
    ∃ g p, t.server.Opens t.id t.weekday g p ∧ (t.claim p).Wins m := by
  rw [Dispatched, after]
  rcases (t.server.sharing m).fire_cases t.host t.id t.weekday t.now.millis with
    ⟨why, hfire⟩ | ⟨g, p, ⟨hknown, htrigger⟩, hwon⟩
  · rw [fired, hfire]
    exact .inl ⟨nofun, rfl⟩
  · exact .inr ⟨g, p, ⟨hknown, htrigger⟩, hwon⟩

theorem of_wins {t : Tick} {p : Nat} (h : t.server.Opens t.id t.weekday g p)
    (hwins : (t.claim p).Wins m) : t.Dispatched m ∧ t.after m = (t.claim p).after m := by
  have hopens : (t.server.sharing m).Opens t.id t.weekday g p := ⟨h.known, h.trigger⟩
  have hwon : ((t.server.sharing m).store.markers.claim t.id t.now.millis (claimTime p)).1 = true :=
    hwins
  obtain ⟨f, s', hfire, hmarkers⟩ := Server.fire_of_won (H := t.host) hopens hwon
  rw [Dispatched, after, fired, hfire]
  exact ⟨rfl, hmarkers⟩

theorem dispatched_iff {t : Tick} : t.Dispatched m ↔
    ∃ g p, t.server.Opens t.id t.weekday g p ∧ (t.claim p).Wins m := by
  constructor
  · intro h
    exact (t.turn_cases m).resolve_left fun hskip => hskip.1 h
  · rintro ⟨g, p, hopens, hwins⟩
    exact (of_wins hopens hwins).1

end Tick

inductive Turn where
  | claim (c : Claim)
  | tick (t : Tick)
  | clear (id : String)

namespace Turn

def after : Turn → Markers → Markers
  | claim c, m => c.after m
  | tick t, m => t.after m
  | clear id, m => m.clear id

def afterAll (us : List Turn) (m : Markers) : Markers := us.foldl (fun m u => u.after m) m

theorem heldUntil_after {u : Turn} (h : m.HeldUntil id e) (hclear : u ≠ clear id) :
    (u.after m).HeldUntil id e := by
  have hclaim : ∀ c : Claim, (c.after m).HeldUntil id e := by
    intro c
    have hnow := c.now.legal
    apply h.claim
    rw [lastMoment_eq]
    omega
  cases u with
  | claim c => exact hclaim c
  | tick t =>
    rw [Turn.after]
    rcases t.turn_cases m with ⟨-, hafter⟩ | ⟨g, p, hopens, hwins⟩
    · rwa [hafter]
    · rw [(Tick.of_wins hopens hwins).2]
      exact hclaim (t.claim p)
  | clear other =>
    apply h.clear
    rintro rfl
    exact hclear rfl

theorem heldUntil_afterAll {us : List Turn} (h : m.HeldUntil id e) (hclear : ∀ u ∈ us, u ≠ clear id) :
    (afterAll us m).HeldUntil id e := by
  induction us generalizing m with
  | nil => exact h
  | cons u us ih =>
    obtain ⟨hu, hus⟩ := List.forall_mem_cons.1 hclear
    exact ih (heldUntil_after h hu) hus

end Turn

theorem Claim.apart {c c' : Claim} {us : List Turn} (h : c.Wins m) (hid : c'.id = c.id)
    (hclear : ∀ u ∈ us, u ≠ .clear c.id) (h' : c'.Wins (Turn.afterAll us (c.after m))) :
    c.now.millis + c.ttl ≤ c'.now.millis := by
  have hheld : (Turn.afterAll us (c.after m)).HeldUntil c.id (expiry c.now.millis c.ttl) :=
    Turn.heldUntil_afterAll (heldUntil_of_won h) hclear
  rw [← hid] at hheld
  exact Reading.due (hheld.le_of_won h')

theorem Tick.apart {t t' : Tick} {us : List Turn} {p : Nat} (h : t.Dispatched m)
    (hg : t.server.registry.get? t.id = some g) (hp : g.period? = some p) (hid : t'.id = t.id)
    (hclear : ∀ u ∈ us, u ≠ .clear t.id) (h' : t'.Dispatched (Turn.afterAll us (t.after m))) :
    1000 * (p : Int) - markerSlack ≤ t'.now.millis - t.now.millis := by
  obtain ⟨g₁, p₁, hopens, hwins⟩ := dispatched_iff.1 h
  obtain ⟨g', p', -, hwins'⟩ := dispatched_iff.1 h'
  obtain rfl : g = g₁ := Option.some.inj (hg.symm.trans hopens.known)
  obtain rfl : p = p₁ := Option.some.inj (hp.symm.trans hopens.period)
  rw [(of_wins hopens hwins).2] at hwins'
  have hapart : t.now.millis + claimTime p ≤ t'.now.millis := Claim.apart hwins hid hclear hwins'
  have hpos := Graph.period?_pos hp
  rw [claimTime_of_pos hpos, markerSlack] at hapart
  rw [markerSlack]
  omega

/-- Of claims, of the expiry in words, and of ticks. -/
theorem windows_exclusive :
    (∀ (c : Claim) (m : Markers),
      (c.Wins m ↔ ∀ e, m.get? c.id = some e → e ≤ c.now.millis) ∧
      (c.Wins m → (c.after m).get? c.id = some (expiry c.now.millis c.ttl)) ∧
      (¬ c.Wins m → c.after m = m) ∧
      ∀ id ≠ c.id, (c.after m).get? id = m.get? id) ∧
    (∀ (c c' : Claim) (us : List Turn) (m : Markers), c.Wins m → c'.id = c.id →
      (∀ u ∈ us, u ≠ .clear c.id) → c'.Wins (Turn.afterAll us (c.after m)) →
      min (c.now.millis + c.ttl) lastMoment ≤ c'.now.millis) ∧
    (∀ (now : Int64) (ttl : BitVec 128),
      (expiryWord now ttl).toInt = expiry now.toInt ttl.toNat) ∧
    (∀ (t : Tick) (m : Markers), t.Dispatched m ↔
      ∃ g p, t.server.Opens t.id t.weekday g p ∧ (t.claim p).Wins m) ∧
    (∀ (t t' : Tick) (us : List Turn) (m : Markers) (g : Graph) (p : Nat), t.Dispatched m →
      t.server.registry.get? t.id = some g → g.period? = some p → t'.id = t.id →
      (∀ u ∈ us, u ≠ .clear t.id) → t'.Dispatched (Turn.afterAll us (t.after m)) →
      1000 * (p : Int) - 500 ≤ t'.now.millis - t.now.millis) ∧
    (∀ (H : Host) (id : String) (weekday : Nat) (now : Int) (s s' : Server) (why : Skip),
      s.fire H id weekday now = (.error why, s') → s' = s ∧ s.tick H id weekday now = s) := by
  refine ⟨?_, ?_, toInt_expiryWord, fun t m => Tick.dispatched_iff, ?_, ?_⟩
  · intro c m
    refine ⟨claim_won_iff, get?_claim_of_won, ?_, fun id hid => get?_claim_of_ne _ _ hid.symm⟩
    intro h
    exact claim_lost (eq_false_of_ne_true h)
  · intro c c' us m h hid hclear h'
    have hapart := Claim.apart h hid hclear h'
    omega
  · intro t t' us m g p h hg hp hid hclear h'
    exact Tick.apart h hg hp hid hclear h'
  · intro H id weekday now s s' why h
    exact Server.fire_error h

namespace Sample

def everyFive : Workflow where
  id := "five"
  name := "Five"
  description := ""
  nodes := [⟨"0", "", .interval ⟨5, .seconds, [false]⟩⟩]
  edges := []

def everyFiveGraph : Graph := .ofWorkflow everyFive (by decide)

def ticking : Server :=
  { Server.start (Platform.alone fun _ => some 0) with registry := Registry.publish .empty everyFiveGraph }

def ticker : Host where
  clock _ := Run.Sample.moment
  processId _ := "run"
  fuel := 10

def tickAt (weekday : Nat) (now : Reading) : Tick := ⟨ticker, ticking, "five", weekday, now⟩

end Sample

theorem windows_exclusive_everyFive :
    let t := Sample.tickAt 1 ⟨0, by decide⟩
    let t' := Sample.tickAt 1 ⟨4500, by decide⟩
    let us := [Turn.tick (Sample.tickAt 1 ⟨-7, by decide⟩), .tick (Sample.tickAt 0 ⟨5000, by decide⟩),
      .claim ⟨"five", ⟨9, by decide⟩, 1⟩, .clear "other"]
    let c : Claim := ⟨"five", ⟨0, by decide⟩, 4500⟩
    let c' : Claim := ⟨"five", ⟨4500, by decide⟩, 18446744073709551616⟩
    t.Dispatched .empty ∧ t'.Dispatched (Turn.afterAll us (t.after .empty)) ∧
      1000 * ((5 : Nat) : Int) - 500 ≤ t'.now.millis - t.now.millis ∧
    c.Wins .empty ∧ c'.Wins (Turn.afterAll us (c.after .empty)) ∧
      min (c.now.millis + c.ttl) lastMoment ≤ c'.now.millis ∧
    Sample.ticking.tick Sample.ticker "five" 0 5000 = Sample.ticking := by
  intro t t' us c c'
  have ht : t.Dispatched .empty := by decide +kernel
  have ht' : t'.Dispatched (Turn.afterAll us (t.after .empty)) := by decide +kernel
  have hc : c.Wins .empty := by rfl
  have hc' : c'.Wins (Turn.afterAll us (c.after .empty)) := by rfl
  have hclear : ∀ u ∈ us, u ≠ .clear "five" := by simp [us]
  have ⟨_, hclaims, _, _, hticks, hskips⟩ := windows_exclusive
  have hticked := hticks t t' us .empty Sample.everyFiveGraph 5 ht rfl rfl rfl hclear ht'
  have hclaimed := hclaims c c' us .empty hc rfl hclear hc'
  exact ⟨ht, ht', hticked, hc, hc', hclaimed, (hskips _ _ _ _ _ _ .weekdayDisabled rfl).2⟩

end FlowGraph
