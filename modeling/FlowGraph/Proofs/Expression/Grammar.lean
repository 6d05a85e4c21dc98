import FlowGraph.Expression.Tree
import FlowGraph.Proofs.Except
/-!
The parser accepts exactly the tokens of canonical trees within its limits, and gives the tree that
they are the tokens of. Each level of the parser is sound and complete for the trees that bind at
least as tightly; the levels above follow from the operands below.
-/

namespace FlowGraph.Expression

def Level.rank : Level → Nat
  | comparison => 0
  | additive => 1
  | multiplicative => 2

theorem Level.rank_inj {l m : Level} (h : l.rank = m.rank) : l = m := by
  cases l <;> cases m <;> first | rfl | cases h

theorem Level.rank_lt (l : Level) : l.rank < 3 := by
  cases l <;> decide

namespace Tree

def tokens : Tree → List Token
  | number x => [.number x]
  | str s => [.str s]
  | ident name => [.ident name]
  | neg operand => .op .sub :: operand.tokens
  | group inner => .lparen :: (inner.tokens ++ [.rparen])
  | binary op lhs rhs => lhs.tokens ++ .op op :: rhs.tokens

def size : Tree → Nat
  | number _ | str _ | ident _ => 1
  | neg t | group t => t.size + 1
  | binary _ lhs rhs => lhs.size + rhs.size + 1

def nesting : Tree → Nat
  | number _ | str _ | ident _ => 0
  | neg t | group t => t.nesting + 1
  | binary _ lhs rhs => max lhs.nesting rhs.nesting

def binding : Tree → Nat
  | binary op _ _ => op.level.rank
  | number _ | str _ | ident _ | neg _ | group _ => 3

/-- Operators of one level are nested on the left, and looser ones stand in parentheses only. -/
def Canonical : Tree → Prop
  | number _ | str _ | ident _ => True
  | neg t => t.Canonical ∧ t.binding = 3
  | group t => t.Canonical
  | binary op lhs rhs => lhs.Canonical ∧ rhs.Canonical ∧
      op.level.rank ≤ lhs.binding ∧ op.level.rank < rhs.binding

theorem tokens_ne_nil (t : Tree) : t.tokens ≠ [] := by
  cases t <;> simp [tokens]

theorem binding_le (t : Tree) : t.binding ≤ 3 := by
  cases t with
  | binary op lhs rhs => exact Nat.le_of_lt op.level.rank_lt
  | _ => exact Nat.le_refl 3

end Tree

namespace Parser

def Takes (s : State) (t : Tree) (s' : State) : Prop :=
  ∃ taken : List Placed, s.tokens = taken ++ s'.tokens ∧ taken.map Placed.token = t.tokens ∧
    s'.nodes = s.nodes + t.size

def Stops (rank : Nat) (ts : List Placed) : Prop :=
  ∀ o offset r, ts = ⟨.op o, offset⟩ :: r → o.level.rank < rank

structure Fits (rank room : Nat) (t : Tree) : Prop where
  canonical : t.Canonical
  binding : rank ≤ t.binding
  nesting : t.nesting ≤ room

structure Parses (rank room : Nat) (P : State → Result) : Prop where
  sound {s s' : State} {t : Tree} : P s = .ok (t, s') →
    Takes s t s' ∧ Fits rank room t ∧ s'.nodes ≤ maxNodes
  complete {s s' : State} {t : Tree} : Takes s t s' → Fits rank room t → s'.nodes ≤ maxNodes →
    Stops rank s'.tokens → P s = .ok (t, s')

theorem count_eq_ok {offset nodes : Nat} {ts : List Placed} {s : State} :
    count offset ts nodes = .ok s ↔ nodes + 1 ≤ maxNodes ∧ s = ⟨ts, nodes + 1⟩ := by
  unfold count
  split
  · simp; omega
  · simp [eq_comm]; omega

theorem count_ok {offset nodes : Nat} {ts : List Placed} (h : nodes + 1 ≤ maxNodes) :
    count offset ts nodes = .ok ⟨ts, nodes + 1⟩ :=
  count_eq_ok.2 ⟨h, rfl⟩

theorem Stops.mono {rank rank' : Nat} {ts : List Placed} (h : Stops rank ts) (hle : rank ≤ rank') :
    Stops rank' ts :=
  fun o offset r hts => Nat.lt_of_lt_of_le (h o offset r hts) hle

theorem Takes.length_lt {s s' : State} {t : Tree} (h : Takes s t s') :
    s'.tokens.length < s.tokens.length := by
  obtain ⟨taken, htokens, htaken, -⟩ := h
  have hpos : 0 < taken.length := by
    have hne := t.tokens_ne_nil
    rw [← htaken] at hne
    exact List.length_pos_iff.2 fun h => hne (by rw [h]; rfl)
  rw [htokens, List.length_append]
  omega

theorem Takes.binary {s s' s'' : State} {lhs rhs : Tree} {o : Operator} {offset : Nat}
    {r : List Placed} (hl : Takes s lhs s') (hs' : s'.tokens = ⟨.op o, offset⟩ :: r)
    (hr : Takes ⟨r, s'.nodes + 1⟩ rhs s'') : Takes s (.binary o lhs rhs) s'' := by
  obtain ⟨taken, htokens, htaken, hnodes⟩ := hl
  obtain ⟨taken', htokens', htaken', hnodes'⟩ := hr
  refine ⟨taken ++ ⟨.op o, offset⟩ :: taken', ?_, ?_, ?_⟩
  · simp only at htokens'
    rw [htokens, hs', htokens']
    simp
  · simp [Tree.tokens, htaken, htaken']
  · simp only at hnodes'
    simp only [Tree.size]
    omega

theorem Takes.of_binary {s s'' : State} {lhs rhs : Tree} {o : Operator}
    (h : Takes s (.binary o lhs rhs) s'') :
    ∃ offset r, Takes s lhs ⟨⟨.op o, offset⟩ :: r, s.nodes + lhs.size⟩ ∧
      Takes ⟨r, s.nodes + lhs.size + 1⟩ rhs s'' := by
  obtain ⟨taken, htokens, htaken, hnodes⟩ := h
  rw [Tree.tokens] at htaken
  obtain ⟨left, rest, rfl, hleft, hrest⟩ := List.map_eq_append_iff.1 htaken
  obtain ⟨⟨token, offset⟩, right, rfl, htoken, hright⟩ := List.map_eq_cons_iff.1 hrest
  cases htoken
  refine ⟨offset, right ++ s''.tokens, ⟨left, ?_, hleft, rfl⟩, ⟨right, rfl, hright, ?_⟩⟩
  · rw [htokens]
    simp
  · simp only [hnodes, Tree.size]
    omega

variable {rank room : Nat} {P : State → Result} {level : Level}

theorem chainRest_sound (hP : Parses (rank + 1) room P) (hlevel : level.rank = rank) {fuel : Nat}
    {s s₁ s' : State} {lhs t : Tree} (hs : Takes s lhs s₁) (hlhs : Fits rank room lhs)
    (hnodes : s₁.nodes ≤ maxNodes) (h : chainRest P level fuel lhs s₁ = .ok (t, s')) :
    Takes s t s' ∧ Fits rank room t ∧ s'.nodes ≤ maxNodes := by
  induction fuel generalizing lhs s₁ with
  | zero =>
    cases h
    exact ⟨hs, hlhs, hnodes⟩
  | succ fuel ih =>
    rw [chainRest] at h
    split at h
    · next o offset r htokens =>
      split at h
      · next ho =>
        obtain ⟨s₂, hcount, h⟩ := bind_eq_ok.1 h
        obtain ⟨-, rfl⟩ := count_eq_ok.1 hcount
        obtain ⟨⟨rhs, s₃⟩, hrhs, h⟩ := bind_eq_ok.1 h
        obtain ⟨htakes, hfits, hnodes₃⟩ := hP.sound hrhs
        apply ih (hs.binary htokens htakes) _ hnodes₃ h
        have hrank : o.level.rank = rank := by rw [ho, hlevel]
        have hleft := hlhs.binding
        have hright := hfits.binding
        have hnesting : max lhs.nesting rhs.nesting ≤ room :=
          Nat.max_le.2 ⟨hlhs.nesting, hfits.nesting⟩
        exact ⟨⟨hlhs.canonical, hfits.canonical, by omega, by omega⟩, Nat.le_of_eq hrank.symm,
          hnesting⟩
      · cases h
        exact ⟨hs, hlhs, hnodes⟩
    · cases h
      exact ⟨hs, hlhs, hnodes⟩

theorem chainRest_fuel (hP : Parses (rank + 1) room P) {fuel : Nat} {s : State} {lhs : Tree}
    (h : s.tokens.length ≤ fuel) :
    chainRest P level fuel lhs s = chainRest P level s.tokens.length lhs s := by
  -- every pass takes a token, so more fuel than tokens does not matter
  induction fuel using Nat.strongRecOn generalizing lhs s with
  | ind fuel ih =>
    cases fuel with
    | zero =>
      obtain hzero : s.tokens.length = 0 := by omega
      rw [hzero]
    | succ fuel =>
      cases hs : s.tokens with
      | nil => simp [chainRest, hs]
      | cons p r =>
        rw [hs, List.length_cons] at h
        rw [List.length_cons, chainRest, chainRest, hs]
        obtain ⟨token, offset⟩ := p
        cases token with
        | op o =>
          simp only
          split
          · cases hc : count offset r s.nodes with
            | error e => rfl
            | ok s₂ =>
              obtain ⟨-, rfl⟩ := count_eq_ok.1 hc
              simp only [bind, Except.bind]
              cases hrhs : P ⟨r, s.nodes + 1⟩ with
              | error e => rfl
              | ok p =>
                obtain ⟨rhs, s₃⟩ := p
                have hlt : s₃.tokens.length < r.length := (hP.sound hrhs).1.length_lt
                simp only
                rw [ih fuel (by omega) (by omega), ← ih r.length (by omega) (by omega)]
          · rfl
        | _ => rfl

theorem chain_eq_chainRest (hP : Parses (rank + 1) room P) (hlevel : level.rank = rank)
    {s s' : State} {t : Tree} (h : Takes s t s') (ht : Fits rank room t)
    (hnodes : s'.nodes ≤ maxNodes) (hstops : Stops (rank + 1) s'.tokens) :
    chain P level s = chainRest P level s'.tokens.length t s' := by
  -- a chain has read the whole of a tree of its level before it looks whether more comes
  have hoperand : ∀ {s s' : State} {t : Tree}, Takes s t s' → Fits (rank + 1) room t →
      s'.nodes ≤ maxNodes → Stops (rank + 1) s'.tokens →
      chain P level s = chainRest P level s'.tokens.length t s' := by
    intro s s' t h ht hnodes hstops
    have hread := hP.complete h ht hnodes hstops
    rw [chain, hread]
    rfl
  induction t generalizing s s' with
  | binary o lhs rhs ihl _ =>
    obtain ⟨⟨hlcan, hrcan, hlbind, hrbind⟩, hbind, hnest⟩ := ht
    have hnest : lhs.nesting ≤ room ∧ rhs.nesting ≤ room := Nat.max_le.1 hnest
    by_cases ho : o.level.rank = rank
    · obtain ⟨offset, r, hl, hr⟩ := h.of_binary
      have hcount : s.nodes + lhs.size + 1 ≤ maxNodes := by
        obtain ⟨-, -, -, hsum⟩ := hr
        simp only at hsum
        omega
      have hfirst : chain P level s = chainRest P level (r.length + 1) lhs
          ⟨⟨.op o, offset⟩ :: r, s.nodes + lhs.size⟩ := by
        apply ihl hl ⟨hlcan, by omega, hnest.1⟩
        · simp only
          omega
        · intro o' offset' r' heq
          cases heq
          omega
      have hsecond := hP.complete hr ⟨hrcan, by omega, hnest.2⟩ hnodes hstops
      have hle : s'.tokens.length ≤ r.length := Nat.le_of_lt hr.length_lt
      have hlev : o.level = level := Level.rank_inj (by rw [ho, hlevel])
      rw [hfirst, chainRest]
      simp only [hlev, ↓reduceIte, count_ok hcount, bind, Except.bind]
      rw [hsecond]
      exact chainRest_fuel hP hle
    · have hbind : rank ≤ o.level.rank := hbind
      have hmore : rank + 1 ≤ o.level.rank := by omega
      exact hoperand h ⟨⟨hlcan, hrcan, hlbind, hrbind⟩, hmore, Nat.max_le.2 hnest⟩ hnodes hstops
  | number | str | ident | neg | group =>
    have hrank : rank ≤ 2 := by
      rw [← hlevel]
      cases level <;> decide
    exact hoperand h ⟨ht.canonical, Nat.succ_le_succ hrank, ht.nesting⟩ hnodes hstops

theorem chain_parses (hP : Parses (rank + 1) room P) (hlevel : level.rank = rank) :
    Parses rank room (chain P level) where
  sound {s s' t} h := by
    obtain ⟨⟨lhs, s₁⟩, hlhs, h⟩ := bind_eq_ok.1 h
    obtain ⟨htakes, hfits, hnodes⟩ := hP.sound hlhs
    have hbinding := hfits.binding
    exact chainRest_sound hP hlevel htakes ⟨hfits.canonical, by omega, hfits.nesting⟩ hnodes h
  complete {s s' t} h ht hnodes hstops := by
    rw [chain_eq_chainRest hP hlevel h ht hnodes (hstops.mono (Nat.le_succ rank))]
    cases hs : s'.tokens with
    | nil => rfl
    | cons p r =>
      obtain ⟨token, offset⟩ := p
      rw [List.length_cons, chainRest, hs]
      cases token with
      | op o =>
        have ho : o.level ≠ level := by
          rintro rfl
          have := hstops o offset r hs
          omega
        simp only [ho, ↓reduceIte]
      | _ => rfl

theorem comparison_parses (hP : Parses 3 room P) : Parses 0 room (comparison P) := by
  have hmul : Parses 2 room (chain P .multiplicative) := chain_parses hP rfl
  have hadd : Parses 1 room (chain (chain P .multiplicative) .additive) := chain_parses hmul rfl
  exact chain_parses hadd rfl

theorem stops_three (ts : List Placed) : Stops 3 ts := fun o _ _ _ => o.level.rank_lt

theorem closeGroup_eq_ok {inner t : Tree} {s s' : State} :
    closeGroup inner s = .ok (t, s') ↔
      ∃ offset r, s.tokens = ⟨.rparen, offset⟩ :: r ∧ t = .group inner ∧ s' = ⟨r, s.nodes⟩ := by
  unfold closeGroup
  split
  · next offset r hs =>
    constructor
    · intro h
      cases h
      exact ⟨offset, r, hs, rfl, rfl⟩
    · rintro ⟨offset', r', hs', rfl, rfl⟩
      cases hs.symm.trans hs'
      rfl
  · next token offset r hne hs =>
    have hs' : ∀ offset' r', s.tokens ≠ ⟨.rparen, offset'⟩ :: r' := by
      intro offset' r' hs'
      cases hs.symm.trans hs'
      exact hne rfl
    simp [hs']
  · next hs => simp [hs]

theorem Takes.word {token : Token} {offset nodes : Nat} {r : List Placed} {t : Tree}
    (ht : t.tokens = [token]) (hsize : t.size = 1) :
    Takes ⟨⟨token, offset⟩ :: r, nodes⟩ t ⟨r, nodes + 1⟩ :=
  ⟨[⟨token, offset⟩], rfl, ht.symm, by rw [hsize]⟩

theorem Takes.of_word {token : Token} {s s' : State} {t : Tree} (h : Takes s t s')
    (ht : t.tokens = [token]) (hsize : t.size = 1) :
    ∃ offset r, s.tokens = ⟨token, offset⟩ :: r ∧ s' = ⟨r, s.nodes + 1⟩ := by
  obtain ⟨taken, htokens, htaken, hnodes⟩ := h
  rw [ht] at htaken
  obtain ⟨⟨token', offset⟩, rest, rfl, htoken, hrest⟩ := List.map_eq_cons_iff.1 htaken
  obtain rfl := List.map_eq_nil_iff.1 hrest
  cases htoken
  refine ⟨offset, s'.tokens, htokens, ?_⟩
  rw [hsize] at hnodes
  rw [← hnodes]

theorem Takes.neg {offset nodes : Nat} {r : List Placed} {t : Tree} {s' : State}
    (h : Takes ⟨r, nodes + 1⟩ t s') : Takes ⟨⟨.op .sub, offset⟩ :: r, nodes⟩ (.neg t) s' := by
  obtain ⟨taken, htokens, htaken, hnodes⟩ := h
  refine ⟨⟨.op .sub, offset⟩ :: taken, ?_, ?_, ?_⟩
  · simp only at htokens
    simp [htokens]
  · simp [Tree.tokens, htaken]
  · simp only at hnodes
    simp only [Tree.size]
    omega

theorem Takes.of_neg {s s' : State} {t : Tree} (h : Takes s (.neg t) s') :
    ∃ offset r, s.tokens = ⟨.op .sub, offset⟩ :: r ∧ Takes ⟨r, s.nodes + 1⟩ t s' := by
  obtain ⟨taken, htokens, htaken, hnodes⟩ := h
  obtain ⟨⟨token, offset⟩, rest, rfl, htoken, hrest⟩ := List.map_eq_cons_iff.1 htaken
  cases htoken
  refine ⟨offset, rest ++ s'.tokens, htokens, rest, rfl, hrest, ?_⟩
  simp only [hnodes, Tree.size]
  omega

theorem Takes.group {offset offset' nodes : Nat} {r r' : List Placed} {t : Tree} {s' : State}
    (h : Takes ⟨r, nodes + 1⟩ t s') (hs' : s'.tokens = ⟨.rparen, offset'⟩ :: r') :
    Takes ⟨⟨.lparen, offset⟩ :: r, nodes⟩ (.group t) ⟨r', s'.nodes⟩ := by
  obtain ⟨taken, htokens, htaken, hnodes⟩ := h
  refine ⟨⟨.lparen, offset⟩ :: (taken ++ [⟨.rparen, offset'⟩]), ?_, ?_, ?_⟩
  · simp only at htokens
    simp [htokens, hs']
  · simp [Tree.tokens, htaken]
  · simp only at hnodes ⊢
    simp only [Tree.size]
    omega

theorem Takes.of_group {s s' : State} {t : Tree} (h : Takes s (.group t) s') :
    ∃ offset offset' r, s.tokens = ⟨.lparen, offset⟩ :: r ∧
      Takes ⟨r, s.nodes + 1⟩ t ⟨⟨.rparen, offset'⟩ :: s'.tokens, s'.nodes⟩ := by
  obtain ⟨taken, htokens, htaken, hnodes⟩ := h
  obtain ⟨⟨token, offset⟩, rest, rfl, htoken, hrest⟩ := List.map_eq_cons_iff.1 htaken
  cases htoken
  obtain ⟨inner, last, rfl, hinner, hlast⟩ := List.map_eq_append_iff.1 hrest
  obtain ⟨⟨token, offset'⟩, nothing, rfl, htoken, hnothing⟩ := List.map_eq_cons_iff.1 hlast
  cases htoken
  obtain rfl := List.map_eq_nil_iff.1 hnothing
  refine ⟨offset, offset', _, htokens, inner, ?_, hinner, ?_⟩
  · simp
  · simp only [hnodes, Tree.size]
    omega

theorem operand_sound {s s' : State} {t : Tree}
    (hinner : ∀ m, room = m + 1 → Parses 3 m (operand m)) (h : operand room s = .ok (t, s')) :
    Takes s t s' ∧ Fits 3 room t ∧ s'.nodes ≤ maxNodes := by
  obtain ⟨ts, nodes⟩ := s
  rw [operand.eq_def] at h
  simp only at h
  split at h
  · cases h
  · obtain ⟨s₁, hcount, h⟩ := bind_eq_ok.1 h
    obtain ⟨hle, rfl⟩ := count_eq_ok.1 hcount
    cases h
    exact ⟨.word rfl rfl, ⟨trivial, Nat.le_refl 3, Nat.zero_le room⟩, hle⟩
  · obtain ⟨s₁, hcount, h⟩ := bind_eq_ok.1 h
    obtain ⟨hle, rfl⟩ := count_eq_ok.1 hcount
    cases h
    exact ⟨.word rfl rfl, ⟨trivial, Nat.le_refl 3, Nat.zero_le room⟩, hle⟩
  · obtain ⟨s₁, hcount, h⟩ := bind_eq_ok.1 h
    obtain ⟨hle, rfl⟩ := count_eq_ok.1 hcount
    cases h
    exact ⟨.word rfl rfl, ⟨trivial, Nat.le_refl 3, Nat.zero_le room⟩, hle⟩
  · split at h
    · cases h
    · next m =>
      obtain ⟨s₁, hcount, h⟩ := bind_eq_ok.1 h
      obtain ⟨-, rfl⟩ := count_eq_ok.1 hcount
      obtain ⟨⟨operand, s₂⟩, hread, h⟩ := bind_eq_ok.1 h
      cases h
      obtain ⟨htakes, hfits, hnodes⟩ := (hinner m rfl).sound hread
      have hbinding : operand.binding = 3 := by
        have hle := hfits.binding
        have hge := operand.binding_le
        omega
      exact ⟨htakes.neg, ⟨⟨hfits.canonical, hbinding⟩, Nat.le_refl 3,
        Nat.succ_le_succ hfits.nesting⟩, hnodes⟩
  · split at h
    · cases h
    · next m =>
      obtain ⟨s₁, hcount, h⟩ := bind_eq_ok.1 h
      obtain ⟨-, rfl⟩ := count_eq_ok.1 hcount
      obtain ⟨⟨inner, s₂⟩, hread, h⟩ := bind_eq_ok.1 h
      obtain ⟨htakes, hfits, hnodes⟩ := (comparison_parses (hinner m rfl)).sound hread
      obtain ⟨offset', r', hs₂, rfl, rfl⟩ := closeGroup_eq_ok.1 h
      exact ⟨htakes.group hs₂, ⟨hfits.canonical, Nat.le_refl 3, Nat.succ_le_succ hfits.nesting⟩,
        hnodes⟩
  · obtain ⟨s₁, -, h⟩ := bind_eq_ok.1 h
    cases h

theorem operand_complete {s s' : State} {t : Tree}
    (hinner : ∀ m, room = m + 1 → Parses 3 m (operand m)) (h : Takes s t s') (ht : Fits 3 room t)
    (hnodes : s'.nodes ≤ maxNodes) : operand room s = .ok (t, s') := by
  obtain ⟨ts, nodes⟩ := s
  cases t with
  | number | str | ident =>
    obtain ⟨offset, r, rfl, rfl⟩ := h.of_word rfl rfl
    rw [operand.eq_def]
    simp only [count_ok hnodes]
    rfl
  | neg operand =>
    obtain ⟨offset, r, rfl, hrest⟩ := h.of_neg
    obtain ⟨⟨hcanonical, hbinding⟩, -, hnesting⟩ := ht
    cases room with
    | zero => cases hnesting
    | succ m =>
      have hle : nodes + 1 ≤ maxNodes := by
        obtain ⟨-, -, -, hsum⟩ := hrest
        simp only at hsum
        omega
      have hread := (hinner m rfl).complete hrest
        ⟨hcanonical, Nat.le_of_eq hbinding.symm, Nat.le_of_succ_le_succ hnesting⟩ hnodes (stops_three _)
      rw [Parser.operand]
      simp only [count_ok hle, bind, Except.bind, hread]
      rfl
  | group inner =>
    obtain ⟨offset, offset', r, rfl, hrest⟩ := h.of_group
    cases room with
    | zero => cases ht.nesting
    | succ m =>
      have hle : nodes + 1 ≤ maxNodes := by
        obtain ⟨-, -, -, hsum⟩ := hrest
        simp only at hsum
        omega
      have hread := (comparison_parses (hinner m rfl)).complete hrest
        ⟨ht.canonical, Nat.zero_le _, Nat.le_of_succ_le_succ ht.nesting⟩ hnodes nofun
      rw [Parser.operand]
      simp only [count_ok hle, bind, Except.bind, hread]
      rfl
  | binary op lhs rhs =>
    have hlt : op.level.rank < 3 := op.level.rank_lt
    have hge : 3 ≤ op.level.rank := ht.binding
    omega

theorem operand_parses (room : Nat) : Parses 3 room (operand room) := by
  induction room with
  | zero =>
    have hinner : ∀ m, 0 = m + 1 → Parses 3 m (operand m) := nofun
    exact ⟨operand_sound hinner, fun h ht hnodes _ => operand_complete hinner h ht hnodes⟩
  | succ room ih =>
    have hinner : ∀ m, room + 1 = m + 1 → Parses 3 m (operand m) := by
      intro m hm
      cases hm
      exact ih
    exact ⟨operand_sound hinner, fun h ht hnodes _ => operand_complete hinner h ht hnodes⟩

end Parser

theorem takes_all_iff {ts : List Placed} {t : Tree} :
    Parser.Takes ⟨ts, 0⟩ t ⟨[], t.size⟩ ↔ t.tokens = ts.map Placed.token := by
  constructor
  · rintro ⟨taken, htokens, htaken, -⟩
    simp only [List.append_nil] at htokens
    rw [htokens, htaken]
  · intro h
    exact ⟨ts, by simp, h.symm, by simp⟩

theorem parse_of_tokens {ts : List Placed} {t : Tree} (hcanonical : t.Canonical)
    (htokens : t.tokens = ts.map Placed.token) (hsize : t.size ≤ maxNodes)
    (hnesting : t.nesting ≤ maxNesting) : parse ts = .ok t := by
  have hparses := Parser.comparison_parses (Parser.operand_parses maxNesting)
  have hread := hparses.complete (takes_all_iff.2 htokens) ⟨hcanonical, Nat.zero_le _, hnesting⟩
    hsize nofun
  unfold parse
  split
  · exact absurd htokens t.tokens_ne_nil
  · rw [hread]
    rfl

/-- The tokens of canonical trees of at most 1024 nodes that are nested at most 256 deep. -/
theorem parse_eq_ok_iff {ts : List Placed} {t : Tree} :
    parse ts = .ok t ↔ t.Canonical ∧ t.tokens = ts.map Placed.token ∧ t.size ≤ 1024 ∧
      t.nesting ≤ 256 := by
  constructor
  · intro h
    unfold parse at h
    split at h
    · cases h
    · obtain ⟨⟨u, s⟩, hread, h⟩ := bind_eq_ok.1 h
      obtain ⟨hu, hfits, hnodes⟩ :=
        (Parser.comparison_parses (Parser.operand_parses maxNesting)).sound hread
      obtain ⟨rest, nodes⟩ := s
      cases rest with
      | cons extra rest => cases h
      | nil =>
        cases h
        obtain rfl : nodes = t.size := by
          obtain ⟨-, -, -, hsum⟩ := hu
          simpa using hsum
        exact ⟨hfits.canonical, takes_all_iff.1 hu, hnodes, hfits.nesting⟩
  · rintro ⟨hcanonical, htokens, hsize, hnesting⟩
    exact parse_of_tokens hcanonical htokens hsize hnesting

end FlowGraph.Expression
