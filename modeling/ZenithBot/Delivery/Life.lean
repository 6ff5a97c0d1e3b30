import ZenithBot.Delivery.Ledger

/-! The life of one delivery, apart from the table it is stored in: the columns that say what the
    delivery is and who owns it, the moves between them, and what an earlier and a later sight of
    the same delivery have in common. `Safety` shows that the ledger's transactions make no other
    moves. -/

namespace Delivery
variable {g g' : Life} {s : State}

/-- The guarded columns of a delivery. -/
structure Life where
  claim : Claim
  (claimDigest leaseToken : String)
  state : State
  (queuedId runId : Option String)

def Row.life (r : Row) : Life :=
  ⟨r.claim, r.claimDigest, r.leaseToken, r.state, r.queuedId, r.runId⟩

/-- One step in the life of a delivery. -/
inductive Move : Life → Life → Prop
  | stay (g : Life) : Move g g
  | lease (g : Life) (token : String) (h : g.state = .prepared) :
      Move g { g with leaseToken := token }
  | authorize (g : Life) (h : g.state = .prepared ∨ g.state = .authorized) :
      Move g { g with state := .authorized }
  | settle (g : Life) (s : State) (h : g.state.terminal = false) (hs : s.terminal = true) :
      Move g { g with state := s }
  | bindQueued (g : Life) (q : String) (h : g.state = .authorized) (hq : g.queuedId = none)
      (hr : g.runId = none) : Move g { g with state := .queued, queuedId := some q }
  | bindRun (g : Life) (q : Option String) (r : String) (h : g.state = .authorized)
      (hq : g.queuedId = none) (hr : g.runId = none) :
      Move g { g with state := .running, queuedId := q, runId := some r }
  | promote (g : Life) (r : String) (h : g.state = .queued) (hr : g.runId = none) :
      Move g { g with state := .running, runId := some r }

/-- The owners a delivery has in each state. -/
def Life.Owned (g : Life) : Prop :=
  match g.state with
  | .prepared | .authorized => g.queuedId = none ∧ g.runId = none
  | .queued => g.queuedId.isSome ∧ g.runId = none
  | .running => g.runId.isSome
  | .completed | .failed => True

/-- Position on the way prepared, authorized, queued, running, completed or failed. -/
def State.rank : State → Nat
  | .prepared => 0
  | .authorized => 1
  | .queued => 2
  | .running => 3
  | .completed | .failed => 4

/-- The response columns of a delivery. -/
structure Response where
  committed : Bool
  (requestId digest body : Option String)
  requestResponse : Option Bool

def Row.response (r : Row) : Response :=
  ⟨r.responseCommitted, r.responseRequestId, r.responseRequestDigest, r.responseBody,
    r.responseRequestResponse⟩

def Response.blank : Response := ⟨false, none, none, none, none⟩

/-- One step in the life of the response to `id`, and the operation that takes it. -/
inductive Response.Move (intentDigest : Intent → String) (o : Op) (id : String) :
    Response → Response → Prop
  | keep (g : Response) : Move intentDigest o id g g
  | prepare (g : Response) (i : Intent) (now : Int) (hc : g.committed = false)
      (hd : g.digest = none) (ho : o = .prepareResponse id i.requestId i.body i.requestResponse now) :
      Move intentDigest o id g ⟨g.committed, some i.requestId, some (intentDigest i), some i.body,
        some i.requestResponse⟩
  | mark (g : Response) (req : Option String) (now : Int) (hc : g.committed = false)
      (hreq : req = none ∨ g.requestId = req) (ho : o = .markResponseCommitted id req now) :
      Move intentDigest o id g { g with committed := true }
  | clear (g : Response) (hc : g.committed = false) :
      Move intentDigest o id g ⟨g.committed, none, none, none, none⟩

/-- What a later sight of a delivery keeps of an earlier one. -/
structure Evolves (g g' : Life) : Prop where
  claim : g'.claim = g.claim
  claimDigest : g'.claimDigest = g.claimDigest
  forward : g'.state = g.state ∨ g.state.rank < g'.state.rank
  run : ∀ r, g.runId = some r → g'.runId = some r
  queued : ∀ q, g.queuedId = some q → g'.queuedId = some q
  lease : g.state ≠ .prepared → g'.leaseToken = g.leaseToken

lemma rank_of_terminal (h : s.terminal = true) : s.rank = 4 := by
  cases s <;> simp_all [State.terminal, State.rank]

lemma rank_lt_of_nonterminal (h : s.terminal = false) : s.rank < 4 := by
  cases s <;> simp_all [State.terminal, State.rank]

lemma rank_le (s : State) : s.rank ≤ 4 := by cases s <;> simp [State.rank]

lemma Evolves.absorbing (h : Evolves g g') (ht : g.state.terminal = true) : g'.state = g.state := by
  rcases h.forward with he | hlt
  · exact he
  · have := rank_of_terminal ht
    have := rank_le g'.state
    omega

lemma Evolves.refl (g : Life) : Evolves g g :=
  ⟨rfl, rfl, .inl rfl, fun _ h => h, fun _ h => h, fun _ => rfl⟩

lemma Evolves.trans {a b c : Life} (h1 : Evolves a b) (h2 : Evolves b c) : Evolves a c where
  claim := h2.claim.trans h1.claim
  claimDigest := h2.claimDigest.trans h1.claimDigest
  forward := by
    rcases h1.forward with e | l <;> rcases h2.forward with e' | l'
    · exact .inl (e'.trans e)
    · exact .inr (e ▸ l')
    · exact .inr (e' ▸ l)
    · exact .inr (Nat.lt_trans l l')
  run := fun r h => h2.run r (h1.run r h)
  queued := fun q h => h2.queued q (h1.queued q h)
  lease := by
    intro ha
    -- a delivery past `prepared` cannot come back to it
    have hb : b.state ≠ .prepared := by
      rcases h1.forward with e | l
      · exact e ▸ ha
      · intro hp; rw [hp] at l; exact absurd l (Nat.not_lt_zero _)
    rw [h2.lease hb, h1.lease ha]

lemma Move.evolves (h : Move g g') : Evolves g g' := by
  cases h with
  | stay => exact .refl g
  | lease t hp => exact ⟨rfl, rfl, .inl rfl, fun _ h => h, fun _ h => h, fun hn => absurd hp hn⟩
  | authorize hs =>
    refine ⟨rfl, rfl, ?_, fun _ h => h, fun _ h => h, fun _ => rfl⟩
    rcases hs with h | h
    · exact .inr (by simp [h, State.rank])
    · exact .inl h.symm
  | settle s hn ht =>
    refine ⟨rfl, rfl, .inr ?_, fun _ h => h, fun _ h => h, fun _ => rfl⟩
    rw [show State.rank s = 4 from rank_of_terminal ht]; exact rank_lt_of_nonterminal hn
  | bindQueued q hs hq hr =>
    refine ⟨rfl, rfl, .inr (by simp [hs, State.rank]), fun _ h => h, ?_, fun _ => rfl⟩
    intro x hx; rw [hq] at hx; cases hx
  | bindRun q r hs hq hr =>
    refine ⟨rfl, rfl, .inr (by simp [hs, State.rank]), ?_, ?_, fun _ => rfl⟩
    · intro x hx; rw [hr] at hx; cases hx
    · intro x hx; rw [hq] at hx; cases hx
  | promote r hs hr =>
    refine ⟨rfl, rfl, .inr (by simp [hs, State.rank]), ?_, fun _ h => h, fun _ => rfl⟩
    intro x hx; rw [hr] at hx; cases hx

/-- A move that changes the lease token begins and ends in `prepared`. -/
lemma Move.lease_prepared (h : Move g g') (hl : g'.leaseToken ≠ g.leaseToken) :
    g.state = .prepared ∧ g'.state = .prepared := by
  cases h with
  | lease t hp => exact ⟨hp, hp⟩
  | _ => exact absurd rfl hl

lemma Move.owned (h : Move g g') (hg : g.Owned) : g'.Owned := by
  cases h with
  | stay => exact hg
  | lease t hp => simpa [Life.Owned] using hg
  | authorize hs => rcases hs with h | h <;> simpa [Life.Owned, h] using hg
  | settle s hn ht => cases s <;> simp_all [Life.Owned, State.terminal]
  | bindQueued q hs hq hr => simp [Life.Owned, hr]
  | bindRun q r hs hq hr | promote r hs hr => simp [Life.Owned]

lemma Move.nonterminal (h : Move g g') (ht : g'.state.terminal = false) :
    g.state.terminal = false := by
  cases hg : g.state.terminal with
  | false => rfl
  | true => rw [h.evolves.absorbing hg, hg] at ht; cases ht

end Delivery
