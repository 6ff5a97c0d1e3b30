import ZenithBot.Delivery.Life

/-! One remote envelope runs at most one turn. `step_change` says once what a transaction of the
    ledger can do to the table; the invariant and the comparison of an earlier with a later state
    of one row follow from it and from the moves of `Life`. -/

namespace Delivery
open Table

variable {claimDigest : Claim → String} {intentDigest : Intent → String} {sha256 : String → String}
variable {l l' : Ledger} {r' : Row} {o : Op} {p : Row → Bool} {f : Row → Row}

/-- Everything a committed transaction of `o` can do to the ledger. -/
inductive Change (intentDigest : Intent → String) (o : Op) (l : Ledger) : Ledger → Prop
  | keep : Change intentDigest o l l
  | update (p : Row → Bool) (f : Row → Row) (hf : ∀ r, (f r).envelopeId = r.envelopeId)
      (hmove : ∀ r ∈ l, p r = true → Move r.life (f r).life)
      (hresp : ∀ r ∈ l, p r = true →
        Response.Move intentDigest o r.envelopeId r.response (f r).response)
      (hown : OwnersUnique l → OwnersUnique (l.updateWhere p f hf)) :
      Change intentDigest o l (l.updateWhere p f hf)
  | receive (now : Int) (row : Row) (l' : Ledger) (hstate : row.state = .prepared)
      (hq : row.queuedId = none) (hr : row.runId = none) (hblank : row.response = .blank)
      (hroom : (expirePrepared l now).countWhere nonterminal < maxNonterminalDeliveries)
      (hins : (expirePrepared l now).insert? row = some l') : Change intentDigest o l l'
  | prune (p : Row → Bool) (hp : ∀ r, p r = true → r.state.terminal = true) :
      Change intentDigest o l (l.deleteWhere p)

lemma checked_ok (h : checked l = .ok l') : l' = l ∧ OwnersUnique l := by
  unfold checked at h
  split at h
  · rename_i hu
    cases h; exact ⟨rfl, hu⟩
  · cases h

/-- An assignment that leaves both owner columns alone keeps their unique indexes. -/
lemma OwnersUnique.update (h : OwnersUnique l)
    {hf : ∀ r, (f r).envelopeId = r.envelopeId} (hq : ∀ r, (f r).queuedId = r.queuedId)
    (hr : ∀ r, (f r).runId = r.runId) : OwnersUnique (l.updateWhere p f hf) :=
  ⟨h.1.updateWhere hq, h.2.updateWhere hr⟩

/-- An assignment that leaves every guarded column alone. -/
lemma Change.quiet (hf : ∀ r, (f r).envelopeId = r.envelopeId)
    (h : ∀ r, (f r).life = r.life) (hresp : ∀ r ∈ l, p r = true →
      Response.Move intentDigest o r.envelopeId r.response (f r).response) :
    Change intentDigest o l (l.updateWhere p f hf) := by
  refine .update p f hf (fun r _ _ => ?_) hresp (fun hu => hu.update (fun r => ?_) fun r => ?_)
  · rw [h r]; exact .stay _
  · exact congrArg Life.queuedId (h r)
  · exact congrArg Life.runId (h r)

section Operations
variable {l l' : Ledger} {id : String} {now : Int}
variable {out : Option Row} {e : String} {expected : List State} {patch : Patch} {req : String}
  {s : State}

lemma prepare_change {env : Envelope} {role connection lease chat : String} {fresh : Bool}
    (h : prepare claimDigest l env role connection lease chat now = .ok (l', out, fresh)) :
    Change intentDigest o l l' := by
  unfold prepare at h
  split at h
  · cases h
  · split at h
    · split at h
      · cases h
      · split at h
        · cases h
          refine .update _ _ _ (fun r _ hp => ?_) (fun _ _ _ => .keep _) (fun hu => hu.update (fun _ => rfl) fun _ => rfl)
          simp only [Bool.and_eq_true, decide_eq_true_eq] at hp
          exact .lease r.life lease hp.1.2
        · cases h; exact .keep
    · dsimp only at h
      split at h
      · cases h
      · rename_i hroom
        split at h
        · cases h
        · rename_i hins
          cases h
          exact .receive now _ _ rfl rfl rfl rfl (Nat.lt_of_not_le hroom) hins

lemma transition_eq (h : transition l id expected s patch now = .ok (l', out)) :
    let hit := fun r : Row => decide (r.envelopeId = id) && decide (r.state ∈ expected)
    l' = l.updateWhere hit (patch.apply s now) (fun _ => rfl) := by
  unfold transition at h
  simp only at h
  split at h
  · cases h
  · rename_i hc
    obtain ⟨rfl, _⟩ := checked_ok hc
    split at h <;> cases h <;> rfl

lemma transition_change (hq : patch.queuedId = none) (hr : patch.runId = none)
    (hmove : ∀ g : Life, g.state ∈ expected → Move g { g with state := s })
    (h : transition l id expected s patch now = .ok (l', out)) : Change intentDigest o l l' := by
  obtain rfl := transition_eq h
  refine .update _ _ _ (fun r _ hp => ?_) (fun _ _ _ => .keep _) (fun hu => hu.update (fun r => ?_) fun r => ?_)
  · simp only [Bool.and_eq_true, decide_eq_true_eq] at hp
    have hm := hmove r.life hp.2
    simpa [Row.life, Patch.apply, hq, hr] using hm
  · simp [Patch.apply, hq]
  · simp [Patch.apply, hr]

lemma authorize_change (h : authorize l id now = .ok (l', out)) : Change intentDigest o l l' :=
  transition_change rfl rfl (fun g hg => .authorize g (by simpa using hg)) h

lemma finish_change {ok : Bool} {text : String} {e : Option String}
    (h : finish sha256 l id ok text e now = .ok (l', out)) : Change intentDigest o l l' := by
  refine transition_change rfl rfl (fun g hg => .settle g _ ?_ ?_) h
  · cases ok <;> cases hs : g.state <;> simp_all [State.terminal]
  · cases ok <;> rfl

lemma failOwnerlessAuthorized_change (h : failOwnerlessAuthorized l id e now = .ok (l', out)) :
    Change intentDigest o l l' := by
  cases h
  refine .update _ _ _ (fun r _ hp => ?_) (fun _ _ _ => .keep _) (fun hu => hu.update (fun _ => rfl) fun _ => rfl)
  simp only [Bool.and_eq_true, decide_eq_true_eq] at hp
  exact .settle r.life .failed (by simp [Row.life, hp.1.1.2, State.terminal]) rfl

lemma bindOwner_change {queuedId runId : Option String}
    (h : bindOwner l id queuedId runId now = .ok (l', out)) : Change intentDigest o l l' := by
  unfold bindOwner at h
  split at h
  · cases h
  rename_i hsome
  split at h
  · cases h; exact .keep
  split at h
  · -- authorized: both owner columns are written
    dsimp only at h
    split at h
    · cases h
    rename_i hc
    cases h
    obtain ⟨rfl, hu⟩ := checked_ok hc
    refine .update _ _ _ (fun r _ hp => ?_) (fun _ _ _ => .keep _) fun _ => hu
    simp only [Bool.and_eq_true, decide_eq_true_eq] at hp
    obtain ⟨⟨⟨-, hs⟩, hq⟩, hr⟩ := hp
    cases runId with
    | some run => exact .bindRun r.life queuedId run hs hq hr
    | none =>
      cases queuedId with
      | some q =>
        have hm := Move.bindQueued r.life q hs hq hr
        simpa [Row.life, hr] using hm
      | none => exact absurd ⟨rfl, rfl⟩ hsome
  · split at h
    · cases h; exact .keep
    split at h
    · cases h; exact .keep
    rename_i hrun
    split at h
    · cases h
    rename_i hc
    cases h
    obtain ⟨rfl, hu⟩ := checked_ok hc
    refine .update _ _ _ (fun r _ hp => ?_) (fun _ _ _ => .keep _) fun _ => hu
    simp only [Bool.and_eq_true, decide_eq_true_eq] at hp
    obtain ⟨run, rfl⟩ := Option.ne_none_iff_exists'.1 hrun
    exact .promote r.life run hp.1.1.1.2 hp.2
  · split at h <;> cases h <;> exact .keep
  · cases h; exact .keep

lemma deferAdmission_change (h : deferAdmission l id e now = .ok (l', out)) : Change intentDigest o l l' := by
  unfold deferAdmission at h
  split at h
  · cases h; exact .keep
  split at h
  · cases h; exact .keep
  · cases h; exact .quiet _ (fun _ => rfl) fun _ _ _ => .keep _

lemma prepareResponse_change {req body : String} {rr : Bool}
    (h : prepareResponse intentDigest l id req body rr now = .ok (l', out)) :
    Change intentDigest (.prepareResponse id req body rr now) l l' := by
  unfold prepareResponse at h
  split at h
  · cases h
  simp only at h
  split at h
  · cases h; exact .keep
  split at h
  · cases h; exact .keep
  split at h
  · split at h <;> cases h
    exact .keep
  · cases h
    refine .quiet _ (fun _ => rfl) fun r _ hp => ?_
    simp only [Bool.and_eq_true, decide_eq_true_eq, Bool.not_eq_true'] at hp
    obtain ⟨⟨⟨rfl, hd⟩, hc⟩, -⟩ := hp
    exact .prepare r.response ⟨req, body, rr⟩ now hc hd rfl

lemma deferResponse_change (h : deferResponse l id req e now = .ok (l', out)) :
    Change intentDigest o l l' := by
  unfold deferResponse at h
  split at h
  · cases h; exact .keep
  split at h
  · cases h; exact .keep
  · cases h; exact .quiet _ (fun _ => rfl) fun _ _ _ => .keep _

lemma markResponseCommitted_change {req : Option String}
    (h : markResponseCommitted l id req now = .ok (l', out)) :
    Change intentDigest (.markResponseCommitted id req now) l l' := by
  cases h
  refine .quiet (fun _ => by rfl) (fun _ => rfl) fun r _ hp => ?_
  simp only [Bool.and_eq_true, Bool.or_eq_true, decide_eq_true_eq, Bool.not_eq_true'] at hp
  obtain ⟨⟨⟨rfl, -⟩, hc⟩, hreq⟩ := hp
  exact .mark r.response req now hc hreq rfl

lemma clearResponseIntent_change
    (h : clearResponseIntent l id req now = .ok (l', out)) : Change intentDigest o l l' := by
  cases h
  refine .quiet (fun _ => by rfl) (fun _ => rfl) fun r _ hp => ?_
  simp only [Bool.and_eq_true, Bool.not_eq_true'] at hp
  exact .clear r.response hp.1.2

end Operations

lemma map_fst_ok {α β ε : Type} {x : Except ε (α × β)} {a : α} (h : x.map Prod.fst = .ok a) :
    ∃ b, x = .ok (a, b) := by
  match x with
  | .ok (a', b) => cases h; exact ⟨b, rfl⟩
  | .error _ => cases h

/-- INVERSION: what one operation of the ledger can do. -/
theorem step_change (l : Ledger) (o : Op) :
    Change intentDigest o l (step claimDigest intentDigest sha256 l o) := by
  unfold step
  split
  · rename_i l' h
    cases o with
    | prepare =>
      obtain ⟨⟨row, fresh⟩, h⟩ := map_fst_ok h
      exact prepare_change h
    | authorize => obtain ⟨_, h⟩ := map_fst_ok h; exact authorize_change h
    | failOwnerlessAuthorized => cases h; exact failOwnerlessAuthorized_change rfl
    | bindOwner => obtain ⟨_, h⟩ := map_fst_ok h; exact bindOwner_change h
    | deferAdmission => obtain ⟨_, h⟩ := map_fst_ok h; exact deferAdmission_change h
    | finish => obtain ⟨_, h⟩ := map_fst_ok h; exact finish_change h
    | prepareResponse => obtain ⟨_, h⟩ := map_fst_ok h; exact prepareResponse_change h
    | markResponseCommitted => cases h; exact markResponseCommitted_change rfl
    | clearResponseIntent => cases h; exact clearResponseIntent_change rfl
    | deferResponse => obtain ⟨_, h⟩ := map_fst_ok h; exact deferResponse_change h
    | prune =>
      cases h
      refine .prune _ fun r hr => ?_
      simp only [Bool.and_eq_true] at hr
      exact hr.1
  · exact .keep

/-! ### The invariant -/

/-- What holds of the ledger between any two transactions. -/
structure LedgerOk (l : Ledger) : Prop where
  owned : ∀ r ∈ l, r.life.Owned
  owners : OwnersUnique l
  capacity : l.countWhere nonterminal ≤ maxNonterminalDeliveries

lemma ledgerOk_empty : LedgerOk .empty where
  owned := fun r hr => absurd hr (not_mem_empty r)
  owners := by decide
  capacity := Nat.zero_le _

/-- Expiry is an update like any other. -/
lemma expirePrepared_move {now : Int} (h : r' ∈ expirePrepared l now) :
    ∃ r ∈ l, r'.envelopeId = r.envelopeId ∧ Move r.life r'.life ∧
      Response.Move intentDigest o r.envelopeId r.response r'.response := by
  obtain ⟨r, hr, rfl⟩ := mem_updateWhere.1 h
  refine ⟨r, hr, ?_⟩
  split
  · rename_i hp
    simp only [Bool.and_eq_true, decide_eq_true_eq] at hp
    exact ⟨rfl, .settle r.life .failed (by simp [Row.life, hp.1, State.terminal]) rfl, .keep _⟩
  · exact ⟨rfl, .stay _, .keep _⟩

section
variable (h : Change intentDigest o l l')
include h

/-- Every row after a transaction continues a row before it or was admitted by it. -/
lemma Change.rows (hr' : r' ∈ l') :
    (∃ r ∈ l, r'.envelopeId = r.envelopeId ∧ Move r.life r'.life ∧
      Response.Move intentDigest o r.envelopeId r.response r'.response) ∨
      (r'.state = .prepared ∧ r'.queuedId = none ∧ r'.runId = none ∧ r'.response = .blank ∧
        ∀ r ∈ l, r.envelopeId ≠ r'.envelopeId) := by
  cases h with
  | keep => exact .inl ⟨r', hr', rfl, .stay _, .keep _⟩
  | update p f hf hmove hresp hown =>
    obtain ⟨r, hr, rfl⟩ := mem_updateWhere.1 hr'
    refine .inl ⟨r, hr, ?_⟩
    split
    · rename_i hp
      exact ⟨hf r, hmove r hr hp, hresp r hr hp⟩
    · exact ⟨rfl, .stay _, .keep _⟩
  | receive now row _ hstate hq hr hblank hroom hins =>
    rcases (mem_insert? hins).1 hr' with hold | rfl
    · exact .inl (expirePrepared_move hold)
    · refine .inr ⟨hstate, hq, hr, hblank, fun r hrl => ?_⟩
      have := (insert?_eq_some hins).2 _ (mem_updateWhere.2 ⟨r, hrl, rfl⟩)
      split at this <;> exact this
  | prune p hp => exact .inl ⟨r', (mem_deleteWhere.1 hr').1, rfl, .stay _, .keep _⟩

/-- A row and its continuation are one move apart. -/
lemma Change.move {r : Row} (hr : r ∈ l) (hr' : r' ∈ l') (hk : r'.envelopeId = r.envelopeId) :
    Move r.life r'.life := by
  rcases h.rows hr' with ⟨x, hx, hxk, hm, -⟩ | ⟨-, -, -, -, hnew⟩
  · rw [l.eq_of_key hr hx (hk.symm.trans hxk)]; exact hm
  · exact absurd hk.symm (hnew r hr)

lemma Change.owned (ho : ∀ r ∈ l, r.life.Owned) : ∀ r ∈ l', r.life.Owned := by
  intro r' hr'
  rcases h.rows hr' with ⟨r, hr, -, hm, -⟩ | ⟨hs, hq, hrun, -⟩
  · exact hm.owned (ho r hr)
  · simp [Life.Owned, Row.life, hs, hq, hrun]

lemma Change.owners (ho : OwnersUnique l) : OwnersUnique l' := by
  cases h with
  | keep => exact ho
  | update p f hf hmove _ hown => exact hown ho
  | receive now row _ hstate hq hr _ hroom hins =>
    have he : OwnersUnique (expirePrepared l now) := ho.update (fun _ => rfl) fun _ => rfl
    exact ⟨he.1.insert? hq hins, he.2.insert? hr hins⟩
  | prune p hp => exact ⟨ho.1.deleteWhere p, ho.2.deleteWhere p⟩

lemma Change.capacity (hc : l.countWhere nonterminal ≤ maxNonterminalDeliveries) :
    l'.countWhere nonterminal ≤ maxNonterminalDeliveries := by
  cases h with
  | keep => exact hc
  | update p f hf hmove _ hown =>
    refine Nat.le_trans (countWhere_updateWhere_le fun r hr hp hn => ?_) hc
    simp only [nonterminal, Bool.not_eq_true'] at hn ⊢
    exact (hmove r hr hp).nonterminal hn
  | receive now row _ hstate hq hr _ hroom hins =>
    have := countWhere_insert? nonterminal hins
    omega
  | prune p hp => exact Nat.le_trans (countWhere_deleteWhere_le l p _) hc

lemma Change.ok (hl : LedgerOk l) : LedgerOk l' :=
  ⟨h.owned hl.owned, h.owners hl.owners, h.capacity hl.capacity⟩

end

/-! ### Whole runs -/

section Runs
variable (claimDigest : Claim → String) (intentDigest : Intent → String) (sha256 : String → String)

def ledgerAfter (ops : List Op) : Ledger :=
  Lib.run (step claimDigest intentDigest sha256) .empty ops

/-- The row of `id` is not pruned by any of `ops`: it is there after each of them. -/
def Kept (id : String) (l : Ledger) (ops : List Op) : Prop :=
  Lib.Along (step claimDigest intentDigest sha256)
    (fun l o => ∃ r ∈ step claimDigest intentDigest sha256 l o, r.envelopeId = id) l ops

variable {claimDigest intentDigest sha256}

lemma ledgerOk_after (ops : List Op) : LedgerOk (ledgerAfter claimDigest intentDigest sha256 ops) :=
  Lib.run_inv (fun l o hl => (step_change l o).ok hl) ops .empty ledgerOk_empty

lemma evolves_run : ∀ (ops : List Op) (l : Ledger) (r r' : Row), r ∈ l →
    Kept claimDigest intentDigest sha256 r.envelopeId l ops →
    r' ∈ Lib.run (step claimDigest intentDigest sha256) l ops → r'.envelopeId = r.envelopeId →
    Evolves r.life r'.life
  | [], l, r, r', hr, _, hr', hk => by rw [l.eq_of_key hr' hr hk]; exact .refl _
  | o :: ops, l, r, r', hr, ⟨⟨x, hx, hxk⟩, hrest⟩, hr', hk => by
    have hm := (step_change l o).move hr hx hxk
    have hrun := evolves_run ops _ x r' hx (by rw [hxk]; exact hrest) hr' (hk.trans hxk.symm)
    exact hm.evolves.trans hrun

/-- SAFE (one turn per envelope): after any operations the owners of a row fit its state, no two rows
    share an owner and the open rows fit the capacity; until a row is pruned, its claim is fixed, its state
    only moves forward and its owners stay; and a lease token is replaced only within `prepared`. -/
theorem ledger_safe (claimDigest : Claim → String) (intentDigest : Intent → String)
    (sha256 : String → String) (ops : List Op) :
    let l := ledgerAfter claimDigest intentDigest sha256 ops
    (∀ r ∈ l, r.life.Owned) ∧
    (∀ r ∈ l, ∀ r' ∈ l, ∀ q, r.queuedId = some q → r'.queuedId = some q → r = r') ∧
    (∀ r ∈ l, ∀ r' ∈ l, ∀ run, r.runId = some run → r'.runId = some run → r = r') ∧
    l.countWhere nonterminal ≤ maxNonterminalDeliveries ∧
    (∀ r ∈ l, ∀ more, Kept claimDigest intentDigest sha256 r.envelopeId l more →
      ∀ r' ∈ ledgerAfter claimDigest intentDigest sha256 (ops ++ more),
        r'.envelopeId = r.envelopeId →
        Evolves r.life r'.life ∧ (r.state.terminal = true → r'.state = r.state)) ∧
    (∀ r ∈ l, ∀ o, ∀ r' ∈ step claimDigest intentDigest sha256 l o,
      r'.envelopeId = r.envelopeId → r'.leaseToken ≠ r.leaseToken →
      r.state = .prepared ∧ r'.state = .prepared) := by
  intro l
  have hok : LedgerOk l := ledgerOk_after ops
  refine ⟨hok.owned, ?_, ?_, hok.capacity, ?_, ?_⟩
  · intro r hr r' hr' q hq hq'
    exact hok.owners.1.eq hr hr' hq hq'
  · intro r hr r' hr' run hrun hrun'
    exact hok.owners.2.eq hr hr' hrun hrun'
  · intro r hr more hkept r' hr' hk
    rw [ledgerAfter, Lib.run_append] at hr'
    have hev := evolves_run more l r r' hr hkept hr' hk
    exact ⟨hev, hev.absorbing⟩
  · intro r hr o r' hr' hk hlease
    exact ((step_change l o).move hr hr' hk).lease_prepared hlease

end Runs

end Delivery
