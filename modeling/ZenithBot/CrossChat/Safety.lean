import ZenithBot.CrossChat.Chain

/-! Every exchange transaction keeps the chains, so every run of the store does. -/

namespace CrossChat
open Table

variable {sha256 : String → String}
variable {s s' : Store} {a t : String} {status : ExchangeStatus} {p : Exchange → Bool}
  {error errorCode : Option String} {e : Exchange} {l : Leg}

lemma StoreOk.congr (hs : StoreOk s) (he : s'.exchanges = s.exchanges) (hl : s'.legs = s.legs) :
    StoreOk s' := by
  have hq : Quiet s s' := by
    refine ⟨fun e h => ⟨e, he ▸ h, .refl e, .inl rfl⟩, fun l h => ⟨l, hl ▸ h, .refl l, .inl rfl⟩,
      fun e h => ⟨e, he ▸ h, .refl e⟩, fun l h => ⟨l, hl ▸ h, .refl l⟩⟩
  exact hq.ok hs

/-! ### Endings -/

lemma quiet_settle (h : status.terminal = true) : Quiet s (s.settle p status errorCode error t) :=
  quiet_updateExchanges (fun _ => ⟨rfl, rfl, rfl, rfl, rfl, rfl⟩) fun _ _ _ => .inr h

/-- Settling an exchange and closing a leg of it in one transaction, in either order. -/
lemma quiet_settle_legs {q : Leg → Bool} {f : Leg → Leg} {hf : ∀ l, (f l).id = l.id}
    (h : status.terminal = true) (hsame : ∀ l : Leg, l.Same (f l))
    (hend : ∀ l ∈ s.legs, q l = true → Ended (s.settle p status errorCode error t) l)
    (hclosed : ∀ l, (f l).responseState = .closed) :
    Quiet s ((s.updateLegs q f hf).settle p status errorCode error t) := by
  have hq : Quiet s ((s.settle p status errorCode error t).updateLegs q f hf) :=
    (quiet_settle h).trans (quiet_updateLegs hsame fun l hl hp => .inr ⟨hclosed l, hend l hl hp⟩)
  exact hq

/-- Where `p` covers every active exchange of `l`, settling ends the exchange of `l`. -/
lemma ended_settle (h : status.terminal = true)
    (hp : ∀ e ∈ s.exchanges, e.id = l.exchangeId → e.status = .active → p e = true) :
    Ended (s.settle p status errorCode error t) l := by
  intro x hx hid hact
  obtain ⟨e, he, rfl⟩ := mem_updateExchanges.1 hx
  by_cases hpe : p e = true
  · rw [if_pos hpe] at hact
    simp only [Exchange.settle] at hact
    rw [hact] at h; cases h
  · rw [if_neg hpe] at hact hid
    exact hpe (hp e he hid hact)

/-! ### New exchanges -/

lemma no_legs_of_new (hs : Keys s) (hnew : ∀ x ∈ s.exchanges, x.id ≠ e.id) :
    ∀ l ∈ s.legs, l.exchangeId ≠ e.id := by
  intro l hl heq
  obtain ⟨x, hx, hid⟩ := hs.owner l hl
  exact hnew x hx (hid.trans heq)

lemma Keys.insertExchange (hs : Keys s) (h : insertExchange s e = .ok s') : Keys s' := by
  obtain ⟨-, t, ht, rfl⟩ := insertExchange_ok h
  refine hs.frame (fun x hx => ⟨x, ?_, rfl⟩) fun l hl => ⟨l, hl, .refl l, fun _ => .inl rfl⟩
  exact (mem_insert? ht).2 (.inl hx)

/-- What a transaction can do to exchanges and legs: rewrite them quietly, or add one of them. -/
inductive Move (sha256 : String → String) (s : Store) : Store → Prop
  | quiet {s' : Store} : Quiet s s' → Move sha256 s s'
  | obligation {e : Exchange} {s' : Store} : insertExchange s e = .ok s' → e.usedLegs = 0 →
      e.activeLegId = none → e.status = .waitingRequest → Move sha256 s s'
  | request {e : Exchange} {l : Leg} {s₁ s₂ s' : Store} : s₁.exchanges = s.exchanges →
      s₁.legs = s.legs → insertExchange s₁ e = .ok s₂ → insertLeg s₂ l = .ok s' → First e l →
      Move sha256 s s'
  | initial {e : Exchange} {l : Leg} {s₁ : Store} {p : Exchange → Bool} {f : Exchange → Exchange}
      {hf : ∀ x, (f x).id = x.id} : e ∈ s.exchanges → e.status = .waitingRequest →
      insertLeg s l = .ok s₁ → (∀ x ∈ s.exchanges, p x = true ↔ x = e) → First (f e) l →
      (∀ x, (f x).requesterSessionId = x.requesterSessionId ∧
        (f x).responderSessionId = x.responderSessionId ∧ (f x).maxLegs = x.maxLegs) →
      Move sha256 s (s₁.updateExchanges p f hf)
  | response {e : Exchange} {i : Leg} {run body key legId t : String} {again auto : Bool}
      {s' : Store} : e ∈ s.exchanges → e.status = .active → i ∈ s.legs → i.exchangeId = e.id →
      i.responseState = .opened → e.usedLegs + requiredSlots again ≤ e.maxLegs →
      recordResponse sha256 s e i i.targetSessionId run body again key auto legId t = .ok s' →
      Move sha256 s s'
  | notice {l : Leg} {s' : Store} : insertLeg s l = .ok s' → l.kind = .status →
      (l.ordinal = 0 ∧ l.parentLegId = none ∧ l.responseState = .closed) → Move sha256 s s'

lemma Move.refl : Move sha256 s s := .quiet (.refl s)

lemma createExchangeObligation_move (a b c d : String) (m : Nat) (x i t : String) :
    Move sha256 s (createExchangeObligation s a b c d m x i t).1 := by
  unfold createExchangeObligation
  split
  · exact .refl
  split
  · split <;> exact .refl
  dsimp only
  split
  · exact .refl
  · rename_i s' hins
    exact .obligation hins rfl rfl rfl

lemma chargeConfiguredRouteRate_frame {b c : String} {now : Rat}
    (h : chargeConfiguredRouteRate s a b c now = .ok s') :
    s'.exchanges = s.exchanges ∧ s'.legs = s.legs := by
  unfold chargeConfiguredRouteRate at h
  split at h
  · split at h <;> cases h
    exact ⟨rfl, rfl⟩
  dsimp only at h
  split at h
  · cases h
  split at h <;> cases h
  exact ⟨rfl, rfl⟩

lemma createRouteExchangeRequest_move (a b c d e f g : String) (m : Nat)
    (h i j k : String) (live : Bool) (inst : String) (epoch : Rat) (t : String) :
    Move sha256 s
      (createRouteExchangeRequest sha256 s a b c d e f g m h i j k live inst epoch t).1 := by
  unfold createRouteExchangeRequest
  split
  · exact .refl
  split
  · exact .refl
  split
  · exact .refl
  split
  · split
    · exact .refl
    · split <;> exact .refl
  split
  · exact .refl
  rename_i s1 hrate
  dsimp only
  split
  · exact .refl
  rename_i s2 hex
  split
  · exact .refl
  rename_i s3 hleg
  obtain ⟨hx, hl⟩ := chargeConfiguredRouteRate_frame hrate
  exact .request hx hl hex hleg ⟨⟨rfl, by simp⟩, rfl, rfl, rfl, rfl, rfl, rfl, rfl, rfl⟩

lemma createInitialExchangeLeg_move (a b c d e f : String) (live : Bool) (l inst t : String) :
    Move sha256 s (createInitialExchangeLeg sha256 s a b c d e f live l inst t).1 := by
  unfold createInitialExchangeLeg
  split
  · exact .refl
  rename_i exchange hex
  split
  · split <;> exact .refl
  split
  · exact .refl
  rename_i hwait
  split
  · exact .refl
  split
  · exact .refl
  rename_i hpart
  split
  · exact .quiet (quiet_settle rfl)
  dsimp only
  split
  · exact .refl
  rename_i s1 hleg
  have hwait : exchange.status = .waitingRequest := not_not.1 hwait
  obtain ⟨hreq, hrsp⟩ : exchange.requesterSessionId = b ∧ exchange.responderSessionId = d := by
    simpa using hpart
  have hmem := find?_mem hex
  have hid : exchange.id = a := find?_key hex
  refine .initial hmem hwait hleg (fun y hy => ⟨fun h => ?_, fun h => by simp [h, hid, hwait]⟩)
    ⟨⟨hid.symm, by simp⟩, rfl, rfl, hreq.symm, hrsp.symm, rfl, rfl, rfl, rfl⟩
    fun _ => ⟨rfl, rfl, rfl⟩
  simp only [Bool.and_eq_true, decide_eq_true_eq] at h
  exact s.exchanges.eq_of_key hy hmem (h.1.trans hid.symm)

lemma commitExchangeResponse_move (a b c d e : String) (rr : Bool) (f : String) (auto : Bool)
    (l t : String) : Move sha256 s (commitExchangeResponse sha256 s a b c d e rr f auto l t).1 := by
  unfold commitExchangeResponse
  split
  swap
  · exact .refl
  rename_i exchange inbound hex hin
  split
  · split <;> exact .refl
  split
  · split <;> exact .refl
  rename_i hact
  split
  · exact .quiet (quiet_settle rfl)
  split
  · exact .refl
  rename_i hopen
  split
  · exact .refl
  split
  · exact .refl
  rename_i hbound
  split
  · exact .refl
  split
  · exact .refl
  rename_i hroom
  split
  · exact .refl
  rename_i s' hrec
  obtain ⟨hfind, hix⟩ := Option.filter_eq_some_iff.1 hin
  have hix : inbound.exchangeId = a := by simpa using hix
  have htarget : inbound.targetSessionId = c := by
    by_contra hne
    exact hbound (.inl hne)
  subst htarget
  exact .response (find?_mem hex) (not_not.1 hact) (find?_mem hfind)
    (hix.trans (find?_key hex).symm) (not_not.1 hopen) (not_lt.1 hroom) hrec

lemma createExchangeStatusLeg_move (a b c d e l t : String) :
    Move sha256 s (createExchangeStatusLeg sha256 s a b c d e l t).1 := by
  unfold createExchangeStatusLeg
  split
  · exact .refl
  dsimp only
  split
  · exact .refl
  · rename_i s' hleg
    exact .notice hleg rfl ⟨rfl, rfl, rfl⟩

/-! ### Updates and endings -/

lemma rebindExchangeSourceRun_quiet (s : Store) (a : List String) (b c t : String) :
    Quiet s (rebindExchangeSourceRun s a b c t).1 := by
  unfold rebindExchangeSourceRun
  split
  · exact .refl s
  dsimp only
  split
  · exact .refl s
  · exact quiet_updateExchanges (fun _ => ⟨rfl, rfl, rfl, rfl, rfl, rfl⟩) fun _ _ _ => .inl rfl

lemma downgradeLiveExchange_quiet (s : Store) (a b c t : String) :
    Quiet s (downgradeLiveExchange s a b c t).1 :=
  quiet_updateExchanges (fun _ => ⟨rfl, rfl, rfl, rfl, rfl, rfl⟩) fun _ _ _ => .inl rfl

lemma LegPatch.effective_responseState (p : LegPatch) :
    p.effective.responseState = p.responseState := by
  unfold LegPatch.effective; split <;> rfl

lemma updateExchangeLeg_quiet {b : List LegStatus} {changes : LegPatch}
    (h : CallerShape s (.updateExchangeLeg a b changes t)) :
    Quiet s (updateExchangeLeg s a b changes t).1 := by
  unfold updateExchangeLeg
  split
  · exact .refl s
  dsimp only
  split
  · exact .refl s
  refine quiet_updateLegs (fun _ => ⟨rfl, rfl, rfl, rfl, rfl, rfl, rfl, rfl⟩) fun l hl hp => ?_
  simp only [Bool.and_eq_true, decide_eq_true_eq] at hp
  simp only [LegPatch.apply, LegPatch.effective_responseState]
  rcases h with h | ⟨h, hend⟩
  · exact .inl (by rw [h]; rfl)
  · exact .inr ⟨by rw [h]; rfl, fun e he hid => hend l hl hp.1 e he hid⟩

lemma ExchangePatch.effective_columns (p : ExchangePatch) : p.effective.status = p.status ∧
    p.effective.usedLegs = p.usedLegs ∧ p.effective.activeLegId = p.activeLegId := by
  unfold ExchangePatch.effective; split <;> exact ⟨rfl, rfl, rfl⟩

lemma updateExchange_quiet {b : List ExchangeStatus} {changes : ExchangePatch}
    (h : CallerShape s (.updateExchange a b changes t)) :
    Quiet s (updateExchange s a b changes t).1 := by
  obtain ⟨hused, hactive, hst⟩ := h
  obtain ⟨est, eused, eactive⟩ := changes.effective_columns
  unfold updateExchange
  split
  · exact .refl s
  dsimp only
  split
  · exact .refl s
  split
  swap
  · exact .refl s
  refine quiet_updateExchanges (fun e => ?_) fun e _ _ => ?_
  · exact ⟨rfl, rfl, rfl, rfl, by simp [ExchangePatch.apply, eused, hused],
      by simp [ExchangePatch.apply, eactive, hactive]⟩
  · simp only [ExchangePatch.apply, est]
    cases hc : changes.status with
    | none => exact .inl rfl
    | some st => exact .inr (hst st hc)

/-- Closing a leg that owned a queue row ends its exchange too, unless it is a notice or the
    exchange has already ended. -/
lemma cancelExactQueuedExchangeLeg_quiet (hs : StoreOk s) (a b c d e f t : String) :
    Quiet s (cancelExactQueuedExchangeLeg s a b c d e f t).1 := by
  unfold cancelExactQueuedExchangeLeg
  dsimp only
  split
  swap
  · exact .refl s
  rename_i leg exchange hleg hex
  split
  · exact .refl s
  rename_i hguard
  have hl := List.mem_of_find?_eq_some hleg
  have howns := List.find?_some hleg
  simp only [Bool.and_eq_true, decide_eq_true_eq] at howns
  have hxonly : ∀ x ∈ s.exchanges, x.id = a → x = exchange := fun x hx hid =>
    s.exchanges.eq_of_key hx (find?_mem hex) (hid.trans (find?_key hex).symm)
  split
  · rename_i hboth
    refine quiet_settle_legs rfl (fun _ => ⟨rfl, rfl, rfl, rfl, rfl, rfl, rfl, rfl⟩) ?_ fun _ => rfl
    intro l _ hp
    simp only [Bool.and_eq_true, decide_eq_true_eq] at hp
    refine ended_settle rfl fun x hx hid hact => ?_
    have hxe := hxonly x hx (hid.trans hp.1.1.1.2)
    have hactive : exchange.activeLegId = some b := by
      by_contra hne; exact hguard ⟨hboth.1, hboth.2, hne⟩
    simp [hxe, hactive, hboth.2, find?_key hex]
  · rename_i hnot
    refine quiet_updateLegs (fun _ => ⟨rfl, rfl, rfl, rfl, rfl, rfl, rfl, rfl⟩) fun l hlm hp => ?_
    simp only [Bool.and_eq_true, decide_eq_true_eq] at hp
    have hll : l = leg := s.legs.eq_of_key hlm hl (hp.1.1.1.1.trans howns.1.1.1.1.symm)
    subst hll
    by_cases hk : l.kind = .status
    · exact .inl (hs.keys.notice l hlm hk).2.2.symm
    · refine .inr ⟨rfl, fun x hx hid hact => hnot ⟨hk, ?_⟩⟩
      rw [← hxonly x hx (hid.trans hp.1.1.1.2)]; exact hact

lemma Ending.exchange_terminal (e : Ending) : e.exchange.terminal = true := by cases e <;> rfl

lemma active_leg_of (hc : Chain s e) (hl : l ∈ s.legs) (h : e.activeLegId = some l.id) :
    l.Of e := by
  by_cases hu : e.usedLegs = 0
  · rw [hc.idle hu] at h; cases h
  · obtain ⟨x, hx, hof, hord⟩ := (hc.ordinals e.usedLegs).2 ⟨by omega, le_rfl⟩
    have hxa := (hc.active x hx hof).2 hord
    rw [h, Option.some.injEq] at hxa
    rw [s.legs.eq_of_key hl hx hxa]; exact hof

lemma cancelExchange_quiet (hs : StoreOk s) (a : String) (b : Ending) (c d t : String) :
    Quiet s (cancelExchange s a b c d t).1 := by
  unfold cancelExchange
  split
  · exact .refl s
  rename_i exchange hex
  dsimp only
  split
  · exact .refl s
  have hterminal := Ending.exchange_terminal b
  have hmem := find?_mem hex
  have hid : exchange.id = a := find?_key hex
  -- both writes to the leg close the active leg of an exchange that has just ended
  have hend : ∀ l ∈ s.legs, l.id = exchange.activeLegId.getD "" → exchange.activeLegId.getD "" ≠ "" →
      Ended (s.settle (fun e => decide (e.id = a) &&
        (decide (e.status = .waitingRequest) || decide (e.status = .active)))
        b.exchange (some c) (some d) t) l := by
    intro l hl hlid hne
    have hact : exchange.activeLegId = some l.id := by
      cases h : exchange.activeLegId with
      | none => simp [h] at hne
      | some i => simp [h] at hlid; rw [hlid]
    have hof := active_leg_of (hs.chain exchange hmem) hl hact
    exact ended_settle hterminal fun x _ hx hxact => by simp [hx, hof.1, hid, hxact]
  split
  · exact quiet_settle hterminal
  · rename_i leg hleg
    have hne : exchange.activeLegId.getD "" ≠ "" := by
      intro h; simp [h] at hleg
    iterate 2
      split
      · refine (quiet_settle hterminal).trans
          (quiet_updateLegs (fun _ => ⟨rfl, rfl, rfl, rfl, rfl, rfl, rfl, rfl⟩) fun l hl hp => .inr ⟨rfl, ?_⟩)
        simp only [Bool.and_eq_true, decide_eq_true_eq] at hp
        exact hend l hl hp.1 hne
    exact quiet_settle hterminal

lemma finishExchangeLeg_quiet (s : Store) (a : String) (b : LegEnd) (c d : Option String)
    (e : Bool) (t : String) : Quiet s (finishExchangeLeg s a b c d e t).1 := by
  unfold finishExchangeLeg
  split
  · exact .refl s
  rename_i leg hleg
  split
  · exact .refl s
  dsimp only
  set s1 := s.updateLegs
    (fun l => decide (l.id = a) && decide (l.status ∈ [.registered, .submitting, .queued, .running]))
    (Leg.settle (effectiveEnd leg b e).leg (effectiveError leg b e c) (effectiveError leg b e d) t)
    (fun _ => rfl) with hs1
  have h1 : Quiet s s1 :=
    quiet_updateLegs (fun _ => ⟨rfl, rfl, rfl, rfl, rfl, rfl, rfl, rfl⟩) fun _ _ _ => .inl rfl
  split
  swap
  · exact h1
  split
  · exact h1.trans (quiet_settle (Ending.exchange_terminal _))
  split
  swap
  · exact h1
  refine h1.trans (quiet_settle_legs rfl (fun _ => ⟨rfl, rfl, rfl, rfl, rfl, rfl, rfl, rfl⟩) ?_ fun _ => rfl)
  intro l' hl' hp
  -- the closed leg is the finished one, so the settled exchange is its exchange
  obtain ⟨l, hl, hsame, -⟩ := h1.leg l' hl'
  have hlid : l.id = a := hsame.id.symm.trans (by simpa using hp)
  have hll : l = leg :=
    s.legs.eq_of_key hl (find?_mem hleg) (hlid.trans (find?_key hleg).symm)
  refine ended_settle rfl fun x _ hx hact => ?_
  simp [hx, hact, hsame.exchangeId, hll]

/-! ### The chains -/

/-- An accepted response extends the chain: the inbound leg is open, hence no notice, and only the
    active leg of the chain is open. -/
lemma recordResponse_ok {exchange : Exchange} {inbound : Leg} {d e f l : String} {rr auto : Bool}
    (hs : StoreOk s) (hmem : exchange ∈ s.exchanges) (hact : exchange.status = .active)
    (hi : inbound ∈ s.legs) (hix : inbound.exchangeId = exchange.id)
    (hopen : inbound.responseState = .opened) (hroom : exchange.usedLegs + 1 ≤ exchange.maxLegs)
    (h : recordResponse sha256 s exchange inbound inbound.targetSessionId d e rr f auto l t = .ok s') :
    StoreOk s' := by
  have hch := hs.chain exchange hmem
  have hof : inbound.Of exchange := by
    refine ⟨hix, fun hk => ?_⟩
    rw [(hs.keys.notice inbound hi hk).2.2] at hopen; cases hopen
  have hord : inbound.ordinal = exchange.usedLegs := by
    by_contra hne
    have hc := hch.committed hact inbound hi hof hne
    rw [hopen] at hc; cases hc
  unfold recordResponse at h
  dsimp only at h
  split at h
  · cases h
  rename_i s2 hleg
  cases h
  -- the rows of the two leg writes
  have hit : ∀ x ∈ s.legs, (decide (x.id = inbound.id) && decide (x.responseState = .opened)) = true
      ↔ x = inbound := by
    intro x hx
    refine ⟨fun hp => ?_, fun hp => by simp [hp, hopen]⟩
    simp only [Bool.and_eq_true, decide_eq_true_eq] at hp
    exact s.legs.eq_of_key hx hi hp.1
  have hkeys1 : Keys (s.updateLegs (fun x => x.id = inbound.id && x.responseState = .opened)
      (Leg.answered auto t) fun _ => rfl) := by
    refine hs.keys.frame (fun x hx => ⟨x, hx, rfl⟩) fun x' hx' => ?_
    obtain ⟨x, hx, rfl⟩ := mem_updateLegs.1 hx'
    refine ⟨x, hx, ?_⟩
    split
    · rename_i hp
      refine ⟨⟨rfl, rfl, rfl, rfl, rfl, rfl, rfl, rfl⟩, fun hk => ?_⟩
      rw [(hit x hx).1 hp] at hk; exact absurd hk hof.2
    · exact ⟨.refl x, fun _ => .inl rfl⟩
  have hkeys2 := hkeys1.insertLeg hleg (fun hk => by cases rr <;> cases hk)
  obtain ⟨-, t2, ht2, rfl⟩ := insertLeg_ok hleg
  have hlegs : ∀ x, x ∈ t2 ↔ (x ∈ s.legs ∧ x ≠ inbound) ∨ x = inbound.answered auto t ∨
      x = responseLeg sha256 exchange inbound inbound.targetSessionId d e rr f l t := by
    intro x
    rw [mem_insert? ht2, ← or_assoc]
    exact or_congr_left (mem_updateWhere_one hi hit)
  refine ⟨hkeys2.updateExchanges, chains_of_one hs rfl ?_ ?_ hmem ?_⟩
  · intro y hy
    refine ⟨fun h => ?_, fun h => by simp [h, hact]⟩
    simp only [Bool.and_eq_true, decide_eq_true_eq] at h
    exact s.exchanges.eq_of_key hy hmem h.1
  · intro x hx
    rw [hlegs x]
    constructor
    · rintro (h | rfl | rfl)
      · exact h.1
      · exact absurd hix hx
      · exact absurd rfl hx
    · intro h
      exact .inl ⟨h, fun heq => hx (heq ▸ hix)⟩
  · have hsame : inbound.Same (inbound.answered auto t) := ⟨rfl, rfl, rfl, rfl, rfl, rfl, rfl, rfl⟩
    have hcomm : (inbound.answered auto t).responseState.committed = true := by cases auto <;> rfl
    have hkind : (responseLeg sha256 exchange inbound inbound.targetSessionId d e rr f l t).kind ≠ .status := by
      cases rr <;> simp [responseLeg, responseKind]
    refine chain_next hch hs.keys hi hof hord hsame hcomm hlegs rfl rfl rfl rfl hact rfl hroom rfl
      ⟨rfl, hkind⟩ rfl rfl rfl rfl rfl ?_
    intro x hx heq
    have hnew := (insert?_eq_some ht2).2 _ (mem_updateLegs.2 ⟨x, hx, rfl⟩)
    split at hnew <;> exact hnew heq

lemma insertLeg_exchanges (h : insertLeg s l = .ok s') : s'.exchanges = s.exchanges := by
  obtain ⟨-, t, -, rfl⟩ := insertLeg_ok h
  rfl

/-- A leg of another exchange, or a notice, is no matter of the chain of `e`. -/
lemma Chain.insertLeg (hc : Chain s e) (h : insertLeg s l = .ok s') (hl : ¬ l.Of e) :
    Chain s' e := by
  obtain ⟨-, t, ht, rfl⟩ := insertLeg_ok h
  refine hc.frame fun x hx hk => ?_
  rw [mem_insert? ht]
  refine ⟨fun h => h.resolve_right ?_, .inl⟩
  rintro rfl
  exact hl ⟨hx, hk⟩

/-- STEP: every move keeps the chains. -/
theorem Move.ok (h : Move sha256 s s') (hs : StoreOk s) : StoreOk s' := by
  cases h with
  | quiet h => exact h.ok hs
  | obligation hins hused hactive hwait =>
    refine ⟨hs.keys.insertExchange hins, ?_⟩
    obtain ⟨⟨hmax, -, -⟩, t, ht, rfl⟩ := insertExchange_ok hins
    intro e he
    rcases (mem_insert? ht).1 he with he | rfl
    · exact (hs.chain e he).frame fun _ _ _ => Iff.rfl
    · have hnone := no_legs_of_new hs.keys (insert?_eq_some ht).2
      have none : ∀ l ∈ s.legs, ¬ l.Of e := fun l hl hof => hnone l hl hof.1
      have idle : e.status ≠ .active := by rw [hwait]; nofun
      refine ⟨hmax, by omega, fun k => ⟨?_, fun hk => by omega⟩, fun l hl hof => absurd hof (none l hl),
        fun l hl hof => absurd hof (none l hl), fun l hl hof => absurd hof (none l hl),
        fun _ => hactive, fun hst => absurd hst idle, fun hst => absurd hst idle, fun _ => hused,
        fun hst => absurd hst idle⟩
      rintro ⟨l, hl, hof, -⟩
      exact absurd hof (none l hl)
  | @request _ _ s1 _ _ hx hl hex hleg first =>
    have hs1 := hs.congr hx hl
    refine ⟨(hs1.keys.insertExchange hex).insertLeg hleg fun hk => absurd hk first.of.2, ?_⟩
    obtain ⟨⟨hmax, -, -⟩, t2, ht2, rfl⟩ := insertExchange_ok hex
    have hnew := (insert?_eq_some ht2).2
    intro x hx
    rw [insertLeg_exchanges hleg] at hx
    rcases (mem_insert? ht2).1 hx with hx' | rfl
    · have hc : Chain { s1 with exchanges := t2 } x := (hs1.chain x hx').frame fun _ _ _ => Iff.rfl
      exact hc.insertLeg hleg fun hof => hnew x hx' (hof.1.symm.trans first.of.1)
    · obtain ⟨-, t3, ht3, rfl⟩ := insertLeg_ok hleg
      exact chain_first (fun l hl hof => no_legs_of_new hs1.keys hnew l hl hof.1)
        (fun l => mem_insert? ht3) first hmax
  | @initial e l _ _ _ hf hmem hwait hleg hp first hsame =>
    have hch := hs.chain e hmem
    have hkeys := hs.keys.insertLeg hleg fun hk => absurd hk first.of.2
    obtain ⟨-, t1, ht1, rfl⟩ := insertLeg_ok hleg
    refine ⟨hkeys.updateExchanges, chains_of_one hs rfl hp (fun z hz => ?_) hmem ?_⟩
    · rw [mem_insert? ht1]
      refine ⟨fun h => h.resolve_right ?_, .inl⟩
      rintro rfl
      exact hz (first.of.1.trans (hf e))
    · refine chain_first (fun z hz hof => ?_) (fun z => mem_insert? ht1) first
        ((hsame e).2.2 ▸ hch.positive)
      have := (hch.ordinals z.ordinal).1 ⟨z, hz, ⟨hof.1.trans (hf e), hof.2⟩, rfl⟩
      rw [hch.waiting hwait] at this; omega
  | @response _ _ _ _ _ _ _ again _ _ hmem hact hi hix hopen hroom hrec =>
    refine recordResponse_ok hs hmem hact hi hix hopen ?_ hrec
    have : 1 ≤ requiredSlots again := by cases again <;> simp [requiredSlots]
    omega
  | notice hleg hk hnotice =>
    refine ⟨hs.keys.insertLeg hleg fun _ => hnotice, fun x hx => ?_⟩
    rw [insertLeg_exchanges hleg] at hx
    exact (hs.chain x hx).insertLeg hleg fun hof => hof.2 hk

/-! ### Runs -/

/-- INVERSION: every transaction, called in the shapes the server uses, is a move. -/
theorem step_move {o : Op} (h : CallerShape s o) (hs : StoreOk s) :
    Move sha256 s (step sha256 s o) := by
  cases o with
  | createExchangeObligation => exact createExchangeObligation_move ..
  | createRouteExchangeRequest => exact createRouteExchangeRequest_move ..
  | rebindExchangeSourceRun => exact .quiet (rebindExchangeSourceRun_quiet ..)
  | downgradeLiveExchange => exact .quiet (downgradeLiveExchange_quiet ..)
  | createInitialExchangeLeg => exact createInitialExchangeLeg_move ..
  | commitExchangeResponse => exact commitExchangeResponse_move ..
  | updateExchangeLeg => exact .quiet (updateExchangeLeg_quiet h)
  | updateExchange => exact .quiet (updateExchange_quiet h)
  | cancelExactQueuedExchangeLeg => exact .quiet (cancelExactQueuedExchangeLeg_quiet hs ..)
  | cancelExchange => exact .quiet (cancelExchange_quiet hs ..)
  | finishExchangeLeg => exact .quiet (finishExchangeLeg_quiet ..)
  | createExchangeStatusLeg => exact createExchangeStatusLeg_move ..

lemma step_ok {o : Op} (h : CallerShape s o) (hs : StoreOk s) : StoreOk (step sha256 s o) :=
  (step_move h hs).ok hs

def storeAfter (sha256 : String → String) (ops : List Op) : Store :=
  Lib.run (step sha256) .empty ops

/-- CHAIN: in every reachable store the legs of an exchange, notices apart, have the ordinals
    `1..used_legs`, within `max_legs`; leg 1 goes from requester to responder without a parent, leg `k+1`
    answers leg `k` in the opposite direction; the active leg is the last; no leg has two children; and
    while the exchange is active every other leg has its committed response. -/
theorem exchange_chain (sha256 : String → String) (ops : List Op)
    (hops : Lib.Along (step sha256) CallerShape Store.empty ops) :
    let s := storeAfter sha256 ops
    (∀ e ∈ s.exchanges,
      e.usedLegs ≤ e.maxLegs ∧
      (∀ k, (∃ l ∈ s.legs, l.Of e ∧ l.ordinal = k) ↔ 1 ≤ k ∧ k ≤ e.usedLegs) ∧
      (∀ l ∈ s.legs, ∀ l' ∈ s.legs, l.Of e → l'.Of e → l.ordinal = l'.ordinal → l = l') ∧
      (∀ l ∈ s.legs, l.Of e → l.ordinal = 1 → l.parentLegId = none ∧
        l.sourceSessionId = e.requesterSessionId ∧ l.targetSessionId = e.responderSessionId) ∧
      (∀ l ∈ s.legs, ∀ l' ∈ s.legs, l.Of e → l'.Of e → l'.ordinal = l.ordinal + 1 →
        l'.parentLegId = some l.id ∧ l'.sourceSessionId = l.targetSessionId ∧
          l'.targetSessionId = l.sourceSessionId) ∧
      (∀ l ∈ s.legs, l.Of e → (e.activeLegId = some l.id ↔ l.ordinal = e.usedLegs)) ∧
      (e.usedLegs = 0 → e.activeLegId = none) ∧
      (e.status = .active → 1 ≤ e.usedLegs ∧ ∀ l ∈ s.legs, l.Of e →
        (e.activeLegId ≠ some l.id → l.responseState.committed = true) ∧
        (e.activeLegId = some l.id → l.responseState = .opened))) ∧
    (∀ l ∈ s.legs, ∀ l' ∈ s.legs, ∀ p, l.parentLegId = some p → l'.parentLegId = some p → l = l') ∧
    (∀ l ∈ s.legs, l.kind = .status → l.parentLegId = none ∧ l.responseState = .closed) := by
  intro s
  have hok : StoreOk s := Lib.run_inv_along (fun _ _ => step_ok) ops Store.empty hops storeOk_empty
  refine ⟨fun e he => ?_, hok.keys.oneChild, fun l hl hk => (hok.keys.notice l hl hk).2⟩
  have hc := hok.chain e he
  refine ⟨hc.budget, hc.ordinals, ?_, hc.first, ?_, hc.active, hc.idle, ?_⟩
  · intro l hl l' hl' hof hof' ho
    exact hok.keys.ordinal l hl l' hl' (hof.1.trans hof'.1.symm) ho
  · intro l hl l' hl' hof hof' ho
    exact hc.next l hl hof l' hl' hof' ho
  · intro hact
    refine ⟨hc.started hact, fun l hl hof => ⟨fun hne => ?_, fun heq => ?_⟩⟩
    · exact hc.committed hact l hl hof fun ho => hne ((hc.active l hl hof).2 ho)
    · exact hc.opened hact l hl hof ((hc.active l hl hof).1 heq)

/-- A route request whose delivery is running and then answered. -/
def answeredRequest : List Op :=
  [.createRouteExchangeRequest "x" "l1" "a" "run1" "b" "question" "key00001" 6 "2026-02-01"
      "route_00000000000000000000000000000000" "request_reply" "" false "server" 0 "2026-01-01",
    .updateExchangeLeg "l1" [] { status := some .running, targetRunId := some (some "run2") }
      "2026-01-02",
    .commitExchangeResponse "x" "l1" "b" "run2" "answer" false "key00002" true "l2" "2026-01-03"]

theorem exchange_chain_answered :
    Lib.Along (step id) CallerShape Store.empty answeredRequest ∧
    (storeAfter id answeredRequest).legs.rows.map (fun l => (l.ordinal, l.parentLegId)) =
      [(1, none), (2, some "l1")] ∧
    ∀ l ∈ (storeAfter id answeredRequest).legs, ∀ l' ∈ (storeAfter id answeredRequest).legs, ∀ p,
      l.parentLegId = some p → l'.parentLegId = some p → l = l' :=
  ⟨by decide, by decide, (exchange_chain id answeredRequest (by decide)).2.1⟩

end CrossChat
