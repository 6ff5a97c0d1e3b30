import ZenithBot.CrossChat.Exchange

/-! The legs of an exchange form one alternating chain. `commit_exchange_response` never compares the
    inbound leg with the active one; that it extends the chain at its end follows from the response
    states: while an exchange is active, its active leg is the only leg of the chain that is open.

    Transactions fall into two groups. `Quiet` ones only rewrite columns the chain does not depend
    on, end exchanges, or close legs of exchanges that are not active; the others add one leg. -/

namespace CrossChat
open Table

variable {s s' : Store} {f : Exchange → Exchange} {p : Exchange → Bool} {e : Exchange} {l : Leg}
  {hf : ∀ e, (f e).id = e.id} {e' : Exchange}

def Leg.Of (l : Leg) (e : Exchange) : Prop := l.exchangeId = e.id ∧ l.kind ≠ .status

/-- The chain of one exchange. -/
structure Chain (s : Store) (e : Exchange) : Prop where
  positive : 0 < e.maxLegs
  budget : e.usedLegs ≤ e.maxLegs
  ordinals : ∀ k, (∃ l ∈ s.legs, l.Of e ∧ l.ordinal = k) ↔ 1 ≤ k ∧ k ≤ e.usedLegs
  first : ∀ l ∈ s.legs, l.Of e → l.ordinal = 1 → l.parentLegId = none ∧
    l.sourceSessionId = e.requesterSessionId ∧ l.targetSessionId = e.responderSessionId
  next : ∀ l ∈ s.legs, l.Of e → ∀ l' ∈ s.legs, l'.Of e → l'.ordinal = l.ordinal + 1 →
    l'.parentLegId = some l.id ∧ l'.sourceSessionId = l.targetSessionId ∧
      l'.targetSessionId = l.sourceSessionId
  active : ∀ l ∈ s.legs, l.Of e → (e.activeLegId = some l.id ↔ l.ordinal = e.usedLegs)
  idle : e.usedLegs = 0 → e.activeLegId = none
  committed : e.status = .active → ∀ l ∈ s.legs, l.Of e → l.ordinal ≠ e.usedLegs →
    l.responseState.committed = true
  opened : e.status = .active → ∀ l ∈ s.legs, l.Of e → l.ordinal = e.usedLegs →
    l.responseState = .opened
  waiting : e.status = .waitingRequest → e.usedLegs = 0
  started : e.status = .active → 1 ≤ e.usedLegs

/-- How legs are identified: by their exchange and ordinal, by their parent, and notices apart. -/
structure Keys (s : Store) : Prop where
  owner : ∀ l ∈ s.legs, ∃ e ∈ s.exchanges, e.id = l.exchangeId
  ordinal : ∀ l ∈ s.legs, ∀ l' ∈ s.legs, l.exchangeId = l'.exchangeId →
    l.ordinal = l'.ordinal → l = l'
  oneChild : ∀ l ∈ s.legs, ∀ l' ∈ s.legs, ∀ p, l.parentLegId = some p →
    l'.parentLegId = some p → l = l'
  notice : ∀ l ∈ s.legs, l.kind = .status →
    l.ordinal = 0 ∧ l.parentLegId = none ∧ l.responseState = .closed

/-- What holds of the store between any two transactions. -/
structure StoreOk (s : Store) : Prop where
  keys : Keys s
  chain : ∀ e ∈ s.exchanges, Chain s e

lemma storeOk_empty : StoreOk .empty where
  keys := ⟨fun l hl => absurd hl (not_mem_empty l), fun l hl => absurd hl (not_mem_empty l),
    fun l hl => absurd hl (not_mem_empty l), fun l hl => absurd hl (not_mem_empty l)⟩
  chain := fun e he => absurd he (not_mem_empty e)

/-! ### Transactions that leave the chains alone -/

/-- The columns of a leg that no update writes. -/
structure Leg.Same (l l' : Leg) : Prop where
  id : l'.id = l.id
  exchangeId : l'.exchangeId = l.exchangeId
  parentLegId : l'.parentLegId = l.parentLegId
  ordinal : l'.ordinal = l.ordinal
  source : l'.sourceSessionId = l.sourceSessionId
  target : l'.targetSessionId = l.targetSessionId
  kind : l'.kind = l.kind
  expects : l'.expectsReply = l.expectsReply

/-- The columns of an exchange that a quiet update does not write. -/
structure Exchange.Same (e e' : Exchange) : Prop where
  id : e'.id = e.id
  requester : e'.requesterSessionId = e.requesterSessionId
  responder : e'.responderSessionId = e.responderSessionId
  maxLegs : e'.maxLegs = e.maxLegs
  usedLegs : e'.usedLegs = e.usedLegs
  activeLegId : e'.activeLegId = e.activeLegId

def Ended (s : Store) (l : Leg) : Prop :=
  ∀ e ∈ s.exchanges, e.id = l.exchangeId → e.status ≠ .active

structure Quiet (s s' : Store) : Prop where
  exchange : ∀ e' ∈ s'.exchanges, ∃ e ∈ s.exchanges, e.Same e' ∧
    (e'.status = e.status ∨ e'.status.terminal = true)
  leg : ∀ l' ∈ s'.legs, ∃ l ∈ s.legs, l.Same l' ∧
    (l'.responseState = l.responseState ∨ (l'.responseState = .closed ∧ Ended s' l'))
  exchangeKept : ∀ e ∈ s.exchanges, ∃ e' ∈ s'.exchanges, e.Same e'
  legKept : ∀ l ∈ s.legs, ∃ l' ∈ s'.legs, l.Same l'

lemma Leg.Same.refl (l : Leg) : l.Same l := ⟨rfl, rfl, rfl, rfl, rfl, rfl, rfl, rfl⟩

lemma Exchange.Same.refl (e : Exchange) : e.Same e := ⟨rfl, rfl, rfl, rfl, rfl, rfl⟩

lemma Leg.Same.trans {a b c : Leg} (h : a.Same b) (h' : b.Same c) : a.Same c :=
  ⟨h'.1.trans h.1, h'.2.trans h.2, h'.3.trans h.3, h'.4.trans h.4, h'.5.trans h.5,
    h'.6.trans h.6, h'.7.trans h.7, h'.8.trans h.8⟩

lemma Exchange.Same.trans {a b c : Exchange} (h : a.Same b) (h' : b.Same c) : a.Same c :=
  ⟨h'.1.trans h.1, h'.2.trans h.2, h'.3.trans h.3, h'.4.trans h.4, h'.5.trans h.5,
    h'.6.trans h.6⟩

lemma Leg.Same.of {l' : Leg} (h : l.Same l') (he : e.Same e') : l'.Of e' ↔ l.Of e := by
  simp [Leg.Of, h.exchangeId, h.kind, he.id]

/-- Rows that keep the columns of `Same` keep how legs are identified. -/
lemma Keys.frame (hs : Keys s) (hx : ∀ e ∈ s.exchanges, ∃ e' ∈ s'.exchanges, e'.id = e.id) (hl : ∀ l'
      ∈ s'.legs, ∃ l ∈ s.legs, l.Same l' ∧ (l.kind = .status → l'.responseState = l.responseState ∨
      l'.responseState = .closed)) :
    Keys s' where
  owner := by
    intro l' hl'
    obtain ⟨l, hlm, hsame, -⟩ := hl l' hl'
    obtain ⟨e, he, hid⟩ := hs.owner l hlm
    obtain ⟨e', he', hid'⟩ := hx e he
    exact ⟨e', he', by rw [hid', hid, hsame.exchangeId]⟩
  ordinal := by
    intro a' ha' b' hb' hx ho
    obtain ⟨a, ha, hsa, -⟩ := hl a' ha'
    obtain ⟨b, hb, hsb, -⟩ := hl b' hb'
    have hab : a = b := by
      refine hs.ordinal a ha b hb ?_ ?_
      · rw [← hsa.exchangeId, ← hsb.exchangeId]; exact hx
      · rw [← hsa.ordinal, ← hsb.ordinal]; exact ho
    exact s'.legs.eq_of_key ha' hb' (by rw [hsa.id, hsb.id, hab])
  oneChild := by
    intro a' ha' b' hb' p hpa hpb
    obtain ⟨a, ha, hsa, -⟩ := hl a' ha'
    obtain ⟨b, hb, hsb, -⟩ := hl b' hb'
    have hab : a = b := hs.oneChild a ha b hb p (hsa.parentLegId ▸ hpa) (hsb.parentLegId ▸ hpb)
    exact s'.legs.eq_of_key ha' hb' (by rw [hsa.id, hsb.id, hab])
  notice := by
    intro l' hl' hk
    obtain ⟨l, hlm, hsame, hr⟩ := hl l' hl'
    have hkl : l.kind = .status := hsame.kind ▸ hk
    obtain ⟨ho, hp, hc⟩ := hs.notice l hlm hkl
    refine ⟨hsame.ordinal ▸ ho, hsame.parentLegId ▸ hp, ?_⟩
    rcases hr hkl with hr | hr
    · rw [hr, hc]
    · exact hr

lemma Quiet.refl (s : Store) : Quiet s s where
  exchange := fun e he => ⟨e, he, .refl e, .inl rfl⟩
  leg := fun l hl => ⟨l, hl, .refl l, .inl rfl⟩
  exchangeKept := fun e he => ⟨e, he, .refl e⟩
  legKept := fun l hl => ⟨l, hl, .refl l⟩

/-- An exchange that is not active does not become active quietly. -/
lemma Quiet.ended (h : Quiet s s') {l' : Leg} (hl : l.Same l') (he : Ended s l) : Ended s' l' := by
  intro e' he' hid hact
  obtain ⟨e, hem, hsame, hst | hst⟩ := h.exchange e' he'
  · exact he e hem (by rw [← hsame.id, hid, hl.exchangeId]) (hst ▸ hact)
  · rw [hact] at hst; cases hst

lemma Quiet.trans {a b c : Store} (h : Quiet a b) (h' : Quiet b c) : Quiet a c where
  exchange := by
    intro e'' he''
    obtain ⟨e', he', hs', hst'⟩ := h'.exchange e'' he''
    obtain ⟨e, he, hs, hst⟩ := h.exchange e' he'
    refine ⟨e, he, hs.trans hs', ?_⟩
    rcases hst' with hst' | hst'
    · rw [hst']; exact hst
    · exact .inr hst'
  leg := by
    intro l'' hl''
    obtain ⟨l', hl', hs', hr'⟩ := h'.leg l'' hl''
    obtain ⟨l, hl, hs, hr⟩ := h.leg l' hl'
    refine ⟨l, hl, hs.trans hs', ?_⟩
    rcases hr' with hr' | hr'
    · rw [hr']
      rcases hr with hr | ⟨hc, hend⟩
      · exact .inl hr
      · exact .inr ⟨hc, h'.ended hs' hend⟩
    · exact .inr hr'
  exchangeKept := by
    intro e he
    obtain ⟨e', he', hs⟩ := h.exchangeKept e he
    obtain ⟨e'', he'', hs'⟩ := h'.exchangeKept e' he'
    exact ⟨e'', he'', hs.trans hs'⟩
  legKept := by
    intro l hl
    obtain ⟨l', hl', hs⟩ := h.legKept l hl
    obtain ⟨l'', hl'', hs'⟩ := h'.legKept l' hl'
    exact ⟨l'', hl'', hs.trans hs'⟩

lemma quiet_updateExchanges (hsame : ∀ e : Exchange, e.Same (f e))
    (hst : ∀ e ∈ s.exchanges, p e = true → (f e).status = e.status ∨ (f e).status.terminal = true) :
    Quiet s (s.updateExchanges p f hf) where
  exchange := by
    intro e' he'
    obtain ⟨e, he, rfl⟩ := mem_updateExchanges.1 he'
    refine ⟨e, he, ?_⟩
    split
    · rename_i hp
      exact ⟨hsame e, hst e he hp⟩
    · exact ⟨.refl e, .inl rfl⟩
  leg := fun l hl => ⟨l, hl, .refl l, .inl rfl⟩
  exchangeKept := by
    intro e he
    refine ⟨_, mem_updateExchanges.2 ⟨e, he, rfl⟩, ?_⟩
    split
    · exact hsame e
    · exact .refl e
  legKept := fun l hl => ⟨l, hl, .refl l⟩

lemma quiet_updateLegs {p : Leg → Bool} {f : Leg → Leg} {hf : ∀ l, (f l).id = l.id}
    (hsame : ∀ l : Leg, l.Same (f l)) (hr : ∀ l ∈ s.legs, p l = true → (f l).responseState =
      l.responseState ∨ ((f l).responseState = .closed ∧ Ended s l)) :
    Quiet s (s.updateLegs p f hf) where
  exchange := fun e he => ⟨e, he, .refl e, .inl rfl⟩
  leg := by
    intro l' hl'
    obtain ⟨l, hl, rfl⟩ := mem_updateLegs.1 hl'
    refine ⟨l, hl, ?_⟩
    split
    · rename_i hp
      refine ⟨hsame l, (hr l hl hp).imp id fun h => ⟨h.1, ?_⟩⟩
      intro e he hid
      exact h.2 e he (hid.trans (hsame l).exchangeId)
    · exact ⟨.refl l, .inl rfl⟩
  exchangeKept := fun e he => ⟨e, he, .refl e⟩
  legKept := by
    intro l hl
    refine ⟨_, mem_updateLegs.2 ⟨l, hl, rfl⟩, ?_⟩
    split
    · exact hsame l
    · exact .refl l

/-- A chain whose legs are still there, and answered as they were while the exchange is active. -/
lemma Chain.transfer (hc : Chain s e) (hs : e.Same e')
    (hst : e'.status = e.status ∨ e'.status.terminal = true)
    (was : ∀ l' ∈ s'.legs, l'.Of e' → ∃ l ∈ s.legs, l.Same l' ∧
      (e'.status = .active → l'.responseState = l.responseState))
    (kept : ∀ l ∈ s.legs, l.Of e → ∃ l' ∈ s'.legs, l.Same l') : Chain s' e' := by
  have hact : e'.status = .active → e.status = .active := by
    intro ha
    rcases hst with hst | hst
    · exact hst ▸ ha
    · rw [ha] at hst; cases hst
  refine ⟨?_, ?_, ?_, ?_, ?_, ?_, ?_, ?_, ?_, ?_, ?_⟩
  · rw [hs.maxLegs]; exact hc.positive
  · rw [hs.usedLegs, hs.maxLegs]; exact hc.budget
  · intro k
    rw [hs.usedLegs, ← hc.ordinals k]
    constructor
    · rintro ⟨l', hl', hof, rfl⟩
      obtain ⟨l, hl, hsame, -⟩ := was l' hl' hof
      exact ⟨l, hl, (hsame.of hs).1 hof, hsame.ordinal.symm⟩
    · rintro ⟨l, hl, hof, rfl⟩
      obtain ⟨l', hl', hsame⟩ := kept l hl hof
      exact ⟨l', hl', (hsame.of hs).2 hof, hsame.ordinal⟩
  · intro l' hl' hof ho
    obtain ⟨l, hl, hsame, -⟩ := was l' hl' hof
    rw [hsame.parentLegId, hsame.source, hsame.target, hs.requester, hs.responder]
    exact hc.first l hl ((hsame.of hs).1 hof) (hsame.ordinal ▸ ho)
  · intro a' ha' hofa b' hb' hofb hord
    obtain ⟨a, ha, hsa, -⟩ := was a' ha' hofa
    obtain ⟨b, hb, hsb, -⟩ := was b' hb' hofb
    rw [hsb.parentLegId, hsb.source, hsb.target, hsa.id, hsa.source, hsa.target]
    refine hc.next a ha ((hsa.of hs).1 hofa) b hb ((hsb.of hs).1 hofb) ?_
    rw [← hsa.ordinal, ← hsb.ordinal]; exact hord
  · intro l' hl' hof
    obtain ⟨l, hl, hsame, -⟩ := was l' hl' hof
    rw [hs.activeLegId, hs.usedLegs, hsame.id, hsame.ordinal]
    exact hc.active l hl ((hsame.of hs).1 hof)
  · rw [hs.usedLegs, hs.activeLegId]; exact hc.idle
  · intro ha l' hl' hof hord
    obtain ⟨l, hl, hsame, hr⟩ := was l' hl' hof
    rw [hr ha]
    refine hc.committed (hact ha) l hl ((hsame.of hs).1 hof) ?_
    rw [← hsame.ordinal, ← hs.usedLegs]; exact hord
  · intro ha l' hl' hof hord
    obtain ⟨l, hl, hsame, hr⟩ := was l' hl' hof
    rw [hr ha]
    refine hc.opened (hact ha) l hl ((hsame.of hs).1 hof) ?_
    rw [← hsame.ordinal, ← hs.usedLegs]; exact hord
  · intro hw
    rw [hs.usedLegs]
    rcases hst with hst | hst
    · exact hc.waiting (hst ▸ hw)
    · rw [hw] at hst; cases hst
  · intro ha; rw [hs.usedLegs]; exact hc.started (hact ha)

lemma Quiet.chain (h : Quiet s s') (hc : Chain s e) (hs : e.Same e')
    (he' : e' ∈ s'.exchanges) (hst : e'.status = e.status ∨ e'.status.terminal = true) :
    Chain s' e' := by
  refine hc.transfer hs hst (fun l' hl' hof => ?_) fun l hl _ => h.legKept l hl
  obtain ⟨l, hl, hsame, hr⟩ := h.leg l' hl'
  exact ⟨l, hl, hsame, fun ha => hr.resolve_right fun hr => hr.2 e' he' hof.1.symm ha⟩

lemma Quiet.ok (h : Quiet s s') (hs : StoreOk s) : StoreOk s' where
  keys := by
    refine hs.keys.frame (fun e he => ?_) fun l' hl' => ?_
    · obtain ⟨e', he', hsame⟩ := h.exchangeKept e he
      exact ⟨e', he', hsame.id⟩
    · obtain ⟨l, hl, hsame, hr⟩ := h.leg l' hl'
      exact ⟨l, hl, hsame, fun _ => hr.imp id And.left⟩
  chain := by
    intro e' he'
    obtain ⟨e, he, hsame, hst⟩ := h.exchange e' he'
    exact h.chain (hs.chain e he) hsame he' hst

/-! ### Transactions that add a leg -/

lemma Chain.frame (hc : Chain s e)
    (h : ∀ l, l.exchangeId = e.id → l.kind ≠ .status → (l ∈ s'.legs ↔ l ∈ s.legs)) :
    Chain s' e :=
  hc.transfer (.refl e) (.inl rfl)
    (fun l hl hof => ⟨l, (h l hof.1 hof.2).1 hl, .refl l, fun _ => rfl⟩)
    fun l hl hof => ⟨l, (h l hof.1 hof.2).2 hl, .refl l⟩

structure First (e : Exchange) (l : Leg) : Prop where
  of : l.Of e
  ordinal : l.ordinal = 1
  parent : l.parentLegId = none
  source : l.sourceSessionId = e.requesterSessionId
  target : l.targetSessionId = e.responderSessionId
  opened : l.responseState = .opened
  used : e.usedLegs = 1
  active : e.activeLegId = some l.id
  status : e.status = .active

lemma chain_first (hnone : ∀ x ∈ s.legs, ¬ x.Of e) (hlegs : ∀ x, x ∈ s'.legs ↔ x ∈ s.legs ∨ x = l)
    (h : First e l) (hmax : 0 < e.maxLegs) : Chain s' e := by
  obtain ⟨hof, hord, hparent, hsource, htarget, hresp, hused, hact, hst⟩ := h
  have only : ∀ x ∈ s'.legs, x.Of e → x = l := by
    intro x hx hofx
    rcases (hlegs x).1 hx with hx | rfl
    · exact absurd hofx (hnone x hx)
    · rfl
  refine ⟨hmax, by omega, fun k => ?_, ?_, ?_, ?_, fun h => by omega, ?_, ?_, ?_, fun _ => by omega⟩
  · constructor
    · rintro ⟨x, hx, hofx, rfl⟩
      rw [only x hx hofx]; omega
    · intro hk
      exact ⟨l, (hlegs l).2 (.inr rfl), hof, by omega⟩
  · intro x hx hofx _
    rw [only x hx hofx]; exact ⟨hparent, hsource, htarget⟩
  · intro a ha hofa b hb hofb hab
    rw [only a ha hofa, only b hb hofb] at hab; omega
  · intro x hx hofx
    rw [only x hx hofx]; simp [hact, hord, hused]
  · intro _ x hx hofx hne
    rw [only x hx hofx] at hne; omega
  · intro _ x hx hofx _
    rw [only x hx hofx]; exact hresp
  · intro hw; rw [hst] at hw; cases hw

/-- The response to the active leg becomes the next leg of the chain. -/
lemma chain_next {i i' : Leg} (hc : Chain s e) (hkeys : Keys s) (hi : i ∈ s.legs)
    (hofi : i.Of e) (hordi : i.ordinal = e.usedLegs) (hsame : i.Same i')
    (hcomm : i'.responseState.committed = true)
    (hlegs : ∀ x, x ∈ s'.legs ↔ (x ∈ s.legs ∧ x ≠ i) ∨ x = i' ∨ x = l) (hid : e'.id = e.id)
    (hreq : e'.requesterSessionId = e.requesterSessionId)
    (hrsp : e'.responderSessionId = e.responderSessionId) (hst : e'.status = e.status)
    (hstatus : e.status = .active) (hused : e'.usedLegs = e.usedLegs + 1)
    (hroom : e'.usedLegs ≤ e'.maxLegs) (hact : e'.activeLegId = some l.id) (hof : l.Of e')
    (hord : l.ordinal = e.usedLegs + 1) (hparent : l.parentLegId = some i.id)
    (hsource : l.sourceSessionId = i.targetSessionId) (htarget : l.targetSessionId = i.sourceSessionId)
    (hresp : l.responseState = .opened) (hfresh : ∀ x ∈ s.legs, x.id ≠ l.id) : Chain s' e' := by
  have hone := hc.started hstatus
  -- every leg of the extended chain is the new one or continues an old one
  have old : ∀ x ∈ s'.legs, x.Of e' → x = l ∨ ∃ y ∈ s.legs, y.Same x ∧ y.Of e ∧
      y.ordinal ≤ e.usedLegs ∧ x.responseState.committed = true := by
    intro x hx hofx
    rcases (hlegs x).1 hx with ⟨hx, hne⟩ | rfl | rfl
    · have hofx' : x.Of e := ⟨hofx.1.trans hid, hofx.2⟩
      have hk := (hc.ordinals x.ordinal).1 ⟨x, hx, hofx', rfl⟩
      refine .inr ⟨x, hx, .refl x, hofx', hk.2, hc.committed hstatus x hx hofx' ?_⟩
      intro heq
      exact hne (hkeys.ordinal x hx i hi (hofx'.1.trans hofi.1.symm) (heq.trans hordi.symm))
    · exact .inr ⟨i, hi, hsame, hofi, hordi.le, hcomm⟩
    · exact .inl rfl
  have kept : ∀ y ∈ s.legs, ∃ x ∈ s'.legs, y.Same x := by
    intro y hy
    by_cases hyi : y = i
    · exact ⟨i', (hlegs i').2 (.inr (.inl rfl)), hyi ▸ hsame⟩
    · exact ⟨y, (hlegs y).2 (.inl ⟨hy, hyi⟩), .refl y⟩
  refine ⟨by omega, hroom, fun k => ?_, ?_, ?_, ?_, fun h => by omega, ?_, ?_, ?_, fun _ => by omega⟩
  · constructor
    · rintro ⟨x, hx, hofx, rfl⟩
      rcases old x hx hofx with rfl | ⟨y, hy, hsy, hofy, -, -⟩
      · omega
      · have := (hc.ordinals y.ordinal).1 ⟨y, hy, hofy, rfl⟩
        rw [hsy.ordinal]; omega
    · intro hk
      by_cases hkl : k = e.usedLegs + 1
      · exact ⟨l, (hlegs l).2 (.inr (.inr rfl)), hof, hord.trans hkl.symm⟩
      · obtain ⟨y, hy, hofy, hyk⟩ := (hc.ordinals k).2 (by omega)
        obtain ⟨x, hx, hsy⟩ := kept y hy
        refine ⟨x, hx, ⟨?_, ?_⟩, hsy.ordinal.trans hyk⟩
        · rw [hsy.exchangeId, hofy.1, hid]
        · rw [hsy.kind]; exact hofy.2
  · intro x hx hofx h1
    rcases old x hx hofx with rfl | ⟨y, hy, hsy, hofy, -, -⟩
    · omega
    · rw [hsy.parentLegId, hsy.source, hsy.target, hreq, hrsp]
      exact hc.first y hy hofy (hsy.ordinal ▸ h1)
  · intro a ha hofa b hb hofb hab
    rcases old a ha hofa with rfl | ⟨a', ha', hsa, hofa', hla, -⟩ <;>
      rcases old b hb hofb with rfl | ⟨b', hb', hsb, hofb', hlb, -⟩
    · omega
    · have := hsb.ordinal; omega
    · -- the new leg's predecessor is the inbound leg
      have hai : a' = i := by
        refine hkeys.ordinal a' ha' i hi (hofa'.1.trans hofi.1.symm) ?_
        have := hsa.ordinal; omega
      rw [hsa.id, hsa.source, hsa.target, hai]
      exact ⟨hparent, hsource, htarget⟩
    · rw [hsb.parentLegId, hsb.source, hsb.target, hsa.id, hsa.source, hsa.target]
      refine hc.next a' ha' hofa' b' hb' hofb' ?_
      rw [← hsa.ordinal, ← hsb.ordinal]; exact hab
  · intro x hx hofx
    rcases old x hx hofx with rfl | ⟨y, hy, hsy, hofy, hly, -⟩
    · simp [hact, hord, hused]
    · rw [hact, hsy.ordinal]
      refine ⟨fun h => ?_, fun h => by omega⟩
      exact absurd (hsy.id.symm.trans (Option.some.inj h).symm) (hfresh y hy)
  · intro _ x hx hofx hne
    rcases old x hx hofx with rfl | ⟨y, hy, hsy, hofy, hly, hcx⟩
    · omega
    · exact hcx
  · intro _ x hx hofx heq
    rcases old x hx hofx with rfl | ⟨y, hy, hsy, hofy, hly, -⟩
    · exact hresp
    · have := hsy.ordinal; omega
  · intro hw; rw [hst, hstatus] at hw; cases hw

/-- A new leg that clashes with none keeps how legs are identified. -/
lemma Keys.insertLeg (hs : Keys s) (h : insertLeg s l = .ok s')
    (hn : l.kind = .status → l.ordinal = 0 ∧ l.parentLegId = none ∧ l.responseState = .closed) :
    Keys s' := by
  obtain ⟨⟨hown, -, hclash⟩, t, ht, rfl⟩ := insertLeg_ok h
  have mem : ∀ x, x ∈ t ↔ x ∈ s.legs ∨ x = l := fun x => mem_insert? ht
  have clash : ∀ x ∈ s.legs, (x.exchangeId = l.exchangeId → x.ordinal ≠ l.ordinal) ∧
      (∀ p, x.parentLegId = some p → l.parentLegId ≠ some p) := by
    intro x hx
    have := hclash x hx
    simp only [Leg.clashes, Bool.or_eq_false_iff, Bool.and_eq_false_iff] at this
    constructor
    · intro he ho
      rcases this.1 with h | h
      · simp [he] at h
      · simp [ho] at h
    · intro p hp hq
      rcases this.2 with h | h <;> simp [hp, hq] at h
  refine ⟨fun x hx => ?_, fun a ha b hb hx ho => ?_, fun a ha b hb p hpa hpb => ?_, fun x hx hk => ?_⟩
  · rcases (mem x).1 hx with hx | rfl
    · exact hs.owner x hx
    · exact hown
  · rcases (mem a).1 ha with ha | rfl <;> rcases (mem b).1 hb with hb | rfl
    · exact hs.ordinal a ha b hb hx ho
    · exact absurd ho ((clash a ha).1 hx)
    · exact absurd ho.symm ((clash b hb).1 hx.symm)
    · rfl
  · rcases (mem a).1 ha with ha | rfl <;> rcases (mem b).1 hb with hb | rfl
    · exact hs.oneChild a ha b hb p hpa hpb
    · exact absurd hpb ((clash a ha).2 p hpa)
    · exact absurd hpa ((clash b hb).2 p hpb)
    · rfl
  · rcases (mem x).1 hx with hx | rfl
    · exact hs.notice x hx hk
    · exact hn hk

lemma Keys.updateExchanges (hs : Keys s) : Keys (s.updateExchanges p f hf) := by
  refine hs.frame (fun e he => ⟨_, mem_updateExchanges.2 ⟨e, he, rfl⟩, ?_⟩)
    fun l hl => ⟨l, hl, .refl l, fun _ => .inl rfl⟩
  split
  · exact hf e
  · rfl

/-- Where only the exchange `ex` is rewritten and only its legs change, it is enough to look at
    `ex`. -/
lemma chains_of_one {s1 : Store} {ex : Exchange} (hs : StoreOk s)
    (hx : s1.exchanges = s.exchanges) (hp : ∀ e ∈ s.exchanges, p e = true ↔ e = ex)
    (hlegs : ∀ l, l.exchangeId ≠ ex.id → (l ∈ s1.legs ↔ l ∈ s.legs)) (hmem : ex ∈ s.exchanges)
    (hchain : Chain (s1.updateExchanges p f hf) (f ex)) :
    ∀ e ∈ (s1.updateExchanges p f hf).exchanges, Chain (s1.updateExchanges p f hf) e := by
  intro e he
  obtain ⟨y, hy, rfl⟩ := mem_updateExchanges.1 he
  rw [hx] at hy
  by_cases hpy : p y = true
  · rw [if_pos hpy, (hp y hy).1 hpy]; exact hchain
  · rw [if_neg hpy]
    refine (hs.chain y hy).frame fun l hl _ => hlegs l fun hlx => hpy ((hp y hy).2 ?_)
    exact s.exchanges.eq_of_key hy hmem (hl.symm.trans hlx)

end CrossChat
