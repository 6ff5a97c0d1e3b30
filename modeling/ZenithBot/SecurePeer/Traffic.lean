import ZenithBot.SecurePeer.Change

/-! The relay calls inverted. Pruning is described table by table; a submission that is accepted is
    described by the letter it adds and the place the letter takes in its exchange (`Accepted`); a
    claim by the rows it hands out; a receipt by the row it settles or expires. -/

namespace SecurePeer
open Lib Table List

variable {δ : Type}
variable {peer : PeerAuthorization} {outcome : Outcome} {localRoute : Option Uuid} {e e' : Envelope δ}
  {owner token : String} {inbox : Inbox} {reply : ClaimReply δ} {envelopeId : String} {limit : Nat}

/-! ### Pruning -/

section Prune
variable {s : Store δ} {t : Nat}

lemma prune_exchange {x' : Exchange} (h : x' ∈ (s.pruneRelayState t).exchanges) :
    ∃ x ∈ s.exchanges, (x.status = .opened ∧ x.expiresAt ≤ t ∧ x' = x.expire) ∨
      (x' = x ∧ (x.status = .opened → t < x.expiresAt)) := by
  obtain ⟨x, hx, hc⟩ := Store.expireExchanges_cases (mem_deleteWhere.1 h).1
  refine ⟨x, hx, ?_⟩
  simpa using hc

lemma prune_envelope (h : e' ∈ (s.pruneRelayState t).envelopes) :
    ∃ e ∈ s.envelopes, (e.status.live = true ∧ e.expiresAt ≤ t ∧ e' = e.expire) ∨
      (e' = e ∧ (e.status.live = true → t < e.expiresAt)) := by
  obtain ⟨e, he, hc⟩ := Store.expireEnvelopes_cases
    (p := fun e => decide (e.expiresAt ≤ t)) (mem_deleteWhere.1 h).1
  refine ⟨e, he, ?_⟩
  simpa using hc

/-- An envelope survives pruning, or it was created longer ago than the retention. -/
lemma prune_kept (h : e ∈ s.envelopes) :
    (∃ e' ∈ (s.pruneRelayState t).envelopes, e'.toLetter = e.toLetter) ∨
      e.createdAt + relayTerminalRetentionSeconds < t := by
  obtain ⟨e', he', hl⟩ := Store.expireEnvelopes_of_mem (p := fun e => decide (e.expiresAt ≤ t)) h
  cases hr : Store.retired t e' with
  | false => exact .inl ⟨e', mem_deleteWhere.2 ⟨he', hr⟩, hl⟩
  | true =>
    have hc : e'.createdAt < t - relayTerminalRetentionSeconds := by
      simpa [Store.retired] using (Bool.and_eq_true_iff.1 hr).2
    have hcreated : e'.createdAt = e.createdAt := congrArg Letter.createdAt hl
    omega

lemma prune_receipt {r : Receipt} (h : r ∈ (s.pruneRelayState t).receipts) : r ∈ s.receipts :=
  (mem_deleteWhere.1 h).1

end Prune

/-! ### Submission -/

section Submit
variable {s s' : Store δ} {call : Call} {peer : PeerAuthorization} {payload : EnvelopePayload}
  {sub : Submission} {localRoute : Option Uuid} {canonicalJson : EnvelopePayload → String}
  {sha256 : String → δ}
variable {slot : LegSlot} {newExchangeId : Uuid} {source target : Route} {l : Letter δ} {x : Exchange}

lemma checkSubmission_ok (h : checkSubmission canonicalJson call peer payload localRoute = .ok sub) :
    sub.requestId.text = payload.requestId ∧ sub.sourceRouteId.text = payload.sourceRouteId ∧
      (∀ r, localRoute = some r → sub.sourceRouteId = r) ∧ call.timestamp < payload.expiresAt ∧
      payload.expiresAt ≤ call.timestamp + maxRelayTtlSeconds := by
  obtain ⟨requestId, hreq, h⟩ := bind_ok h
  obtain ⟨sourceRouteId, hsrc, h⟩ := bind_ok h
  obtain ⟨hlocal, h⟩ := refuse_ok h
  iterate 6 obtain ⟨_, _, h⟩ := bind_ok h
  obtain ⟨htime, h⟩ := refuse_ok h
  iterate 2 obtain ⟨_, _, h⟩ := bind_ok h
  cases h
  refine ⟨uuid_ok hreq, uuid_ok hsrc, ?_, not_not.1 htime⟩
  rintro r rfl
  simpa using hlocal

lemma sourceRouteOf_some (hlocal : ∀ r, localRoute = some r → sub.sourceRouteId = r)
    (h : sourceRouteOf s peer sub localRoute = some source) :
    source ∈ s.routes ∧ source.id = sub.sourceRouteId ∧ source.status = .active := by
  cases localRoute with
  | none =>
    obtain ⟨hfind, hp⟩ := Option.filter_eq_some_iff.1 h
    obtain ⟨hmem, hid⟩ := find?_eq_some.1 hfind
    simp only [Bool.and_eq_true, decide_eq_true_eq] at hp
    exact ⟨hmem, hid, hp.2⟩
  | some r =>
    obtain ⟨hfind, hp⟩ := Option.filter_eq_some_iff.1 h
    obtain ⟨hmem, hid⟩ := find?_eq_some.1 hfind
    simp only [Bool.and_eq_true, decide_eq_true_eq] at hp
    exact ⟨hmem, hid.trans (hlocal r rfl).symm, hp.2⟩

lemma targetRouteOf_ok {epoch : Nat} {revision : String}
    (h : targetRouteOf s call epoch peer revision sub source = .ok target) :
    target ∈ s.routes ∧ target.id = sub.targetRouteId ∧ target.status = .active ∧
      target.revision = revision := by
  obtain ⟨route, hroute, h⟩ := found_ok h
  obtain ⟨havail, h⟩ := refuse_ok h
  iterate 3 obtain ⟨_, _, h⟩ := bind_ok h
  obtain ⟨hmem, hid⟩ := find?_eq_some.1 hroute
  have hactive : route.status = .active ∧ route.revision = revision := by
    have ha := not_not.1 havail
    simp only [targetAvailable, Bool.and_eq_true, decide_eq_true_eq] at ha
    exact ⟨ha.1.1.2, ha.1.2⟩
  have hroute' : target = route := by
    split at h
    · cases h; rfl
    · iterate 2 obtain ⟨_, _, h⟩ := bind_ok h
      cases h; rfl
  rw [hroute']
  exact ⟨hmem, hid, hactive⟩

/-- The exchange row after it got the letter. -/
def Exchange.advance (x : Exchange) (l : Letter δ) : Exchange :=
  { x with lastEnvelopeId := some l.id, usedLegs := l.usedLegs,
           status := if l.kind.terminal then .complete else .opened }

structure FirstLeg (s : Store δ) (newExchangeId : Uuid) (x : Exchange) (l : Letter δ) : Prop where
  exchangeId : l.exchangeId = newExchangeId
  usedLegs : l.usedLegs = 1
  parent : l.parentEnvelopeId = none
  firstRoute : x.firstRouteId = l.sourceRouteId
  secondRoute : x.secondRouteId = l.targetRouteId

structure NextLeg (s : Store δ) (x : Exchange) (p : Envelope δ) (l : Letter δ) : Prop where
  exchange : x ∈ s.exchanges
  isOpen : x.status = .opened
  parent : p ∈ s.envelopes
  last : x.lastEnvelopeId = some p.id
  parentId : l.parentEnvelopeId = some p.id
  source : p.targetRouteId = l.sourceRouteId
  target : p.sourceRouteId = l.targetRouteId
  usedLegs : l.usedLegs = x.usedLegs + 1
  budget : l.usedLegs ≤ maxRelayLegs
  room : l.kind = .requestReply → l.usedLegs < maxRelayLegs

/-- What an accepted submission did, from the pruned store `s`. -/
structure Accepted (s s' : Store δ) (call : Call) (payload : EnvelopePayload)
    (envelopeId newExchangeId : Uuid) (x : Exchange) (l : Letter δ) : Prop extends SameAccounts s s' where
  id : l.id = envelopeId
  requestId : l.requestId.text = payload.requestId
  sourceRouteId : l.sourceRouteId.text = payload.sourceRouteId
  expiresAt : l.expiresAt = payload.expiresAt
  pending : call.timestamp < l.expiresAt
  bounded : l.expiresAt ≤ l.createdAt + maxRelayTtlSeconds
  sourceActive : ∃ r ∈ s.routes, r.id = l.sourceRouteId ∧ r.status = .active ∧
    r.revision = l.sourceRouteRevision
  targetActive : ∃ r ∈ s.routes, r.id = l.targetRouteId ∧ r.status = .active ∧
    r.revision = l.targetRouteRevision
  exchange : x.id = l.exchangeId ∧ x.expiresAt = l.expiresAt
  place : FirstLeg s newExchangeId x l ∨ ∃ p, NextLeg s x p l
  newRequest : ∀ e ∈ s.envelopes, ¬(e.sourceRouteId = l.sourceRouteId ∧ e.requestId = l.requestId)
  envelopes : s'.envelopes.rows = s.envelopes.rows ++ [{ l with status := .queued }]
  exchanges : ∀ y, y ∈ s'.exchanges ↔ (y ∈ s.exchanges ∧ y.id ≠ l.exchangeId) ∨ y = x.advance l
  receipts : s'.receipts = s.receipts
  routes : s'.routes = s.routes

/-- What choosing the place of a letter leaves: the exchange row the letter will advance. -/
structure Placed (s s₁ : Store δ) (newExchangeId : Uuid) (x : Exchange) (l : Letter δ) : Prop where
  exchange : x.id = l.exchangeId ∧ x.expiresAt = l.expiresAt
  mem : x ∈ s₁.exchanges
  others : ∀ y, y.id ≠ l.exchangeId → (y ∈ s₁.exchanges ↔ y ∈ s.exchanges)
  place : FirstLeg s newExchangeId x l ∨ ∃ p, NextLeg s x p l
  same : s₁ = { s with exchanges := s₁.exchanges }

section
variable (canonicalJson sha256) (envelopeId : Uuid)

lemma openExchange_placed
    (h : openExchange s call peer payload sub source target newExchangeId = .ok (s', slot)) :
    slot.expiresAt = payload.expiresAt ∧ ∃ x, Placed s s' newExchangeId x
      (newLetter canonicalJson sha256 call peer payload sub source target slot envelopeId) := by
  obtain ⟨hfirst, h⟩ := refuse_ok h
  obtain ⟨s1, hins, h⟩ := bind_ok h
  cases h
  obtain ⟨_, _, hins⟩ := bind_ok hins
  obtain ⟨t, ht, hins⟩ := found_ok hins
  cases hins
  have hmem := fun {x} => mem_insert? (x := x) ht
  refine ⟨rfl, _, ⟨rfl, rfl⟩, hmem.2 (.inr rfl), ?_, .inl ⟨rfl, rfl,
    by simpa [newLetter] using (not_or.1 hfirst).1, rfl, rfl⟩, rfl⟩
  intro y hy
  refine ⟨fun h => ?_, fun h => hmem.2 (.inl h)⟩
  rcases hmem.1 h with h | rfl
  · exact h
  · exact absurd rfl hy

lemma continueExchange_placed {exchangeId : Uuid}
    (h : continueExchange s call payload sub source target exchangeId = .ok (s', slot)) :
    slot.expiresAt = payload.expiresAt ∧ ∃ x, Placed s s' newExchangeId x
      (newLetter canonicalJson sha256 call peer payload sub source target slot envelopeId) := by
  obtain ⟨parentId, hparent, h⟩ := found_ok h
  obtain ⟨x, hx, h⟩ := found_ok h
  obtain ⟨p, hp, h⟩ := found_ok h
  obtain ⟨hguard, h⟩ := refuse_ok h
  obtain ⟨hbudget, h⟩ := refuse_ok h
  obtain ⟨-, h⟩ := refuse_ok h
  obtain ⟨hroom, h⟩ := refuse_ok h
  cases h
  obtain ⟨hxmem, rfl⟩ := find?_eq_some.1 hx
  obtain ⟨hpmem, rfl⟩ := find?_eq_some.1 hp
  simp only [not_or, not_not] at hguard
  obtain ⟨-, hopen, hlast, hsource, htarget, -, -, -, -, hexp⟩ := hguard
  refine ⟨hexp.symm, x, ⟨rfl, rfl⟩, hxmem, fun _ _ => Iff.rfl, .inr ⟨p, ?_⟩, rfl⟩
  refine ⟨hxmem, hopen, hpmem, hlast, hparent, hsource, htarget, rfl, not_lt.1 hbudget, ?_⟩
  intro hk
  have := not_and.1 hroom hk
  simp only [newLetter]
  omega

lemma legSlot_placed
    (h : legSlot s call peer payload sub source target newExchangeId = .ok (s', slot)) :
    slot.expiresAt = payload.expiresAt ∧ ∃ x, Placed s s' newExchangeId x
      (newLetter canonicalJson sha256 call peer payload sub source target slot envelopeId) := by
  unfold legSlot at h
  split at h
  · exact openExchange_placed canonicalJson sha256 envelopeId h
  · exact continueExchange_placed canonicalJson sha256 envelopeId h

end

lemma chargeSender_same {window bytes : Nat} (h : chargeSender s peer window bytes = .ok s') :
    s' = { s with usage := s'.usage } := by
  unfold chargeSender at h
  split at h
  · unfold Store.chargeUsage at h
    split at h
    · cases h; rfl
    · obtain ⟨_, _, h⟩ := bind_ok h
      obtain ⟨_, _, h⟩ := bind_ok h
      cases h; rfl
  · cases h; rfl

/-- The compare-and-set hits the one row of the exchange. -/
lemma advanceExchange_ok (hx : x ∈ s.exchanges)
    (hid : x.id = slot.exchangeId) (hlegs : l.usedLegs = slot.usedLegs)
    (h : advanceExchange s slot l.id l.kind = .ok s') :
    s' = { s with exchanges := s'.exchanges } ∧
      ∀ y, y ∈ s'.exchanges ↔ (y ∈ s.exchanges ∧ y.id ≠ slot.exchangeId) ∨ y = x.advance l := by
  obtain ⟨hcas, h⟩ := refuse_ok h
  cases h
  refine ⟨rfl, fun y => ?_⟩
  obtain ⟨z, hz, hcur⟩ := any_eq_true.1 (not_not.1 hcas)
  have hone : ∀ y ∈ s.exchanges, y.id = slot.exchangeId → y = x :=
    fun y hy hyid => s.exchanges.eq_of_key hy hx (hyid.trans hid.symm)
  have hzx : z = x := hone z hz (by simp only [Bool.and_eq_true, decide_eq_true_eq] at hcur
                                    exact hcur.1.1)
  have hadv : x.advance l = { x with
      lastEnvelopeId := some l.id, usedLegs := slot.usedLegs,
      status := if l.kind.terminal then .complete else .opened } := by
    rw [Exchange.advance, hlegs]
  rw [hadv]
  refine (mem_updateWhere_one hx fun y hy => ⟨fun hp => ?_, ?_⟩).trans ?_
  · simp only [Bool.and_eq_true, decide_eq_true_eq] at hp
    exact hone y hy hp.1.1
  · rintro rfl
    exact hzx ▸ hcur
  · refine or_congr_left (and_congr_right fun hy => not_congr ⟨?_, hone y hy⟩)
    rintro rfl
    exact hid

lemma recordLeg_ok (hx : x ∈ s.exchanges) (hid : x.id = slot.exchangeId)
    (hlegs : l.usedLegs = slot.usedLegs) (h : recordLeg s call peer l slot = .ok s') :
    s'.envelopes.rows = s.envelopes.rows ++ [{ l with status := .queued }] ∧
      (∀ y, y ∈ s'.exchanges ↔ (y ∈ s.exchanges ∧ y.id ≠ slot.exchangeId) ∨ y = x.advance l) ∧
      s' = { s with envelopes := s'.envelopes, exchanges := s'.exchanges, usage := s'.usage } := by
  obtain ⟨s1, hs1, h⟩ := bind_ok h
  obtain ⟨s2, hs2, h⟩ := bind_ok h
  have h1 := chargeSender_same hs1
  iterate 2 obtain ⟨_, _, hs2⟩ := bind_ok hs2
  obtain ⟨t, ht, hs2⟩ := found_ok hs2
  cases hs2
  obtain ⟨hrows, -⟩ := insert?_eq_some ht
  have hx1 : x ∈ s1.exchanges := by rw [h1]; exact hx
  obtain ⟨h3, hexch⟩ := advanceExchange_ok (s := { s1 with envelopes := t }) hx1 hid hlegs h
  have henv : s1.envelopes = s.envelopes := by rw [h1]
  have hexs : s1.exchanges = s.exchanges := by rw [h1]
  refine ⟨?_, ?_, ?_⟩
  · rw [h3, ← henv]; exact hrows
  · intro y; rw [← hexs]; exact hexch y
  · rw [h3, h1]

/-- A submission that is not refused is a replay that only prunes, or it is accepted. -/
lemma submitEnvelope_cases [DecidableEq δ] {envelopeId : Uuid} {reply : SubmitReply} (h :
      submitEnvelope canonicalJson sha256 s call peer payload localRoute envelopeId newExchangeId = .ok
      (s', reply)) :
    s' = s.pruneRelayState call.timestamp ∨ ∃ x l,
      Accepted (s.pruneRelayState call.timestamp) s' call payload envelopeId newExchangeId x l := by
  obtain ⟨epoch, _, h⟩ := bind_ok h
  obtain ⟨sub, hsub, h⟩ := bind_ok h
  obtain ⟨source, hsource, h⟩ := found_ok h
  split at h
  · obtain ⟨_, _, h⟩ := bind_ok h
    cases h; exact .inl rfl
  rename_i hnone
  obtain ⟨_, _, h⟩ := bind_ok h
  obtain ⟨target, htarget, h⟩ := bind_ok h
  obtain ⟨⟨s1, slot⟩, hslot, h⟩ := bind_ok h
  obtain ⟨s2, hrec, h⟩ := bind_ok h
  cases h
  obtain ⟨hreq, hsrc, hlocal, hlt, hle⟩ := checkSubmission_ok hsub
  obtain ⟨hsm, hsid, hsa⟩ := sourceRouteOf_some hlocal hsource
  obtain ⟨htm, htid, hta⟩ := targetRouteOf_ok htarget
  obtain ⟨hexp, x, hx⟩ := legSlot_placed canonicalJson sha256 envelopeId hslot
  obtain ⟨henv, hexch, hsame⟩ := recordLeg_ok hx.mem hx.exchange.1 rfl hrec
  have henvs : s1.envelopes = (s.pruneRelayState call.timestamp).envelopes := by rw [hx.same]
  rw [henvs] at henv
  refine .inr ⟨x, newLetter canonicalJson sha256 call peer payload sub source target slot envelopeId, {
    id := rfl
    requestId := hreq
    sourceRouteId := (congrArg Uuid.text hsid).trans hsrc
    expiresAt := hexp
    pending := hlt.trans_eq hexp.symm
    bounded := hexp.trans_le hle
    sourceActive := ⟨source, hsm, rfl, hsa, rfl⟩
    targetActive := ⟨target, htm, rfl, hta⟩
    exchange := hx.exchange
    place := hx.place
    newRequest := ?_
    envelopes := henv
    exchanges := ?_
    receipts := by rw [hsame, hx.same]
    routes := by rw [hsame, hx.same]
    peers := by rw [hsame, hx.same]
    certificates := by rw [hsame, hx.same]
    renewals := by rw [hsame, hx.same] }⟩
  · rintro e he ⟨hr, hq⟩
    have := find?_eq_none.1 hnone e he
    simp only [Bool.and_eq_true, decide_eq_true_eq] at this
    exact this ⟨hr, hq⟩
  · intro y
    rw [hexch y]
    exact or_congr_left (and_congr_left fun hy => hx.others y hy)

end Submit

/-! ### Claims -/

section Claim
variable {s s' : Store δ} {call : Call} {sha256 : String → δ} {host : String}

def claimBase (s : Store δ) (t : Nat) : Store δ := (s.pruneRelayState t).requeueExpiredLeases t

/-- A row before a claim leases anything: pruned, and requeued if its lease ran out. -/
lemma claimBase_envelope {t : Nat} (h : e' ∈ (claimBase s t).envelopes) :
    ∃ e ∈ (s.pruneRelayState t).envelopes, e' = e ∨ (e.status = .claimed ∧ e'.status = .queued ∧
      e'.toLetter = e.toLetter) := by
  obtain ⟨e, he, ⟨hp, rfl⟩ | ⟨_, rfl⟩⟩ := updateWhere_cases h
  · simp only [Bool.and_eq_true, decide_eq_true_eq] at hp
    exact ⟨e, he, .inr ⟨hp.1.1, rfl, rfl⟩⟩
  · exact ⟨e', he, .inl rfl⟩

lemma claimBase_kept {t : Nat} (h : e ∈ (s.pruneRelayState t).envelopes) :
    ∃ e' ∈ (claimBase s t).envelopes, e'.toLetter = e.toLetter :=
  exists_updateWhere h (fun _ => rfl) fun _ => rfl

/-- What a claim hands out and does to the rows. -/
structure Claimed (s s' : Store δ) (call : Call) (tokenHash : δ) (rows : List (Envelope δ)) :
    Prop extends SameAccounts s s' where
  queued : ∀ e ∈ rows, e ∈ (claimBase s call.timestamp).envelopes ∧ e.status = .queued
  current : ∀ e ∈ rows, ∃ source ∈ s.routes, ∃ target ∈ s.routes, source.id = e.sourceRouteId ∧
    target.id = e.targetRouteId ∧ source.status = .active ∧ target.status = .active ∧
    source.revision = e.sourceRouteRevision ∧ target.revision = e.targetRouteRevision
  envelope : ∀ e' ∈ s'.envelopes, ∃ e ∈ (claimBase s call.timestamp).envelopes,
    (e ∉ rows ∧ e' = e) ∨ (e ∈ rows ∧ e'.toLetter = e.toLetter ∧ e'.status = .claimed ∧
      e'.leaseTokenHash = some tokenHash)
  kept : ∀ e ∈ (claimBase s call.timestamp).envelopes, ∃ e' ∈ s'.envelopes,
    e'.toLetter = e.toLetter
  exchanges : s'.exchanges = (s.pruneRelayState call.timestamp).exchanges
  receipts : s'.receipts = (s.pruneRelayState call.timestamp).receipts
  routes : s'.routes = s.routes

lemma inboxRows_mem {row : Envelope δ × Route × Route} (h : row ∈ inboxRows s host peer inbox) :
    row.1 ∈ s.envelopes ∧ row.1.status = .queued ∧ ∃ source ∈ s.routes, ∃ target ∈ s.routes,
      source.id = row.1.sourceRouteId ∧ target.id = row.1.targetRouteId ∧
      source.status = .active ∧ target.status = .active ∧
      source.revision = row.1.sourceRouteRevision ∧ target.revision = row.1.targetRouteRevision := by
  obtain ⟨e, he, hrow⟩ := mem_filterMap.1 h
  have hmem : e ∈ s.envelopes := (perm_insertionSort _ _).mem_iff.1 he
  split at hrow
  · rename_i source target hs ht
    split at hrow
    · rename_i hc
      cases hrow
      obtain ⟨hq, hcur, -, -⟩ := hc
      obtain ⟨hsm, hsid⟩ := find?_eq_some.1 hs
      obtain ⟨htm, htid⟩ := find?_eq_some.1 ht
      simp only [Letter.routesCurrent, Bool.and_eq_true, decide_eq_true_eq] at hcur
      exact ⟨hmem, hq, source, hsm, target, htm, hsid, htid, hcur.1.1.1, hcur.1.2, hcur.1.1.2,
        hcur.2⟩
    · cases hrow
  · cases hrow

lemma leaseEnvelopes_claimed {rows : List (Envelope δ)} {ids : List Uuid} {hash : δ} {u : Nat}
    (hids : ids = rows.map fun e => e.id) (hrows : ∀ e ∈ rows, e ∈ (claimBase s
      call.timestamp).envelopes ∧ e.status = .queued ∧ ∃ source ∈ s.routes, ∃ target ∈ s.routes,
      source.id = e.sourceRouteId ∧ target.id = e.targetRouteId ∧ source.status = .active ∧
      target.status = .active ∧ source.revision = e.sourceRouteRevision ∧ target.revision =
      e.targetRouteRevision) :
    Claimed s ((claimBase s call.timestamp).leaseEnvelopes ids owner hash u) call hash rows where
  queued := fun e he => ⟨(hrows e he).1, (hrows e he).2.1⟩
  current := fun e he => (hrows e he).2.2
  envelope := by
    intro e' he'
    obtain ⟨e, he, ⟨hp, rfl⟩ | ⟨hp, rfl⟩⟩ := updateWhere_cases he'
    · refine ⟨e, he, .inr ⟨?_, rfl, rfl, rfl⟩⟩
      simp only [hids, Bool.and_eq_true, contains_iff_mem, mem_map] at hp
      obtain ⟨⟨r, hr, hid⟩, -⟩ := hp
      exact (claimBase s call.timestamp).envelopes.eq_of_key (hrows r hr).1 he hid ▸ hr
    · refine ⟨e', he, .inl ⟨fun hr => ?_, rfl⟩⟩
      refine absurd hp (ne_of_eq_of_ne ?_ (by decide : true ≠ false))
      simp only [hids, Bool.and_eq_true, contains_iff_mem, decide_eq_true_eq]
      exact ⟨mem_map_of_mem hr, (hrows e' hr).2.1⟩
  kept _ he := exists_updateWhere he (fun _ => rfl) fun _ => rfl
  exchanges := rfl
  receipts := rfl
  routes := rfl
  peers := rfl
  certificates := rfl
  renewals := rfl

lemma claimInbox_claimed
    (h : claimInbox sha256 s call host peer owner limit inbox token = .ok (s', reply)) :
    ∃ rows, Claimed s s' call (sha256 token) rows ∧
      reply.envelopes = rows.map Envelope.toLetter ∧
      (reply.leaseToken = some token ∨ (reply.leaseToken = none ∧ rows = [])) := by
  iterate 5 obtain ⟨_, _, h⟩ := bind_ok h
  cases h
  refine ⟨((inboxRows (claimBase s call.timestamp) host peer inbox).take limit).map Prod.fst,
    leaseEnvelopes_claimed (by rw [map_map]; rfl) fun e he => ?_, by rw [map_map]; rfl, ?_⟩
  · obtain ⟨row, hrow, rfl⟩ := mem_map.1 he
    exact inboxRows_mem (mem_of_mem_take hrow)
  · cases hr : (inboxRows (claimBase s call.timestamp) host peer inbox).take limit with
    | nil => exact .inr ⟨if_pos (congrArg isEmpty hr), rfl⟩
    | cons => exact .inl (if_neg (ne_of_eq_of_ne (congrArg isEmpty hr) (by simp)))

end Claim

/-! ### Receipts -/

section Receipt
variable [DecidableEq δ] {s s' : Store δ} {call : Call} {sha256 : String → δ} {id : Uuid}

/-- What a receipt can do and answer: replay the one recorded, expire the envelope and its exchange,
    or settle the envelope. The last two need the token of the lease. -/
inductive Receipted (s : Store δ) (tokenHash : δ) (outcome : Outcome) :
    Store δ → Except Err ReceiptReply → Prop where
  | replay {r : Receipt} (h : r ∈ s.receipts) (ho : r.outcome = outcome) :
      Receipted s tokenHash outcome s (.ok ⟨r.envelopeId, r.outcome, r.receivedAt⟩)
  | expire {e : Envelope δ} (he : e ∈ s.envelopes) (hs : e.status = .claimed) (error : Err) :
      Receipted s tokenHash outcome
        ((s.expireEnvelopes fun l => l.id = e.id).expireExchanges fun x => x.id = e.exchangeId)
        (.error error)
  | settle {e : Envelope δ} {r : Receipt} {t : Table Receipt Uuid Receipt.envelopeId}
      (he : e ∈ s.envelopes) (hs : e.status = .claimed) (hl : e.leaseTokenHash = some tokenHash)
      (hid : r.envelopeId = e.id) (ho : r.outcome = outcome)
      (ht : s.receipts.insert? r = some t) :
      Receipted s tokenHash outcome { s.settleEnvelope e.id outcome with receipts := t }
        (.ok ⟨r.envelopeId, r.outcome, r.receivedAt⟩)

omit [DecidableEq δ] in
lemma settleEnvelope_cases (h : e' ∈ (s.settleEnvelope id outcome).envelopes) :
    ∃ e ∈ s.envelopes, e'.toLetter = e.toLetter ∧
      ((e.id = id ∧ e'.status = outcome.status) ∨ (e.id ≠ id ∧ e' = e)) := by
  obtain ⟨e, he, ⟨hp, rfl⟩ | ⟨hp, rfl⟩⟩ := updateWhere_cases h
  · exact ⟨e, he, rfl, .inl ⟨by simpa using hp, rfl⟩⟩
  · exact ⟨e', he, rfl, .inr ⟨by simpa using hp, rfl⟩⟩

omit [DecidableEq δ] in
lemma settleEnvelope_kept (h : e ∈ s.envelopes) :
    ∃ e' ∈ (s.settleEnvelope id outcome).envelopes, e'.toLetter = e.toLetter :=
  exists_updateWhere h (fun _ => rfl) fun _ => rfl

lemma receiptEnvelope_receipted {reply : Except Err ReceiptReply}
    (h : receiptEnvelope sha256 s call peer envelopeId token outcome localRoute = .ok (s', reply)) :
    Receipted s (sha256 token) outcome s' reply := by
  obtain ⟨_, _, h⟩ := bind_ok h
  obtain ⟨id, _, h⟩ := bind_ok h
  obtain ⟨_, _, h⟩ := bind_ok h
  split at h
  · rename_i existing hex
    obtain ⟨hsame, h⟩ := refuse_ok h
    cases h
    obtain ⟨hmem, rfl⟩ := find?_eq_some.1 hex
    have ho : existing.outcome = outcome :=
      not_not.1 (not_or.1 (not_or.1 hsame).2).2
    exact ho ▸ .replay hmem rfl
  obtain ⟨e, he, h⟩ := found_ok h
  obtain ⟨hheld, h⟩ := refuse_ok h
  obtain ⟨hmem, rfl⟩ := find?_eq_some.1 he
  have hh := not_not.1 hheld
  simp only [leaseHeld, Bool.and_eq_true, decide_eq_true_eq] at hh
  obtain ⟨⟨⟨-, hs⟩, hl⟩, -⟩ := hh
  split at h
  · cases h
    exact .expire hmem hs _
  · iterate 5 obtain ⟨_, _, h⟩ := bind_ok h
    obtain ⟨s1, hins, h⟩ := bind_ok h
    cases h
    obtain ⟨_, _, hins⟩ := bind_ok hins
    obtain ⟨t, ht, hins⟩ := found_ok hins
    cases hins
    exact .settle hmem hs hl rfl rfl ht

end Receipt

/-! ### Every call -/

/-- The answers of the calls that are not relay traffic. -/
inductive Reply.Plain : Reply δ → Prop where
  | refused (e : Err) : Plain (.refused e)
  | done : Plain .done

/-- What any call does: it is refused, it changes accounts and routes, or it is relay traffic. -/
inductive Performed (h : Host δ) (s : Store δ) (op : Op δ) : Store δ → Reply δ → Prop where
  | refused (e : Err) : Performed h s op s (.refused e)
  | changed {s' : Store δ} {reply : Reply δ} (hc : Changes op.action.isAccount s s')
      (hr : reply.Plain) : Performed h s op s' reply
  | replayed (reply : SubmitReply) :
      Performed h s op (s.pruneRelayState op.call.timestamp) (.submitted reply)
  | accepted {s' : Store δ} {payload : EnvelopePayload} {envelopeId exchangeId : Uuid}
      {x : Exchange} {l : Letter δ} (reply : SubmitReply) (hp : op.action.payload? = some payload)
      (hd : op.action.drawn? = some (envelopeId, exchangeId))
      (ha : Accepted (s.pruneRelayState op.call.timestamp) s' op.call payload envelopeId exchangeId
        x l) : Performed h s op s' (.submitted reply)
  | claimed {s' : Store δ} {token : String} {rows : List (Envelope δ)} (reply : ClaimReply δ)
      (ht : op.action.leaseToken? = some token)
      (hc : Claimed s s' op.call (h.sha256 token) rows)
      (he : reply.envelopes = rows.map Envelope.toLetter)
      (hl : reply.leaseToken = some token ∨ (reply.leaseToken = none ∧ rows = [])) :
      Performed h s op s' (.claimed reply)
  | receipted {s' : Store δ} {answer : Except Err ReceiptReply} {token : String} {outcome : Outcome}
      (ht : op.action.presentedToken? = some token)
      (hc : Receipted s (h.sha256 token) outcome s' answer) :
      Performed h s op s' (.raising .receipted answer)

section Perform
variable [DecidableEq δ] (h : Host δ) (s : Store δ)
variable {op : Op δ} {s' : Store δ} {α : Type} {answer : α → Reply δ}

lemma submit_performed {payload : EnvelopePayload} {envelopeId exchangeId : Uuid}
    (hp : op.action.payload? = some payload) (hd : op.action.drawn? = some (envelopeId, exchangeId))
    {reply : SubmitReply} (hs : submitEnvelope h.canonicalJson h.sha256 s op.call peer payload
      localRoute envelopeId exchangeId = .ok (s', reply)) : Performed h s op s' (.submitted reply) := by
  rcases submitEnvelope_cases hs with rfl | ⟨x, l, ha⟩
  · exact .replayed reply
  · exact .accepted reply hp hd ha

omit [DecidableEq δ] in
lemma claim_performed (ht : op.action.leaseToken? = some token)
    (hs : claimInbox h.sha256 s op.call h.serverIdentity peer owner limit inbox token = .ok (s', reply)) :
    Performed h s op s' (.claimed reply) := by
  obtain ⟨rows, hc, he, hl⟩ := claimInbox_claimed hs
  exact .claimed reply ht hc he hl

lemma receipt_performed (ht : op.action.presentedToken? = some token)
    {answer : Except Err ReceiptReply} (hs : receiptEnvelope h.sha256 s op.call peer envelopeId token
      outcome localRoute = .ok (s', answer)) :
    Performed h s op s' (Reply.raising .receipted answer) :=
  .receipted ht (receiptEnvelope_receipted hs)

omit [DecidableEq δ] in
lemma settle_performed {x : Except Err (Store δ × α)}
    (hx : ∀ s' a, x = .ok (s', a) → Performed h s op s' (answer a)) :
    Performed h s op (settle s answer x).1 (settle s answer x).2 := by
  match x, hx with
  | .error e, _ => exact .refused e
  | .ok (s', a), hx => exact hx s' a rfl

omit [DecidableEq δ] in
lemma settle_plain (x : Except Err (Store δ × α)) (ha : ∀ a, (answer a).Plain) :
    (settle s answer x).2.Plain := by
  match x with
  | .error e => exact .refused e
  | .ok (_, a) => exact ha a

omit [DecidableEq δ] in
lemma settleRaising_plain (x : Except Err (Store δ × Except Err α)) :
    (settleRaising s (fun _ => .done) x).2.Plain := by
  refine settle_plain s x fun a => ?_
  cases a with
  | error e => exact .refused e
  | ok => exact .done

omit [DecidableEq δ] in
lemma settleUnit_plain (x : Except Err (Store δ)) : (settleUnit s x).2.Plain := by
  cases x with
  | error e => exact .refused e
  | ok => exact .done

lemma perform_plain (op : Op δ) (ht : op.action.isTraffic = false) :
    (perform h s op).2.Plain := by
  obtain ⟨call, action⟩ := op
  cases action with
  | listPairings | retireAgentRoutesLocally => exact .done
  | rejectPairing | approvePairing => exact settleRaising_plain s _
  | cancelPairing | revokePeer | revokePeerForSelf | activateCrossChatConsent | activateRenewal
  | revokeRoute | revokePeerRoute => exact settleUnit_plain s _
  | submitPairing | pollPairing | reconcileActiveLogicalPeers | recordPeerHeartbeat | renewPeer
  | publishLocalRoute | publishPeerRoute => exact settle_plain s _ fun _ => .done
  | _ => cases ht

/-- STEP: every call is one of the cases above. -/
theorem perform_performed (op : Op δ) : Performed h s op (perform h s op).1 (perform h s op).2 := by
  cases ht : op.action.isTraffic with
  | false => exact .changed (perform_changes h op ht) (perform_plain h s op ht)
  | true =>
  obtain ⟨call, action⟩ := op
  cases action with
  | submitEnvelope => exact settle_performed h s fun _ _ hs => submit_performed h s rfl rfl hs
  | submitLocalEnvelope =>
    refine settle_performed h s fun _ _ hs => ?_
    iterate 2 obtain ⟨_, _, hs⟩ := bind_ok hs
    exact submit_performed h s rfl rfl hs
  | claimInbox => exact settle_performed h s fun _ _ hs => claim_performed h s rfl hs
  | claimLocalInbox =>
    refine settle_performed h s fun _ _ hs => ?_
    obtain ⟨_, _, hs⟩ := bind_ok hs
    exact claim_performed h s rfl hs
  | claimLocalRouteInbox =>
    refine settle_performed h s fun _ _ hs => ?_
    iterate 2 obtain ⟨_, _, hs⟩ := bind_ok hs
    exact claim_performed h s rfl hs
  | receiptEnvelope => exact settle_performed h s fun _ _ hs => receipt_performed h s rfl hs
  | receiptLocalEnvelope =>
    refine settle_performed h s fun _ _ hs => ?_
    iterate 2 obtain ⟨_, _, hs⟩ := bind_ok hs
    exact receipt_performed h s rfl hs
  | _ => cases ht

end Perform

end SecurePeer
