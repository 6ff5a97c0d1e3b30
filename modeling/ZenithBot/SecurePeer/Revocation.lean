import ZenithBot.SecurePeer.Lease

/-! Revocation. Authority flows from a peer to its certificates and routes, from routes to the live
    envelopes between them, and from a live conversation to its open exchange. Nothing downstream is alive
    without what it rests on (`AuthorityOk`), which every change and every relay call keeps, and what was
    revoked stays so (`Retained`).

    The last link does not hold by itself: `revoke_route` and its relatives expire the open exchanges
    of the routes they revoke, `_revoke_peer_in_transaction` does not. Runs that revoke no peer with an
    open exchange keep that link too (`OpenOk`). -/

namespace SecurePeer
open Lib Table Store

variable {δ : Type}
variable {t : Nat} {peerId : Uuid} {actor : String} {id : Uuid} {r : Route} {s : Store δ}

def ActivePeer (s : Store δ) (id : Uuid) : Prop := ∃ p ∈ s.peers, p.id = id ∧ p.status = .active

def RevokedPeer (s : Store δ) (id : Uuid) : Prop := ∃ p ∈ s.peers, p.id = id ∧ p.status = .revoked

/-- The route is known and active. -/
def ActiveRoute (s : Store δ) (id : Uuid) : Prop := ∃ r ∈ s.routes, r.id = id ∧ r.status = .active

/-- The letter goes between the two routes of the exchange, one way or the other. -/
def Letter.between (l : Letter δ) (x : Exchange) : Prop :=
  (l.sourceRouteId = x.firstRouteId ∧ l.targetRouteId = x.secondRouteId) ∨
    (l.sourceRouteId = x.secondRouteId ∧ l.targetRouteId = x.firstRouteId)

/-- A letter of the exchange: on its routes, with its end, written within its lifetime. -/
structure Anchors (l : Letter δ) (x : Exchange) : Prop where
  exchange : l.exchangeId = x.id
  routes : l.between x
  expiry : l.expiresAt = x.expiresAt
  bounded : l.expiresAt ≤ l.createdAt + maxRelayTtlSeconds

/-- Nothing is alive without what it derives its authority from. -/
structure AuthorityOk (s : Store δ) : Prop where
  certificates : ∀ c ∈ s.certificates, c.revokedAt = none → ActivePeer s c.peerId
  routes : ∀ r ∈ s.routes, r.status = .active → ∀ id, r.of id = true → ActivePeer s id
  envelopes : ∀ e ∈ s.envelopes, e.status.live = true →
    ActiveRoute s e.sourceRouteId ∧ ActiveRoute s e.targetRouteId
  anchors : ∀ x ∈ s.exchanges, x.status = .opened → ∃ e ∈ s.envelopes, Anchors e.toLetter x

def OpenOk (s : Store δ) : Prop := ∀ x ∈ s.exchanges, x.status = .opened →
  ActiveRoute s x.firstRouteId ∧ ActiveRoute s x.secondRouteId

def Free (s : Store δ) (peerId : Uuid) : Prop := ∀ x ∈ s.exchanges, x.status = .opened →
  ∀ r ∈ s.routes, r.of peerId = true → r.id ≠ x.firstRouteId ∧ r.id ≠ x.secondRouteId

/-! ### Routes and peers under the updates -/

section Updates
variable {s s' : Store δ} {revision : Route → String} {p : Route → Bool}

lemma ActiveRoute.same (hr : s'.routes = s.routes) : ActiveRoute s' id ↔ ActiveRoute s id := by
  unfold ActiveRoute; rw [hr]

lemma ActivePeer.same (hp : s'.peers = s.peers) : ActivePeer s' id ↔ ActivePeer s id := by
  unfold ActivePeer; rw [hp]

lemma ActiveRoute.revokeRoutes (h : ActiveRoute s id)
    (hp : ∀ r ∈ s.routes, r.id = id → p r = false) :
    ActiveRoute (s.revokeRoutes p revision t) id := by
  obtain ⟨r, hr, hid, hs⟩ := h
  exact exists_updateWhere hr (fun hsel => by simp [hp r hr hid] at hsel) fun _ => ⟨hid, hs⟩

lemma revokeRoutes_same {r' : Route} (h : r' ∈ (s.revokeRoutes p revision t).routes) :
    ∃ r ∈ s.routes, r.id = r'.id ∧ ∀ id, r.of id = r'.of id := by
  obtain ⟨r, hr, ⟨_, _, rfl⟩ | ⟨rfl, _⟩⟩ := revokeRoutes_cases h
  · exact ⟨r, hr, rfl, fun _ => rfl⟩
  · exact ⟨r', hr, rfl, fun _ => rfl⟩

lemma ActivePeer.revokeAccount (h : ActivePeer s id) (hne : id ≠ peerId) :
    ActivePeer (s.revokeAccount peerId t actor) id := by
  obtain ⟨p, hp, rfl, hs⟩ := h
  exact exists_updateWhere hp (fun hsel => by simp [hne] at hsel) fun _ => ⟨rfl, hs⟩

lemma ActiveRoute.disown {revision : String} (h : ActiveRoute s id)
    (hn : ∀ r ∈ (s.disown peerId t actor revision).routes, r.of peerId = true → r.id ≠ id) :
    ActiveRoute (s.disown peerId t actor revision) id := by
  have hsame : ActiveRoute (s.revokeAccount peerId t actor) id := h
  refine hsame.revokeRoutes fun r hr hid => Bool.eq_false_iff.2 fun hof => ?_
  obtain ⟨r', hr', hid', _⟩ : ∃ r' ∈ (s.disown peerId t actor revision).routes, r'.id = r.id ∧
      (r' = r ∨ r'.status = .revoked) := revokeRoutes_of_mem hr
  obtain ⟨r1, hr1, hid1, hof1⟩ := revokeRoutes_same hr'
  obtain rfl := s.routes.eq_of_key hr1 hr (hid1.trans hid')
  exact hn r' hr' ((hof1 peerId).symm.trans hof) (hid'.trans hid)

lemma insertRoute_ok (h : s.insertRoute r = .ok s') :
    (∀ q, q ∈ s'.routes ↔ q ∈ s.routes ∨ q = r) ∧ (∀ q ∈ s.routes, q.id ≠ r.id) ∧
      s' = { s with routes := s'.routes } := by
  iterate 2 obtain ⟨_, _, h⟩ := bind_ok h
  obtain ⟨t, ht, h⟩ := found_ok h
  cases h
  exact ⟨fun _ => mem_insert? ht, (insert?_eq_some ht).2, rfl⟩

lemma ActiveRoute.insertRoute (h : ActiveRoute s id)
    (hr : s.insertRoute r = .ok s') : ActiveRoute s' id := by
  obtain ⟨q, hq, hid, hact⟩ := h
  exact ⟨q, ((insertRoute_ok hr).1 q).2 (.inl hq), hid, hact⟩

end Updates

/-! ### Changes keep authority in order -/

section Change
variable {acc : Bool} {s s' : Store δ}

lemma Fades.opened (hf : Fades s s') {x : Exchange} (hx : x ∈ s'.exchanges)
    (ho : x.status = .opened) : x ∈ s.exchanges := by
  obtain ⟨y, hy, rfl | ⟨_, rfl⟩⟩ := hf.exchanges x hx
  · exact hy
  · cases ho

lemma Fades.live (hf : Fades s s') {e : Envelope δ} (he : e ∈ s'.envelopes)
    (hl : e.status.live = true) : e ∈ s.envelopes := by
  obtain ⟨e0, he0, rfl | ⟨_, rfl⟩⟩ := hf.envelopes e he
  · exact he0
  · cases hl

lemma AuthorityOk.anchors_fade (h : AuthorityOk s) (hf : Fades s s') :
    ∀ x ∈ s'.exchanges, x.status = .opened → ∃ e ∈ s'.envelopes, Anchors e.toLetter x := by
  intro x hx ho
  obtain ⟨e, he, ha⟩ := h.anchors x (hf.opened hx ho) ho
  obtain ⟨e', he', hl⟩ := hf.kept e he
  exact ⟨e', he', hl ▸ ha⟩

lemma Accounts.activePeer (ha : Accounts s s') (h : ActivePeer s id) : ActivePeer s' id := by
  obtain ⟨p, hp, rfl, hs⟩ := h
  obtain ⟨p', hp', hid, hst⟩ := ha.peer_kept p hp
  exact ⟨p', hp', hid, hst.trans hs⟩

section
variable (h : AuthorityOk s)
include h

lemma AuthorityOk.accounts (ha : Accounts s s') : AuthorityOk s' where
  certificates := by
    intro c' hc' hr
    rcases ha.certificate_from c' hc' with ⟨c, hc, hp, hrev⟩ | hactive
    · exact hp ▸ ha.activePeer (h.certificates c hc (hrev.trans hr))
    · exact hactive
  routes := by
    rw [ha.routes]
    exact fun r hr hs id hof => ha.activePeer (h.routes r hr hs id hof)
  envelopes := by
    rw [ha.envelopes]
    intro e he hl
    simp only [ActiveRoute.same ha.routes]
    exact h.envelopes e he hl
  anchors := h.anchors_fade (.of_same ha.exchanges ha.envelopes ha.receipts)

lemma AuthorityOk.revokePeer {revision : String}
    (hr : s.revokePeerInTransaction peerId t actor revision = some s') : AuthorityOk s' := by
  have hfade : Fades s s' := (Change.revokePeer rfl hr).fades
  obtain rfl := revokePeerInTransaction_some hr
  refine ⟨?_, ?_, ?_, h.anchors_fade hfade⟩
  · intro c hc hrev
    have hc : c ∈ (s.revokeAccount peerId t actor).certificates := hc
    obtain ⟨hc, hne⟩ := revokeAccount_unrevoked hc hrev
    exact (h.certificates c hc hrev).revokeAccount hne
  · intro r hr hs id hof
    obtain ⟨r0, hr0, ⟨_, _, rfl⟩ | ⟨rfl, hsel⟩⟩ := revokeRoutes_cases hr
    · cases hs
    · refine (h.routes r hr0 hs id hof).revokeAccount ?_
      rintro rfl
      rw [hsel hs] at hof
      cases hof
  · intro e he hl
    obtain ⟨e0, he0, ⟨_, _, rfl⟩ | ⟨rfl, hsel⟩⟩ := expireEnvelopes_cases he
    · cases hl
    -- an envelope on a route of the peer is expired, so the routes of this one are not the peer's
    have hfar : (s.disown peerId t actor revision).touches peerId e.toLetter = false := hsel hl
    simp only [Store.touches, Bool.or_eq_false_iff, List.any_eq_false, Bool.and_eq_true,
      decide_eq_true_eq, not_and] at hfar
    obtain ⟨hs, ht⟩ := h.envelopes e he0 hl
    exact ⟨hs.disown hfar.1.2, ht.disown hfar.2⟩

lemma AuthorityOk.retireRoute (route : Uuid) (revision : String) (t : Nat) :
    AuthorityOk (s.retireRoute route revision t) := by
  have hfade : Fades s (s.retireRoute route revision t) :=
    (show Change false s _ from .retireRoute ..).fades
  refine ⟨h.certificates, ?_, ?_, h.anchors_fade hfade⟩
  · intro r hr hs id hof
    obtain ⟨r0, hr0, ⟨_, _, rfl⟩ | ⟨rfl, _⟩⟩ := revokeRoutes_cases hr
    · cases hs
    · exact h.routes r hr0 hs id hof
  · intro e he hl
    obtain ⟨e0, he0, ⟨_, _, rfl⟩ | ⟨rfl, hsel⟩⟩ := expireEnvelopes_cases he
    · cases hl
    have hoff := hsel hl
    simp only [Letter.on, Bool.or_eq_false_iff] at hoff
    obtain ⟨hs, ht⟩ := h.envelopes e he0 hl
    refine ⟨hs.revokeRoutes fun r _ hid => ?_, ht.revokeRoutes fun r _ hid => ?_⟩
    · simpa [hid] using hoff.1
    · simpa [hid] using hoff.2

lemma AuthorityOk.retireAllRoutes (revision : Route → String) (t : Nat) :
    AuthorityOk (s.retireAllRoutes revision t) := by
  have hfade : Fades s (s.retireAllRoutes revision t) :=
    (show Change false s _ from .retireAllRoutes ..).fades
  refine ⟨h.certificates, ?_, ?_, h.anchors_fade hfade⟩
  · intro r hr hs
    obtain ⟨r0, hr0, ⟨_, _, rfl⟩ | ⟨rfl, hsel⟩⟩ := revokeRoutes_cases hr
    · cases hs
    · cases hsel hs
  · intro e he hl
    obtain ⟨e0, he0, ⟨_, _, rfl⟩ | ⟨rfl, hsel⟩⟩ := expireEnvelopes_cases
      (p := fun _ => true) he
    · cases hl
    · cases hsel hl

lemma AuthorityOk.publish (hr : s.insertRoute r = .ok s')
    (owner : ∀ id, r.of id = true → ActivePeer s id) : AuthorityOk s' := by
  obtain ⟨hmem, _, hs⟩ := insertRoute_ok hr
  have hgrow {id : Uuid} (hid : ActiveRoute s id) := hid.insertRoute hr
  rw [hs] at hgrow ⊢
  refine ⟨h.certificates, ?_, ?_, h.anchors⟩
  · intro q hq hact id hof
    rcases (hmem q).1 hq with hq | rfl
    · exact h.routes q hq hact id hof
    · exact owner id hof
  · intro e he hl
    exact ⟨hgrow (h.envelopes e he hl).1, hgrow (h.envelopes e he hl).2⟩

end

/-- STEP: a change keeps authority in order. -/
theorem Change.authorityOk (hc : Change acc s s') (h : AuthorityOk s) : AuthorityOk s' := by
  cases hc with
  | accounts ha => exact h.accounts ha
  | revokePeer _ hr => exact h.revokePeer hr
  | retireRoute route revision t => exact h.retireRoute route revision t
  | retireAllRoutes revision t => exact h.retireAllRoutes revision t
  | publish hr owner => exact h.publish hr owner

lemma Changes.authorityOk (hc : Changes acc s s') (h : AuthorityOk s) : AuthorityOk s' := by
  induction hc with
  | refl => exact h
  | tail _ hc ih => exact hc.authorityOk ih

end Change

/-- No peer, route or certificate is lost, and none that was revoked is active again. -/
structure Retained (s s' : Store δ) : Prop where
  peers : ∀ p ∈ s.peers, ∃ p' ∈ s'.peers, p'.id = p.id ∧
    (p.status = .revoked → p'.status = .revoked)
  routes : ∀ r ∈ s.routes, ∃ r' ∈ s'.routes, r'.id = r.id ∧
    (r.status = .revoked → r'.status = .revoked)
  certificates : ∀ c ∈ s.certificates, ∃ c' ∈ s'.certificates, c'.fingerprint = c.fingerprint ∧
    (c.revokedAt.isSome = true → c'.revokedAt.isSome = true)

namespace Retained
variable {a b c s s' : Store δ} {acc : Bool}

lemma of_same (hp : s'.peers = s.peers) (hr : s'.routes = s.routes)
    (hc : s'.certificates = s.certificates) : Retained s s' where
  peers := by rw [hp]; exact fun p h => ⟨p, h, rfl, id⟩
  routes := by rw [hr]; exact fun r h => ⟨r, h, rfl, id⟩
  certificates := by rw [hc]; exact fun c h => ⟨c, h, rfl, id⟩

lemma refl (s : Store δ) : Retained s s := of_same rfl rfl rfl

lemma trans (hab : Retained a b) (hbc : Retained b c) : Retained a c where
  peers := by
    intro p hp
    obtain ⟨p', hp', hid, hs⟩ := hab.peers p hp
    obtain ⟨p'', hp'', hid', hs'⟩ := hbc.peers p' hp'
    exact ⟨p'', hp'', hid'.trans hid, fun h => hs' (hs h)⟩
  routes := by
    intro r hr
    obtain ⟨r', hr', hid, hs⟩ := hab.routes r hr
    obtain ⟨r'', hr'', hid', hs'⟩ := hbc.routes r' hr'
    exact ⟨r'', hr'', hid'.trans hid, fun h => hs' (hs h)⟩
  certificates := by
    intro c hc
    obtain ⟨c', hc', hid, hs⟩ := hab.certificates c hc
    obtain ⟨c'', hc'', hid', hs'⟩ := hbc.certificates c' hc'
    exact ⟨c'', hc'', hid'.trans hid, fun h => hs' (hs h)⟩

lemma revokeRoutes (s : Store δ) (p : Route → Bool) (revision : Route → String) (t : Nat) :
    Retained s (s.revokeRoutes p revision t) where
  peers := (refl s).peers
  routes := by
    intro r hr
    obtain ⟨r', hr', hid, rfl | hrev⟩ := revokeRoutes_of_mem hr
    · exact ⟨r', hr', hid, id⟩
    · exact ⟨r', hr', hid, fun _ => hrev⟩
  certificates := (refl s).certificates

lemma revokeAccount (s : Store δ) (peerId : Uuid) (t : Nat) (actor : String) :
    Retained s (s.revokeAccount peerId t actor) where
  peers _ hp := exists_updateWhere hp (fun _ => ⟨rfl, fun _ => rfl⟩) fun _ => ⟨rfl, id⟩
  routes := (refl s).routes
  certificates _ hc := exists_updateWhere hc (fun _ => ⟨rfl, fun _ => rfl⟩) fun _ => ⟨rfl, id⟩

lemma of_change (hc : Change acc s s') : Retained s s' := by
  cases hc with
  | accounts ha =>
    refine ⟨?_, ?_, ?_⟩
    · intro p hp
      obtain ⟨p', hp', hid, hs⟩ := ha.peer_kept p hp
      exact ⟨p', hp', hid, fun h => hs.trans h⟩
    · rw [ha.routes]
      exact (refl s).routes
    · intro c hc
      obtain ⟨c', hc', hid, hr⟩ := ha.certificate_kept c hc
      exact ⟨c', hc', hid, fun h => hr ▸ h⟩
  | revokePeer _ hr =>
    obtain rfl := revokePeerInTransaction_some hr
    exact (revokeAccount s _ _ _).trans ((revokeRoutes _ _ _ _).trans (of_same rfl rfl rfl))
  | retireRoute | retireAllRoutes => exact (revokeRoutes s _ _ _).trans (of_same rfl rfl rfl)
  | publish hr =>
    obtain ⟨hmem, _, hs⟩ := insertRoute_ok hr
    rw [hs]
    exact ⟨(refl s).peers, fun q hq => ⟨q, (hmem q).2 (.inl hq), rfl, id⟩, (refl s).certificates⟩

lemma of_changes (hc : Changes acc s s') : Retained s s' := by
  induction hc with
  | refl => exact refl s
  | tail _ hc ih => exact ih.trans (of_change hc)

end Retained

/-! ### Revoked peers -/

section Revoked
variable {s s' : Store δ}

lemma RevokedPeer.retained (h : RevokedPeer s id) (hr : Retained s s') : RevokedPeer s' id := by
  obtain ⟨p, hp, rfl, hrev⟩ := h
  obtain ⟨p', hp', hid, hs⟩ := hr.peers p hp
  exact ⟨p', hp', hid, hs hrev⟩

lemma RevokedPeer.of_revokePeer {revision : String}
    (h : s.revokePeerInTransaction peerId t actor revision = some s') : RevokedPeer s' peerId := by
  unfold Store.revokePeerInTransaction at h
  split at h
  · rename_i hany
    cases h
    obtain ⟨p, hp, hact⟩ := List.any_eq_true.1 hany
    refine exists_updateWhere hp (fun _ => ⟨?_, rfl⟩) fun hn => absurd hact (by simp [hn])
    exact of_decide_eq_true (Bool.and_eq_true_iff.1 hact).1
  · cases h

end Revoked

/-! ### Open exchanges -/

section Open
variable {acc : Bool} {s s' : Store δ}

lemma Free.fade (h : Free s id) (hf : Fades s s')
    (hroutes : ∀ r' ∈ s'.routes, ∃ r ∈ s.routes, r.id = r'.id ∧ ∀ id, r.of id = r'.of id) :
    Free s' id := by
  intro x hx ho r' hr' hof
  obtain ⟨r, hr, hid, hsame⟩ := hroutes r' hr'
  rw [← hid]
  exact h x (hf.opened hx ho) ho r hr ((hsame id).trans hof)

lemma OpenOk.revokePeer (h : OpenOk s) {revision : String} (hfree : Free s peerId)
    (hr : s.revokePeerInTransaction peerId t actor revision = some s') (hf : Fades s s') :
    OpenOk s' := by
  obtain rfl := revokePeerInTransaction_some hr
  intro x hx ho
  have hother {id : Uuid} (hact : ActiveRoute s id)
      (hn : ∀ r ∈ s.routes, r.of peerId = true → r.id ≠ id) :
      ActiveRoute (s.disown peerId t actor revision) id := by
    refine hact.disown fun r' hr' hof => ?_
    obtain ⟨r, hmem, hid, hsame⟩ := revokeRoutes_same hr'
    rw [← hid]
    exact hn r hmem ((hsame peerId).trans hof)
  obtain ⟨hfirst, hsecond⟩ := h x hx ho
  exact ⟨hother hfirst fun r hr hof => (hfree x hx ho r hr hof).1,
    hother hsecond fun r hr hof => (hfree x hx ho r hr hof).2⟩

/-- A route that goes takes the open exchanges on it along, found through their letters. -/
lemma OpenOk.retireRoute (h : OpenOk s) (hok : AuthorityOk s) (route : Uuid) (revision : String)
    (t : Nat) : OpenOk (s.retireRoute route revision t) := by
  intro x' hx' ho
  obtain ⟨x, hx, ⟨_, _, rfl⟩ | ⟨rfl, hsel⟩⟩ := expireExchanges_cases hx'
  · cases ho
  obtain ⟨e, he, ha⟩ := hok.anchors x' hx ho
  have hoff := List.any_eq_false.1 (hsel ho) e he
  simp only [ha.exchange, decide_true, Bool.true_and, Letter.on, Bool.or_eq_true, decide_eq_true_eq,
    not_or] at hoff
  have hne : x'.firstRouteId ≠ route ∧ x'.secondRouteId ≠ route := by
    rcases ha.routes with ⟨h1, h2⟩ | ⟨h1, h2⟩
    · exact ⟨h1 ▸ hoff.1, h2 ▸ hoff.2⟩
    · exact ⟨h2 ▸ hoff.2, h1 ▸ hoff.1⟩
  obtain ⟨hfirst, hsecond⟩ := h x' hx ho
  refine ⟨hfirst.revokeRoutes fun r _ hid => ?_, hsecond.revokeRoutes fun r _ hid => ?_⟩
  · simpa [hid] using hne.1
  · simpa [hid] using hne.2

/-- STEP: a change that revokes only peers without open exchanges keeps the routes of the open ones,
    and opens none with another peer. -/
theorem Change.openOk (hc : Change acc s s') (hok : AuthorityOk s) (h : OpenOk s)
    (hfree : ∀ id, RevokedPeer s' id → Free s id) : OpenOk s' ∧ ∀ id, Free s id → Free s' id := by
  have hf := hc.fades
  cases hc with
  | accounts ha =>
    refine ⟨?_, fun id hid => hid.fade hf ?_⟩
    · intro x hx ho
      simp only [ActiveRoute.same ha.routes]
      exact h x (hf.opened hx ho) ho
    · rw [ha.routes]
      exact fun r hr => ⟨r, hr, rfl, fun _ => rfl⟩
  | revokePeer _ hr =>
    refine ⟨h.revokePeer (hfree _ (.of_revokePeer hr)) hr hf, fun id hid => hid.fade hf ?_⟩
    obtain rfl := revokePeerInTransaction_some hr
    exact fun r' hr' => revokeRoutes_same hr'
  | retireRoute route revision t =>
    exact ⟨h.retireRoute hok route revision t,
      fun id hid => hid.fade hf fun r' hr' => revokeRoutes_same hr'⟩
  | retireAllRoutes revision t =>
    refine ⟨?_, fun id hid => hid.fade hf fun r' hr' => revokeRoutes_same hr'⟩
    intro x' hx' ho
    obtain ⟨x, hx, ⟨_, _, rfl⟩ | ⟨rfl, hsel⟩⟩ := expireExchanges_cases hx'
    · cases ho
    · cases hsel ho
  | publish hr owner =>
    obtain ⟨hmem, hnew, hs⟩ := insertRoute_ok hr
    refine ⟨?_, ?_⟩
    · intro x hx ho
      obtain ⟨hfirst, hsecond⟩ := h x (hf.opened hx ho) ho
      exact ⟨hfirst.insertRoute hr, hsecond.insertRoute hr⟩
    · intro id hid x hx ho r' hr' hof
      have hx := hf.opened hx ho
      rcases (hmem r').1 hr' with hr' | rfl
      · exact hid x hx ho r' hr' hof
      -- the new route has a new identifier, the routes of the exchange are known
      · obtain ⟨⟨q, hq, hqid, _⟩, ⟨q', hq', hqid', _⟩⟩ := h x hx ho
        exact ⟨hqid ▸ (hnew q hq).symm, hqid' ▸ (hnew q' hq').symm⟩

lemma OpenOk.free (h : OpenOk s) (hok : AuthorityOk s) (hid : ¬ActivePeer s id) : Free s id := by
  intro x hx ho r hr hof
  have other : ∀ {q : Uuid}, ActiveRoute s q → r.id ≠ q := by
    rintro q ⟨r', hr', hq, hact⟩ hrq
    obtain rfl := s.routes.eq_of_key hr hr' (hrq.trans hq.symm)
    exact hid (hok.routes r hr hact id hof)
  obtain ⟨hfirst, hsecond⟩ := h x hx ho
  exact ⟨other hfirst, other hsecond⟩

lemma Changes.openOk (hc : Changes acc s s') (hok : AuthorityOk s) (h : OpenOk s)
    (hfree : ∀ p ∈ s.peers, p.status = .active → RevokedPeer s' p.id → Free s p.id) :
    OpenOk s' := by
  replace hfree : ∀ id, RevokedPeer s' id → Free s id := by
    intro id hid
    by_cases hact : ActivePeer s id
    · obtain ⟨p, hp, rfl, hactive⟩ := hact
      exact hfree p hp hactive hid
    · exact h.free hok hact
  have hall : AuthorityOk s' ∧ OpenOk s' ∧ ∀ id, Free s id → Free s' id := by
    induction hc with
    | refl => exact ⟨hok, h, fun _ hid => hid⟩
    | tail _ hc ih =>
      -- a peer that was revoked on the way is revoked at the end
      obtain ⟨hok1, h1, hkeep⟩ := ih fun id hid => hfree id (hid.retained (.of_change hc))
      obtain ⟨ho, hkeep'⟩ := hc.openOk hok1 h1 fun id hid => hkeep id (hfree id hid)
      exact ⟨hc.authorityOk hok1, ho, fun id hid => hkeep' id (hkeep id hid)⟩
  exact hall.2.1

end Open

/-! ### Relay traffic -/

/-- What relay traffic that adds no letter does: live rows and open exchanges only become fewer, and an
    open exchange keeps its letters. -/
structure Carried (s s' : Store δ) : Prop where
  routes : s'.routes = s.routes
  peers : s'.peers = s.peers
  certificates : s'.certificates = s.certificates
  live : ∀ e' ∈ s'.envelopes, e'.status.live = true →
    ∃ e ∈ s.envelopes, e.status.live = true ∧ e'.toLetter = e.toLetter
  opened : ∀ x ∈ s'.exchanges, x.status = .opened → x ∈ s.exchanges
  anchored : ∀ x ∈ s'.exchanges, x.status = .opened → ∀ e ∈ s.envelopes, Anchors e.toLetter x →
    ∃ e' ∈ s'.envelopes, e'.toLetter = e.toLetter

section Traffic
variable {s s' : Store δ} {hash : δ}

lemma Fades.carried (hf : Fades s s') (hr : s'.routes = s.routes) (hp : s'.peers = s.peers)
    (hc : s'.certificates = s.certificates) : Carried s s' where
  routes := hr
  peers := hp
  certificates := hc
  live := fun e he hl => ⟨e, hf.live he hl, hl, rfl⟩
  opened := fun _ hx ho => hf.opened hx ho
  anchored := fun _ _ _ e he _ => hf.kept e he

/-- An exchange that outlives the pruning has not run out, so its letters are within retention. -/
lemma prune_carried (s : Store δ) (t : Nat) : Carried s (s.pruneRelayState t) where
  routes := rfl
  peers := rfl
  certificates := rfl
  live := by
    intro e' he' hl
    obtain ⟨e, he, ⟨_, _, rfl⟩ | ⟨rfl, _⟩⟩ := prune_envelope he'
    · cases hl
    · exact ⟨e', he, hl, rfl⟩
  opened := by
    intro x' hx' ho
    obtain ⟨x, hx, ⟨_, _, rfl⟩ | ⟨rfl, _⟩⟩ := prune_exchange hx'
    · cases ho
    · exact hx
  anchored := by
    intro x' hx' ho e he ha
    obtain ⟨x, hx, ⟨_, _, rfl⟩ | ⟨rfl, hlt⟩⟩ := prune_exchange hx'
    · cases ho
    rcases prune_kept he with hkept | hold
    · exact hkept
    · have hlt := hlt ho
      have hexp := ha.expiry
      have hbound := ha.bounded
      unfold relayTerminalRetentionSeconds at hold
      unfold maxRelayTtlSeconds at hbound
      omega

lemma Claimed.carried {call : Call} {rows : List (Envelope δ)}
    (hc : Claimed s s' call hash rows) : Carried s s' where
  routes := hc.routes
  peers := hc.peers
  certificates := hc.certificates
  live := by
    intro e' he' hl
    obtain ⟨e, he, ⟨_, rfl⟩ | ⟨hin, hlet, _⟩⟩ := hc.envelope e' he'
    · obtain ⟨e1, he1, hbase⟩ := claimBase_envelope he
      have hlive : e1.status.live = true := by
        rcases hbase with rfl | ⟨hcl, _⟩
        · exact hl
        · rw [hcl]; rfl
      obtain ⟨e0, he0, hlive0, hlet0⟩ := (prune_carried s call.timestamp).live e1 he1 hlive
      refine ⟨e0, he0, hlive0, ?_⟩
      rcases hbase with rfl | ⟨_, _, hlet⟩
      · exact hlet0
      · exact hlet.trans hlet0
    · obtain ⟨e0, he0, hlive, hlet0, _⟩ := claimBase_queued (hc.queued e hin).1 (hc.queued e hin).2
      exact ⟨e0, he0, hlive, hlet.trans hlet0⟩
  opened := hc.exchanges ▸ (prune_carried s call.timestamp).opened
  anchored := by
    intro x hx ho e he ha
    rw [hc.exchanges] at hx
    obtain ⟨e1, he1, hl1⟩ := (prune_carried s call.timestamp).anchored x hx ho e he ha
    obtain ⟨e2, he2, hl2⟩ := claimBase_kept he1
    obtain ⟨e3, he3, hl3⟩ := hc.kept e2 he2
    exact ⟨e3, he3, hl3.trans (hl2.trans hl1)⟩

lemma Receipted.carried {outcome : Outcome} {answer : Except Err ReceiptReply}
    (hr : Receipted s hash outcome s' answer) : Carried s s' := by
  cases hr with
  | replay => exact (Fades.refl s).carried rfl rfl rfl
  | expire =>
    refine Fades.carried ?_ rfl rfl rfl
    exact (Fades.expireEnvelopes s _).trans (.expireExchanges _ _)
  | settle =>
    refine ⟨rfl, rfl, rfl, ?_, fun _ hx _ => hx, fun _ _ _ e he _ => settleEnvelope_kept he⟩
    intro e' he' hl
    obtain ⟨e0, he0, _, ⟨_, hs'⟩ | ⟨_, rfl⟩⟩ := settleEnvelope_cases he'
    · rw [hs', outcome.status_dead] at hl; cases hl
    · exact ⟨e', he0, hl, rfl⟩

lemma AuthorityOk.carried (h : AuthorityOk s) (hc : Carried s s') : AuthorityOk s' where
  certificates := by
    rw [hc.certificates]
    intro c hmem hrev
    exact (ActivePeer.same hc.peers).2 (h.certificates c hmem hrev)
  routes := by
    rw [hc.routes]
    intro r hr hs id hof
    exact (ActivePeer.same hc.peers).2 (h.routes r hr hs id hof)
  envelopes := by
    intro e' he' hl
    obtain ⟨e, he, hlive, hlet⟩ := hc.live e' he' hl
    have hroutes := h.envelopes e he hlive
    simp only [ActiveRoute.same hc.routes, hlet]
    exact hroutes
  anchors := by
    intro x hx ho
    obtain ⟨e, he, ha⟩ := h.anchors x (hc.opened x hx ho) ho
    obtain ⟨e', he', hlet⟩ := hc.anchored x hx ho e he ha
    exact ⟨e', he', hlet ▸ ha⟩

lemma OpenOk.carried (h : OpenOk s) (hc : Carried s s') : OpenOk s' := by
  intro x hx ho
  simp only [ActiveRoute.same hc.routes]
  exact h x (hc.opened x hx ho) ho

section Accept
variable {call : Call} {payload : EnvelopePayload} {envelopeId exchangeId : Uuid} {x : Exchange}
  {l : Letter δ}

lemma AuthorityOk.accept (h : AuthorityOk s)
    (ha : Accepted s s' call payload envelopeId exchangeId x l) : AuthorityOk s' where
  certificates := by
    rw [ha.certificates]
    intro c hmem hrev
    exact (ActivePeer.same ha.peers).2 (h.certificates c hmem hrev)
  routes := by
    rw [ha.routes]
    intro r hr hs id hof
    exact (ActivePeer.same ha.peers).2 (h.routes r hr hs id hof)
  envelopes := by
    intro e he hl
    simp only [ActiveRoute.same ha.routes]
    rw [mem_def, ha.envelopes, List.mem_append, List.mem_singleton] at he
    rcases he with he | rfl
    · exact h.envelopes e he hl
    · obtain ⟨source, hs, hsid, hsact, _⟩ := ha.sourceActive
      obtain ⟨target, ht, htid, htact, _⟩ := ha.targetActive
      exact ⟨⟨source, hs, hsid, hsact⟩, target, ht, htid, htact⟩
  anchors := by
    have hkept : ∀ {y : Exchange}, (∃ e ∈ s.envelopes, Anchors e.toLetter y) →
        ∃ e ∈ s'.envelopes, Anchors e.toLetter y := by
      rintro y ⟨e, he, hy⟩
      exact ⟨e, by rw [mem_def, ha.envelopes]; exact List.mem_append_left _ he, hy⟩
    intro y hy ho
    rcases (ha.exchanges y).1 hy with ⟨hy, _⟩ | rfl
    · exact hkept (h.anchors y hy ho)
    rcases ha.place with hfirst | ⟨p, hnext⟩
    · refine ⟨{ l with status := .queued }, ?_, ha.exchange.1.symm, .inl ⟨?_, ?_⟩,
        ha.exchange.2.symm, ha.bounded⟩
      · rw [mem_def, ha.envelopes]; simp
      · exact hfirst.firstRoute.symm
      · exact hfirst.secondRoute.symm
    -- the letter that anchored the exchange before still does
    · obtain ⟨e, he, hx⟩ := h.anchors x hnext.exchange hnext.isOpen
      exact hkept ⟨e, he, hx.exchange, hx.routes, hx.expiry, hx.bounded⟩

lemma OpenOk.accept (h : OpenOk s) (ha : Accepted s s' call payload envelopeId exchangeId x l) :
    OpenOk s' := by
  intro y hy ho
  simp only [ActiveRoute.same ha.routes]
  rcases (ha.exchanges y).1 hy with ⟨hy, _⟩ | rfl
  · exact h y hy ho
  rcases ha.place with hfirst | ⟨p, hnext⟩
  · obtain ⟨source, hs, hsid, hsact, _⟩ := ha.sourceActive
    obtain ⟨target, ht, htid, htact, _⟩ := ha.targetActive
    exact ⟨⟨source, hs, hsid.trans hfirst.firstRoute.symm, hsact⟩,
      target, ht, htid.trans hfirst.secondRoute.symm, htact⟩
  · exact h x hnext.exchange hnext.isOpen

end Accept

end Traffic

/-! ### What was revoked stays so -/

/-! ### Runs -/

/-- The call revokes no peer that has an open exchange. -/
def Sparing [DecidableEq δ] (h : Host δ) (w : World δ) (op : Op δ) : Prop :=
  ∀ p ∈ w.store.peers, p.status = .active → RevokedPeer (step h w op).store p.id →
    Free w.store p.id

instance (s : Store δ) (peerId : Uuid) : Decidable (Free s peerId) :=
  inferInstanceAs (Decidable (∀ x ∈ s.exchanges.rows, x.status = .opened →
    ∀ r ∈ s.routes.rows, r.of peerId = true → r.id ≠ x.firstRouteId ∧ r.id ≠ x.secondRouteId))

instance (s : Store δ) (id : Uuid) : Decidable (RevokedPeer s id) :=
  inferInstanceAs (Decidable (∃ p ∈ s.peers.rows, p.id = id ∧ p.status = .revoked))

instance [DecidableEq δ] (h : Host δ) (w : World δ) (op : Op δ) : Decidable (Sparing h w op) :=
  inferInstanceAs (Decidable (∀ p ∈ w.store.peers.rows, p.status = .active →
    RevokedPeer (step h w op).store p.id → Free w.store p.id))

instance (s : Store δ) (id : Uuid) : Decidable (ActiveRoute s id) :=
  inferInstanceAs (Decidable (∃ r ∈ s.routes.rows, r.id = id ∧ r.status = .active))

instance (s : Store δ) : Decidable (OpenOk s) :=
  inferInstanceAs (Decidable (∀ x ∈ s.exchanges.rows, x.status = .opened →
    ActiveRoute s x.firstRouteId ∧ ActiveRoute s x.secondRouteId))

section Run
variable [DecidableEq δ] (h : Host δ)

/-- Every call changes accounts and routes, or carries the relay, or adds a letter to it. -/
lemma perform_authority (s : Store δ) (op : Op δ) :
    Changes op.action.isAccount s (perform h s op).1 ∨ Carried s (perform h s op).1 ∨
      ∃ payload envelopeId exchangeId x l, Accepted (s.pruneRelayState op.call.timestamp)
        (perform h s op).1 op.call payload envelopeId exchangeId x l := by
  have hp := perform_performed h s op
  generalize (perform h s op).1 = s', (perform h s op).2 = reply at hp ⊢
  cases hp with
  | refused => exact .inl .refl
  | changed hc => exact .inl hc
  | replayed => exact .inr (.inl (prune_carried s _))
  | accepted _ _ _ ha => exact .inr (.inr ⟨_, _, _, _, _, ha⟩)
  | claimed _ _ hc | receipted _ hc => exact .inr (.inl hc.carried)

/-- STEP: every call keeps authority in order. -/
theorem step_authorityOk (w : World δ) (op : Op δ) (hw : AuthorityOk w.store) :
    AuthorityOk (step h w op).store := by
  rcases perform_authority h w.store op with hc | hc | ⟨_, _, _, _, _, ha⟩
  · exact hc.authorityOk hw
  · exact hw.carried hc
  · exact (hw.carried (prune_carried _ _)).accept ha

/-- STEP: a sparing call keeps the routes of the open exchanges. -/
theorem step_openOk (w : World δ) (op : Op δ) (hs : Sparing h w op) (hw : AuthorityOk w.store)
    (ho : OpenOk w.store) : OpenOk (step h w op).store := by
  rcases perform_authority h w.store op with hc | hc | ⟨_, _, _, _, _, ha⟩
  · exact hc.openOk hw ho hs
  · exact ho.carried hc
  · exact (ho.carried (prune_carried _ _)).accept ha

/-- STEP: no call brings back what was revoked. -/
theorem step_retained (w : World δ) (op : Op δ) : Retained w.store (step h w op).store := by
  rcases perform_authority h w.store op with hc | hc | ⟨_, _, _, _, _, ha⟩
  · exact .of_changes hc
  · exact .of_same hc.peers hc.routes hc.certificates
  · exact .of_same ha.peers ha.routes ha.certificates

omit [DecidableEq δ] in
lemma new_authorityOk (available : Bool) : AuthorityOk (World.new (δ := δ) available).store where
  certificates := fun c hc => absurd hc (not_mem_empty c)
  routes := fun r hr => absurd hr (not_mem_empty r)
  envelopes := fun e he => absurd he (not_mem_empty e)
  anchors := fun x hx => absurd hx (not_mem_empty x)

lemma run_authorityOk (available : Bool) (ops : List (Op δ)) :
    AuthorityOk (run (step h) (World.new available) ops).store :=
  run_inv (step_authorityOk h) ops _ (new_authorityOk available)

lemma run_openOk (available : Bool) (ops : List (Op δ))
    (hs : Along (step h) (Sparing h) (World.new available) ops) :
    OpenOk (run (step h) (World.new available) ops).store := by
  have hboth := run_inv_along (P := fun w => AuthorityOk w.store ∧ OpenOk w.store) ?_
    ops _ hs ⟨new_authorityOk available, fun x hx => absurd hx (not_mem_empty x)⟩
  · exact hboth.2
  · rintro w op hop ⟨hw, ho⟩
    exact ⟨step_authorityOk h w op hw, step_openOk h w op hop hw ho⟩

lemma run_retained (w : World δ) (ops : List (Op δ)) :
    Retained w.store (run (step h) w ops).store :=
  run_rel (P := fun _ => True) (R := fun v w : World δ => Retained v.store w.store)
    (fun v => .refl v.store) (fun _ _ _ => .trans) (fun _ _ _ => trivial)
    (fun v op _ => step_retained h v op) ops w trivial

end Run

/-! ### Revocation -/

/-- What is left of a peer that is not active: no certificate that authenticates, no active route, no
    envelope on its way from or to one of its routes. -/
structure RevocationComplete (s : Store δ) : Prop where
  certificates : ∀ p ∈ s.peers, p.status ≠ .active → ∀ c ∈ s.certificates, c.peerId = p.id →
    c.revokedAt.isSome = true ∧ ∀ call presented allowPendingRenewal authorization,
      presented.fingerprint = c.fingerprint →
      authenticatePeer s call presented allowPendingRenewal ≠ .ok authorization
  routes : ∀ p ∈ s.peers, p.status ≠ .active → ∀ r ∈ s.routes, r.of p.id = true →
    r.status ≠ .active
  envelopes : ∀ p ∈ s.peers, p.status ≠ .active → ∀ r ∈ s.routes, r.of p.id = true →
    ∀ e ∈ s.envelopes, e.on r.id = true → e.status ≠ .queued ∧ e.status ≠ .claimed

/-- The caller is told apart by the row of its certificate, whose peer is active. -/
lemma authenticatePeer_active {call : Call} {presented : PresentedCertificate}
    {allow : Bool} {authorization : PeerAuthorization}
    (h : authenticatePeer s call presented allow = .ok authorization) :
    ∃ c ∈ s.certificates, c.fingerprint = presented.fingerprint ∧ ActivePeer s c.peerId := by
  iterate 2 obtain ⟨_, _, h⟩ := bind_ok h
  obtain ⟨c, hc, h⟩ := found_ok h
  obtain ⟨p, hp, h⟩ := found_ok h
  obtain ⟨_, _, h⟩ := bind_ok h
  obtain ⟨hactive, _⟩ := refuse_ok h
  obtain ⟨hmem, hfp⟩ := find?_eq_some.1 hc
  obtain ⟨hpm, hpid⟩ := find?_eq_some.1 hp
  exact ⟨c, hmem, hfp, p, hpm, hpid, not_not.1 (not_or.1 hactive).1⟩

lemma AuthorityOk.revocationComplete (h : AuthorityOk s) : RevocationComplete s := by
  have hdead {p : Peer} (hp : p ∈ s.peers) (hs : p.status ≠ .active) : ¬ActivePeer s p.id := by
    rintro ⟨q, hq, hid, hact⟩
    exact hs (s.peers.eq_of_key hq hp hid ▸ hact)
  have hroute {p : Peer} (hp : p ∈ s.peers) (hs : p.status ≠ .active) {r : Route}
      (hr : r ∈ s.routes) (hof : r.of p.id = true) : r.status ≠ .active :=
    fun hact => hdead hp hs (h.routes r hr hact p.id hof)
  refine ⟨?_, fun p hp hs r hr hof => hroute hp hs hr hof, ?_⟩
  · intro p hp hs c hc hpeer
    refine ⟨?_, ?_⟩
    · rw [Option.isSome_iff_ne_none]
      exact fun hrev => hdead hp hs (hpeer ▸ h.certificates c hc hrev)
    · intro call presented allow authorization hfp hok
      obtain ⟨d, hd, hdfp, hact⟩ := authenticatePeer_active hok
      obtain rfl := s.certificates.eq_of_key hd hc (hdfp.trans hfp)
      exact hdead hp hs (hpeer ▸ hact)
  · intro p hp hs r hr hof e he hon
    have hlive : ¬e.status.live = true := by
      intro hl
      obtain ⟨⟨q, hq, hqid, hqact⟩, ⟨q', hq', hqid', hqact'⟩⟩ := h.envelopes e he hl
      simp only [Letter.on, Bool.or_eq_true, decide_eq_true_eq] at hon
      rcases hon with hon | hon
      · exact hroute hp hs hr hof (s.routes.eq_of_key hq hr (hqid.trans hon) ▸ hqact)
      · exact hroute hp hs hr hof (s.routes.eq_of_key hq' hr (hqid'.trans hon) ▸ hqact')
    exact ⟨fun hq => hlive (by rw [hq]; rfl), fun hq => hlive (by rw [hq]; rfl)⟩

namespace Sample

def revocation : Op String :=
  ⟨call 1008, .revokePeer (uuidText '2') "team-alpha" fingerprint "owner-admin" (revision 'c')⟩

end Sample

/-- A peer revoked while its question is open leaves the exchange open between two revoked routes. -/
theorem revoked_peer_leaves_exchange_open :
    ¬OpenOk (run (step Sample.host) (World.new true) (Sample.asked ++ [Sample.revocation])).store := by
  decide +kernel

/-- REVOCATION: in every state reached, a peer that is not active has lost all it had, and what was
    revoked stays so; along a run that revokes no peer with an open exchange, the open exchanges also
    have both their routes. -/
theorem peer_revocation [DecidableEq δ] (h : Host δ) (available : Bool) (ops : List (Op δ)) :
    RevocationComplete (run (step h) (World.new available) ops).store ∧
      (∀ more, Retained (run (step h) (World.new available) ops).store
        (run (step h) (World.new available) (ops ++ more)).store) ∧
      (Along (step h) (Sparing h) (World.new available) ops →
        OpenOk (run (step h) (World.new available) ops).store) := by
  refine ⟨(run_authorityOk h available ops).revocationComplete, fun more => ?_,
    run_openOk h available ops⟩
  rw [run_append]
  exact run_retained h _ more

/-- The rule at a peer revoked after its question was answered. -/
theorem peer_revocation_answered :
    Along (step Sample.host) (Sparing Sample.host) (World.new true)
        (Sample.answered ++ [Sample.revocation]) ∧
      OpenOk (run (step Sample.host) (World.new true) (Sample.answered ++ [Sample.revocation])).store :=
  have hs : Along (step Sample.host) (Sparing Sample.host) (World.new true)
      (Sample.answered ++ [Sample.revocation]) := by decide +kernel
  ⟨hs, (peer_revocation Sample.host true (Sample.answered ++ [Sample.revocation])).2.2 hs⟩

end SecurePeer
