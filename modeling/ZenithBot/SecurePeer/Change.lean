import ZenithBot.SecurePeer.World

/-! What a call can do to the store, said once. A call that is not relay traffic is a sequence of
    `Change`s: peers and certificates come and evolve, a peer is revoked, a route is retired, every
    route is retired, a route is published. The three calls of the relay (submit, claim, receipt) are
    inverted into the writes they make and the guards they passed. Every invariant of the store is
    proved from these cases; none of them unfolds a transaction. -/

namespace SecurePeer
open Lib Table

variable {δ : Type}
variable {s s' : Store δ} {acc : Bool} {t : Nat} {actor : String} {c : Certificate}
  {peerId : Uuid} {r : Route} {id : Uuid}

/-! ### Statements, row by row -/

namespace Store
variable {revision : Route → String} {p : Letter δ → Bool}

lemma expireExchanges_cases {p : Exchange → Bool} {x' : Exchange}
    (h : x' ∈ (s.expireExchanges p).exchanges) :
    ∃ x ∈ s.exchanges, (x.status = .opened ∧ p x = true ∧ x' = x.expire) ∨
      (x' = x ∧ (x.status = .opened → p x = false)) := by
  obtain ⟨x, hx, ⟨hp, rfl⟩ | ⟨hp, rfl⟩⟩ := updateWhere_cases h
  · exact ⟨x, hx, .inl (by simpa using hp)⟩
  · exact ⟨x', hx, .inr ⟨rfl, by simpa using hp⟩⟩

lemma expireEnvelopes_cases {e' : Envelope δ} (h : e' ∈ (s.expireEnvelopes p).envelopes) :
    ∃ e ∈ s.envelopes, (e.status.live = true ∧ p e.toLetter = true ∧ e' = e.expire) ∨
      (e' = e ∧ (e.status.live = true → p e.toLetter = false)) := by
  obtain ⟨e, he, ⟨hp, rfl⟩ | ⟨hp, rfl⟩⟩ := updateWhere_cases h
  · exact ⟨e, he, .inl (by simpa using hp)⟩
  · exact ⟨e', he, .inr ⟨rfl, by simpa using hp⟩⟩

lemma expireEnvelopes_of_mem {e : Envelope δ} (h : e ∈ s.envelopes) :
    ∃ e' ∈ (s.expireEnvelopes p).envelopes, e'.toLetter = e.toLetter :=
  exists_updateWhere h (fun _ => rfl) fun _ => rfl

lemma revokeRoutes_cases {p : Route → Bool} {r' : Route}
    (h : r' ∈ (s.revokeRoutes p revision t).routes) :
    ∃ r ∈ s.routes, (r.status = .active ∧ p r = true ∧ r' = r.revoke (revision r) t) ∨
      (r' = r ∧ (r.status = .active → p r = false)) := by
  obtain ⟨r, hr, ⟨hp, rfl⟩ | ⟨hp, rfl⟩⟩ := updateWhere_cases h
  · exact ⟨r, hr, .inl (by simpa using hp)⟩
  · exact ⟨r', hr, .inr ⟨rfl, by simpa using hp⟩⟩

lemma revokeRoutes_of_mem {p : Route → Bool}
    (h : r ∈ s.routes) : ∃ r' ∈ (s.revokeRoutes p revision t).routes, r'.id = r.id ∧
      (r' = r ∨ r'.status = .revoked) :=
  exists_updateWhere h (fun _ => ⟨rfl, .inr rfl⟩) fun _ => ⟨rfl, .inl rfl⟩

end Store

lemma revokeAccount_unrevoked
    (h : c ∈ (s.revokeAccount id t actor).certificates) (hr : c.revokedAt = none) :
    c ∈ s.certificates ∧ c.peerId ≠ id := by
  obtain ⟨d, hd, ⟨_, rfl⟩ | ⟨hq, rfl⟩⟩ := updateWhere_cases h
  · cases hr
  · exact ⟨hd, by simpa using hq⟩

/-! ### Expiry is all that happens to the relay tables -/

/-- No envelope or exchange is new or gone; some live envelopes and open exchanges have expired. -/
structure Fades (s s' : Store δ) : Prop where
  exchanges : ∀ x' ∈ s'.exchanges, ∃ x ∈ s.exchanges,
    x' = x ∨ (x.status = .opened ∧ x' = x.expire)
  envelopes : ∀ e' ∈ s'.envelopes, ∃ e ∈ s.envelopes,
    e' = e ∨ (e.status.live = true ∧ e' = e.expire)
  kept : ∀ e ∈ s.envelopes, ∃ e' ∈ s'.envelopes, e'.toLetter = e.toLetter
  receipts : s'.receipts = s.receipts

namespace Fades

lemma of_same (hx : s'.exchanges = s.exchanges) (he : s'.envelopes = s.envelopes)
    (hr : s'.receipts = s.receipts) : Fades s s' where
  exchanges := by rw [hx]; exact fun x h => ⟨x, h, .inl rfl⟩
  envelopes := by rw [he]; exact fun e h => ⟨e, h, .inl rfl⟩
  kept := by rw [he]; exact fun e h => ⟨e, h, rfl⟩
  receipts := hr

lemma refl (s : Store δ) : Fades s s := of_same rfl rfl rfl

lemma trans {a b c : Store δ} (hab : Fades a b) (hbc : Fades b c) : Fades a c where
  exchanges := by
    intro x'' hx''
    obtain ⟨x', hx', h'⟩ := hbc.exchanges x'' hx''
    obtain ⟨x, hx, h⟩ := hab.exchanges x' hx'
    refine ⟨x, hx, ?_⟩
    rcases h with rfl | ⟨ho, rfl⟩
    · exact h'
    · rcases h' with rfl | ⟨ho', _⟩
      · exact .inr ⟨ho, rfl⟩
      · cases ho'
  envelopes := by
    intro e'' he''
    obtain ⟨e', he', h'⟩ := hbc.envelopes e'' he''
    obtain ⟨e, he, h⟩ := hab.envelopes e' he'
    refine ⟨e, he, ?_⟩
    rcases h with rfl | ⟨hl, rfl⟩
    · exact h'
    · rcases h' with rfl | ⟨hl', _⟩
      · exact .inr ⟨hl, rfl⟩
      · cases hl'
  kept := by
    intro e he
    obtain ⟨e', he', h⟩ := hab.kept e he
    obtain ⟨e'', he'', h'⟩ := hbc.kept e' he'
    exact ⟨e'', he'', h'.trans h⟩
  receipts := hbc.receipts.trans hab.receipts

lemma expireExchanges (s : Store δ) (p : Exchange → Bool) : Fades s (s.expireExchanges p) where
  exchanges := by
    intro x' hx'
    obtain ⟨x, hx, ⟨ho, _, h⟩ | ⟨h, _⟩⟩ := Store.expireExchanges_cases hx'
    · exact ⟨x, hx, .inr ⟨ho, h⟩⟩
    · exact ⟨x, hx, .inl h⟩
  envelopes := fun e h => ⟨e, h, .inl rfl⟩
  kept := fun e h => ⟨e, h, rfl⟩
  receipts := rfl

lemma expireEnvelopes (s : Store δ) (p : Letter δ → Bool) : Fades s (s.expireEnvelopes p) where
  exchanges := fun x h => ⟨x, h, .inl rfl⟩
  envelopes := by
    intro e' he'
    obtain ⟨e, he, ⟨hl, _, h⟩ | ⟨h, _⟩⟩ := Store.expireEnvelopes_cases he'
    · exact ⟨e, he, .inr ⟨hl, h⟩⟩
    · exact ⟨e, he, .inl h⟩
  kept := fun _ => Store.expireEnvelopes_of_mem
  receipts := rfl

lemma revokeRoutes (s : Store δ) (p : Route → Bool) (revision : Route → String) (t : Nat) :
    Fades s (s.revokeRoutes p revision t) := of_same rfl rfl rfl

end Fades

/-! ### Changes -/

structure SameRelay (s s' : Store δ) : Prop where
  routes : s'.routes = s.routes
  exchanges : s'.exchanges = s.exchanges
  envelopes : s'.envelopes = s.envelopes
  receipts : s'.receipts = s.receipts

/-- The tables of accounts are the same. -/
structure SameAccounts (s s' : Store δ) : Prop where
  peers : s'.peers = s.peers
  certificates : s'.certificates = s.certificates
  renewals : s'.renewals = s.renewals

namespace SameAccounts

lemma refl (s : Store δ) : SameAccounts s s := ⟨rfl, rfl, rfl⟩

lemma trans {a b c : Store δ} (h : SameAccounts a b) (h' : SameAccounts b c) : SameAccounts a c :=
  ⟨h'.1.trans h.1, h'.2.trans h.2, h'.3.trans h.3⟩

lemma insertRoute (h : s.insertRoute r = .ok s') : SameAccounts s s' := by
  iterate 3 obtain ⟨_, _, h⟩ := bind_ok h
  cases h
  exact ⟨rfl, rfl, rfl⟩

end SameAccounts

/-- Peers and certificates are added or evolve with their authority kept; the rest is untouched. -/
structure Accounts (s s' : Store δ) : Prop extends SameRelay s s' where
  peer_kept : ∀ p ∈ s.peers, ∃ p' ∈ s'.peers, p'.id = p.id ∧ p'.status = p.status
  certificate_kept : ∀ c ∈ s.certificates, ∃ c' ∈ s'.certificates,
    c'.fingerprint = c.fingerprint ∧ c'.revokedAt = c.revokedAt
  certificate_from : ∀ c' ∈ s'.certificates,
    (∃ c ∈ s.certificates, c.peerId = c'.peerId ∧ c.revokedAt = c'.revokedAt) ∨
      ∃ p ∈ s'.peers, p.id = c'.peerId ∧ p.status = .active

/-- A change outside the relay's own traffic; `acc` is whether it may write accounts. -/
inductive Change (acc : Bool) (s : Store δ) : Store δ → Prop where
  | accounts {s' : Store δ} (h : Accounts s s') (ha : acc = false → SameAccounts s s') :
      Change acc s s'
  | revokePeer {s' : Store δ} {peerId : Uuid} {t : Nat} {actor revision : String} (ha : acc = true)
      (h : s.revokePeerInTransaction peerId t actor revision = some s') : Change acc s s'
  | retireRoute (route : Uuid) (revision : String) (t : Nat) :
      Change acc s (s.retireRoute route revision t)
  | retireAllRoutes (revision : Route → String) (t : Nat) :
      Change acc s (s.retireAllRoutes revision t)
  | publish {s' : Store δ} {r : Route} (h : s.insertRoute r = .ok s')
      (owner : ∀ id, r.of id = true → ∃ p ∈ s.peers, p.id = id ∧ p.status = .active) :
      Change acc s s'

/-- Any number of changes. -/
abbrev Changes (acc : Bool) : Store δ → Store δ → Prop := Relation.ReflTransGen (Change acc)

lemma Changes.sameAccounts (h : Changes false s s') : SameAccounts s s' := by
  induction h with
  | refl => exact .refl s
  | tail _ hc ih =>
    refine ih.trans ?_
    cases hc with
    | accounts _ ha => exact ha rfl
    | revokePeer ha => cases ha
    | retireRoute | retireAllRoutes => exact ⟨rfl, rfl, rfl⟩
    | publish h => exact .insertRoute h

/-- The peer, its certificates and its routes have lost their authority. -/
def Store.disown (s : Store δ) (peerId : Uuid) (t : Nat) (actor revision : String) : Store δ :=
  (s.revokeAccount peerId t actor).revokeRoutes (·.of peerId) (fun _ => revision) t

lemma revokePeerInTransaction_some {revision : String}
    (h : s.revokePeerInTransaction peerId t actor revision = some s') :
    s' = (s.disown peerId t actor revision).expireEnvelopes
      ((s.disown peerId t actor revision).touches peerId) := by
  unfold Store.revokePeerInTransaction at h
  split at h
  · cases h; rfl
  · cases h

lemma Change.fades (h : Change acc s s') : Fades s s' := by
  cases h with
  | accounts h => exact .of_same h.exchanges h.envelopes h.receipts
  | revokePeer _ h =>
    rw [revokePeerInTransaction_some h]
    refine Fades.trans ?_ (.expireEnvelopes _ _)
    exact .of_same rfl rfl rfl
  | retireRoute route revision t =>
    unfold Store.retireRoute
    exact (Fades.revokeRoutes _ _ _ _).trans ((Fades.expireExchanges _ _).trans (.expireEnvelopes _ _))
  | retireAllRoutes revision t =>
    exact (Fades.revokeRoutes _ _ _ _).trans ((Fades.expireEnvelopes _ _).trans (.expireExchanges _ _))
  | publish h =>
    iterate 2 obtain ⟨_, _, h⟩ := bind_ok h
    obtain ⟨t, _, h⟩ := bind_ok h
    cases h
    exact .of_same rfl rfl rfl

lemma Changes.fades (h : Changes acc s s') : Fades s s' := by
  induction h with
  | refl => exact Fades.refl s
  | tail _ hc ih => exact ih.trans hc.fades

/-! ### Accounts -/

/-- Peers are touched, with their identity and authority as they were. -/
structure SamePeers (s s' : Store δ) : Prop where
  kept : ∀ p ∈ s.peers, ∃ p' ∈ s'.peers, p'.id = p.id ∧ p'.status = p.status
  was : ∀ p' ∈ s'.peers, ∃ p ∈ s.peers, p'.id = p.id ∧ p'.status = p.status ∧
    p'.teamId = p.teamId ∧ p'.peerServerIdentity = p.peerServerIdentity

lemma SamePeers.update {q : Peer → Bool} {f : Peer → Peer}
    (hp : s'.peers.rows = s.peers.rows.map fun p => if q p then f p else p)
    (hf : ∀ p, (f p).id = p.id ∧ (f p).status = p.status ∧ (f p).teamId = p.teamId ∧
      (f p).peerServerIdentity = p.peerServerIdentity) : SamePeers s s' where
  kept p hpm := by
    simp only [mem_def, hp]
    exact exists_updateWhere hpm (fun _ => ⟨(hf p).1, (hf p).2.1⟩) fun _ => ⟨rfl, rfl⟩
  was p' hp' := by
    rw [mem_def, hp] at hp'
    obtain ⟨p, hpm, ⟨_, rfl⟩ | ⟨_, rfl⟩⟩ := updateWhere_cases hp'
    · exact ⟨p, hpm, hf p⟩
    · exact ⟨p', hpm, rfl, rfl, rfl, rfl⟩

lemma SamePeers.of_eq (h : s'.peers = s.peers) : SamePeers s s' where
  kept := by rw [h]; exact fun p hp => ⟨p, hp, rfl, rfl⟩
  was := by rw [h]; exact fun p hp => ⟨p, hp, rfl, rfl, rfl, rfl⟩

lemma insertPeer_ok {p : Peer} (h : s.insertPeer p = .ok s') :
    (∀ q, q ∈ s'.peers ↔ q ∈ s.peers ∨ q = p) ∧ (∀ q ∈ s.peers, q.id ≠ p.id) ∧
      s'.certificates = s.certificates ∧ s'.renewals = s.renewals ∧ SameRelay s s' := by
  iterate 2 obtain ⟨_, _, h⟩ := bind_ok h
  obtain ⟨t, ht, h⟩ := found_ok h
  cases h
  exact ⟨fun q => mem_insert? ht, (insert?_eq_some ht).2, rfl, rfl,
    rfl, rfl, rfl, rfl⟩

lemma insertCertificate_ok (h : s.insertCertificate c = .ok s') :
    (∀ d, d ∈ s'.certificates ↔ d ∈ s.certificates ∨ d = c) ∧
      s'.peers = s.peers ∧ s'.renewals = s.renewals ∧ SameRelay s s' := by
  iterate 2 obtain ⟨_, _, h⟩ := bind_ok h
  obtain ⟨t, ht, h⟩ := found_ok h
  cases h
  exact ⟨fun q => mem_insert? ht, rfl, rfl, rfl, rfl, rfl, rfl⟩

namespace Accounts

lemma insertPeer {p : Peer} (h : s.insertPeer p = .ok s') : Accounts s s' := by
  obtain ⟨hp, _, hc, _, hr⟩ := insertPeer_ok h
  exact ⟨hr, fun q hq => ⟨q, (hp q).2 (.inl hq), rfl, rfl⟩,
    by rw [hc]; exact fun c h => ⟨c, h, rfl, rfl⟩, by rw [hc]; exact fun c h => .inl ⟨c, h, rfl, rfl⟩⟩

lemma insertCertificate (ha : ∃ p ∈ s.peers, p.id = c.peerId ∧ p.status = .active)
    (h : s.insertCertificate c = .ok s') : Accounts s s' := by
  obtain ⟨hc, hp, _, hr⟩ := insertCertificate_ok h
  refine ⟨hr, by rw [hp]; exact fun p h => ⟨p, h, rfl, rfl⟩,
    fun d hd => ⟨d, (hc d).2 (.inl hd), rfl, rfl⟩, fun d hd => ?_⟩
  rcases (hc d).1 hd with hd | rfl
  · exact .inl ⟨d, hd, rfl, rfl⟩
  · exact .inr (hp.symm ▸ ha)

/-- An update of the peers that keeps identity and authority. -/
lemma of_peers (hp : SamePeers s s') (hc : s'.certificates = s.certificates) (hr : SameRelay s s') :
    Accounts s s' where
  toSameRelay := hr
  peer_kept := hp.kept
  certificate_kept := by rw [hc]; exact fun c h => ⟨c, h, rfl, rfl⟩
  certificate_from := by rw [hc]; exact fun c h => .inl ⟨c, h, rfl, rfl⟩

/-- An update of the certificates that keeps fingerprint, owner and revocation. -/
lemma updateCertificates {p : Certificate → Bool} {f : Certificate → Certificate}
    (hc : s'.certificates.rows = s.certificates.rows.map fun c => if p c then f c else c) (hf : ∀ c, (f
      c).fingerprint = c.fingerprint ∧ (f c).peerId = c.peerId ∧ (f c).revokedAt = c.revokedAt)
    (hp : s'.peers = s.peers) (hr : SameRelay s s') : Accounts s s' where
  toSameRelay := hr
  peer_kept := by rw [hp]; exact fun p h => ⟨p, h, rfl, rfl⟩
  certificate_kept := by
    intro c hc'
    simp only [mem_def, hc]
    exact exists_updateWhere hc' (fun _ => ⟨(hf c).1, (hf c).2.2⟩) fun _ => ⟨rfl, rfl⟩
  certificate_from := by
    intro c' hc'
    rw [mem_def, hc] at hc'
    obtain ⟨c, hcm, ⟨_, rfl⟩ | ⟨_, rfl⟩⟩ := updateWhere_cases hc'
    · exact .inl ⟨c, hcm, (hf c).2.1.symm, (hf c).2.2.symm⟩
    · exact .inl ⟨c', hcm, rfl, rfl⟩

end Accounts

lemma Changes.accounts (h : Accounts s s') : Changes true s s' :=
  .single (.accounts h fun ha => by cases ha)

/-- A call that only touches pairings, usage or the epoch. -/
lemma Changes.same (hr : SameRelay s s') (ha : SameAccounts s s') : Changes acc s s' :=
  .single (.accounts (.of_peers (.of_eq ha.peers) ha.certificates hr) fun _ => ha)

/-! ### The calls outside the relay, one by one -/

section Calls
variable {s s' : Store δ} {call : Call}
variable {peer : PeerAuthorization} {revision : Uuid → String} {pairingId : Uuid}
  {identity teamId transcript : String} {issued : IssuedCertificate} {payload : RoutePayload}
  {row : Pairing δ} {hash : δ}

lemma expirePendingPairings_changes (t : Nat) (p : Pairing δ → Bool) :
    Changes acc s (s.expirePendingPairings t p) := .same ⟨rfl, rfl, rfl, rfl⟩ ⟨rfl, rfl, rfl⟩

/-- The pairing to decide is read, or found expired and marked so. -/
lemma decidablePairing_cases {row : Except Err (Pairing δ)}
    (h : decidablePairing s t pairingId identity transcript = .ok (s', row)) :
    (∃ e, row = .error e ∧ Changes acc s s') ∨
      (∃ p, row = .ok p ∧ s' = s ∧ s.pairings.find? pairingId = some p) := by
  obtain ⟨p, hp, h⟩ := found_ok h
  split at h
  · cases h
    exact .inl ⟨_, rfl, expirePendingPairings_changes _ _⟩
  · obtain ⟨_, _, h⟩ := bind_ok h
    obtain ⟨_, _, h⟩ := bind_ok h
    cases h
    exact .inr ⟨p, rfl, rfl, hp⟩

/-- One revocation after another; a peer that is not active any more is left alone. -/
lemma revokeEach_changes : ∀ (ids : List Uuid) (s : Store δ),
    Changes true s (s.revokeEach ids t actor revision)
  | [], _ => .refl
  | id :: ids, s => by
    refine Relation.ReflTransGen.trans ?_
      (revokeEach_changes ids ((s.revokePeerInTransaction id t actor (revision id)).getD s))
    cases hs : s.revokePeerInTransaction id t actor (revision id) with
    | none => exact .refl
    | some s1 => exact .single (.revokePeer rfl hs)

lemma submitPairing_changes [DecidableEq δ] {request : PairingRequest δ} {sourceIp : Option String}
    {n : Nat} (h : submitPairing s call request pairingId sourceIp n = .ok (s', row)) :
    Changes acc s s' := by
  unfold submitPairing at h
  split at h
  · obtain ⟨_, _, h⟩ := bind_ok h
    obtain ⟨_, _, h⟩ := bind_ok h
    cases h
    exact expirePendingPairings_changes _ _
  · iterate 4 obtain ⟨_, _, h⟩ := bind_ok h
    obtain ⟨s1, hi, h⟩ := bind_ok h
    cases h
    iterate 2 obtain ⟨_, _, hi⟩ := bind_ok hi
    cases hi
    exact .same ⟨rfl, rfl, rfl, rfl⟩ ⟨rfl, rfl, rfl⟩

lemma pollPairing_changes [DecidableEq δ]
    (h : pollPairing s call pairingId hash = .ok (s', row)) : Changes acc s s' := by
  iterate 3 obtain ⟨_, _, h⟩ := bind_ok h
  cases h
  exact expirePendingPairings_changes _ _

lemma cancelPairing_changes [DecidableEq δ]
    (h : cancelPairing s call pairingId hash = .ok s') : Changes acc s s' := by
  obtain ⟨⟨s1, row⟩, h1, h⟩ := bind_ok h
  obtain ⟨_, _, h⟩ := bind_ok h
  cases h
  exact (pollPairing_changes h1).trans (Changes.same ⟨rfl, rfl, rfl, rfl⟩ ⟨rfl, rfl, rfl⟩)

lemma rejectPairing_changes {pairingId rejectedBy reason : String} {r : Except Err Unit}
    (h : rejectPairing s call pairingId rejectedBy reason identity transcript = .ok (s', r)) :
    Changes acc s s' := by
  iterate 5 obtain ⟨_, _, h⟩ := bind_ok h
  obtain ⟨⟨s1, row⟩, h1, hw⟩ := bind_ok h
  rcases decidablePairing_cases h1 with ⟨e, rfl, hc⟩ | ⟨p, rfl, rfl, _⟩
  · cases hw; exact hc
  · cases hw; exact .same ⟨rfl, rfl, rfl, rfl⟩ ⟨rfl, rfl, rfl⟩

lemma approvePairing_changes {pairingId : String} {scopes : List Scope} {approvedBy : String}
    {r : Except Err (List Uuid)} (h : approvePairing s call pairingId teamId scopes approvedBy identity
      transcript peerId issued revision = .ok (s', r)) : Changes true s s' := by
  iterate 7 obtain ⟨_, _, h⟩ := bind_ok h
  obtain ⟨⟨s1, row⟩, h1, hw⟩ := bind_ok h
  rcases decidablePairing_cases h1 with ⟨e, rfl, hc⟩ | ⟨p, rfl, rfl, hp⟩
  · cases hw; exact hc
  obtain ⟨_, _, hw⟩ := bind_ok hw
  obtain ⟨s2, h2, hw⟩ := bind_ok hw
  obtain ⟨s3, h3, hw⟩ := bind_ok hw
  cases hw
  have a2 := Accounts.insertPeer h2
  have a3 := Accounts.insertCertificate ⟨_, ((insertPeer_ok h2).1 _).2 (.inr rfl), rfl, rfl⟩ h3
  exact (revokeEach_changes _ _).trans ((Changes.accounts a2).trans
    ((Changes.accounts a3).trans (Changes.same ⟨rfl, rfl, rfl, rfl⟩ ⟨rfl, rfl, rfl⟩)))

lemma reconcileActiveLogicalPeers_changes {preferred : List String} {superseded : List Uuid}
    (h : reconcileActiveLogicalPeers s call preferred actor revision = .ok (s', superseded)) :
    Changes true s s' := by
  iterate 2 obtain ⟨_, _, h⟩ := bind_ok h
  cases h
  exact revokeEach_changes _ _

lemma revokePeer_changes {peerId fingerprint revokedBy revision : String}
    (h : revokePeer s call peerId teamId fingerprint revokedBy revision = .ok s') :
    Changes true s s' := by
  iterate 6 obtain ⟨_, _, h⟩ := bind_ok h
  obtain ⟨_, _, h⟩ := found_ok h
  iterate 2 obtain ⟨_, _, h⟩ := bind_ok h
  exact .single (.revokePeer rfl (getOr_ok h))

lemma revokePeerForSelf_changes {revision : String}
    (h : revokePeerForSelf s call peer revision = .ok s') : Changes true s s' := by
  obtain ⟨_, _, h⟩ := bind_ok h
  obtain ⟨_, _, h⟩ := found_ok h
  iterate 3 obtain ⟨_, _, h⟩ := bind_ok h
  split at h
  · exact .single (.revokePeer rfl (getOr_ok h))
  · cases h; exact .refl

lemma activateCrossChatConsent_changes {expected : Nat} {activatedBy revision : String}
    (h : activateCrossChatConsent s call expected activatedBy revision = .ok s') :
    Changes acc s s' := by
  iterate 3 obtain ⟨_, _, h⟩ := bind_ok h
  cases h
  refine Relation.ReflTransGen.tail ?_ (.retireAllRoutes _ _)
  exact Changes.same ⟨rfl, rfl, rfl, rfl⟩ ⟨rfl, rfl, rfl⟩

lemma recordPeerHeartbeat_changes {peerId : String} {written : Bool}
    (h : recordPeerHeartbeat s call peerId = .ok (s', written)) : Changes true s s' := by
  iterate 3 obtain ⟨_, _, h⟩ := bind_ok h
  dsimp only at h
  split at h
  · cases h
    exact .accounts (.of_peers (.update rfl fun _ => ⟨rfl, rfl, rfl, rfl⟩) rfl ⟨rfl, rfl, rfl, rfl⟩)
  · cases h; exact .refl

lemma renewPeer_changes [DecidableEq δ] {request : RenewalRequest δ}
    {fingerprint : String} (h : renewPeer s call peer request issued = .ok (s', fingerprint)) :
    Changes true s s' := by
  unfold renewPeer at h
  split at h
  · obtain ⟨_, _, h⟩ := bind_ok h
    obtain ⟨_, _, h⟩ := bind_ok h
    cases h; exact .refl
  · iterate 4 obtain ⟨_, _, h⟩ := bind_ok h
    obtain ⟨row, hrow, h⟩ := found_ok h
    obtain ⟨hactive, h⟩ := refuse_ok h
    iterate 2 obtain ⟨_, _, h⟩ := bind_ok h
    obtain ⟨s1, h1, h⟩ := bind_ok h
    obtain ⟨s2, h2, h⟩ := bind_ok h
    cases h
    obtain ⟨hmem, hid⟩ := find?_eq_some.1 hrow
    have a1 := Accounts.insertCertificate
      ⟨row, hmem, hid, not_not.1 hactive⟩ h1
    iterate 3 obtain ⟨_, _, h2⟩ := bind_ok h2
    cases h2
    exact (Changes.accounts a1).trans (Changes.accounts (.of_peers (.of_eq rfl) rfl ⟨rfl, rfl, rfl, rfl⟩))

lemma supersedeCertificate_changes (old : Certificate) (t : Nat) :
    Changes true s (s.supersedeCertificate old t) :=
  .accounts (.updateCertificates rfl (fun _ => ⟨rfl, rfl, rfl⟩) rfl ⟨rfl, rfl, rfl, rfl⟩)

lemma activateCertificate_changes (new : Certificate) (peerId : Uuid) :
    Changes true s (s.activateCertificate new peerId) := by
  refine Relation.ReflTransGen.tail ?_ (.accounts
    (.of_peers (.update rfl fun _ => ⟨rfl, rfl, rfl, rfl⟩) rfl ⟨rfl, rfl, rfl, rfl⟩) fun ha => by cases ha)
  exact Changes.accounts
    (.updateCertificates rfl (fun _ => ⟨rfl, rfl, rfl⟩) rfl ⟨rfl, rfl, rfl, rfl⟩)

lemma activateRenewal_changes {requestId : String}
    (h : activateRenewal s call peer requestId = .ok s') : Changes true s s' := by
  iterate 2 obtain ⟨_, _, h⟩ := bind_ok h
  obtain ⟨peerId, _, h⟩ := bind_ok h
  obtain ⟨_, _, h⟩ := bind_ok h
  split at h
  · cases h; exact .refl
  · obtain ⟨_, _, h⟩ := bind_ok h
    obtain ⟨old, _, h⟩ := bind_ok h
    obtain ⟨new, _, h⟩ := bind_ok h
    obtain ⟨_, _, h⟩ := bind_ok h
    cases h
    refine Relation.ReflTransGen.trans (supersedeCertificate_changes old call.timestamp) ?_
    refine Relation.ReflTransGen.trans (activateCertificate_changes new peerId) ?_
    exact Changes.accounts (.of_peers (.of_eq rfl) rfl ⟨rfl, rfl, rfl, rfl⟩)

lemma publishLocalRoute_changes {host audience chatId : String} {publishedBy : String} {row : Route}
    (h : publishLocalRoute s call host teamId audience chatId payload publishedBy = .ok (s', row)) :
    Changes acc s s' := by
  iterate 2 obtain ⟨_, _, h⟩ := bind_ok h
  obtain ⟨aud, _, h⟩ := bind_ok h
  iterate 3 obtain ⟨_, _, h⟩ := bind_ok h
  obtain ⟨peer, hpeer, h⟩ := found_ok h
  obtain ⟨hactive, h⟩ := refuse_ok h
  iterate 4 obtain ⟨_, _, h⟩ := bind_ok h
  obtain ⟨s1, h1, h⟩ := bind_ok h
  cases h
  obtain ⟨hmem, hid⟩ := find?_eq_some.1 hpeer
  have hstatus : peer.status = .active := not_not.1 (not_or.1 hactive).2
  refine .single (.publish h1 ?_)
  intro id hof
  have haud : aud = id := by simpa [Route.of] using hof
  exact ⟨peer, hmem, hid.trans haud, hstatus⟩

/-- The gate lets a peer through only while it is active. -/
lemma requireCrossChat_peer {epoch : Nat} (hid : peer.peerId = some id)
    (h : requireCrossChat s call (some peer) = .ok epoch) :
    ∃ p ∈ s.peers, p.id = id ∧ p.status = .active := by
  iterate 2 obtain ⟨_, _, h⟩ := bind_ok h
  simp only [Option.bind_some, hid] at h
  obtain ⟨_, _, h⟩ := bind_ok h
  obtain ⟨row, hrow, h⟩ := found_ok h
  obtain ⟨hactive, h⟩ := refuse_ok h
  obtain ⟨hmem, hkey⟩ := find?_eq_some.1 hrow
  exact ⟨row, hmem, hkey, not_not.1 (not_or.1 hactive).1⟩

lemma publishPeerRoute_changes {row : Route}
    (h : publishPeerRoute s call peer payload = .ok (s', row)) : Changes acc s s' := by
  obtain ⟨epoch, hepoch, h⟩ := bind_ok h
  obtain ⟨⟨routeId, actions⟩, _, h⟩ := bind_ok h
  obtain ⟨_, _, h⟩ := bind_ok h
  split at h
  · obtain ⟨_, _, h⟩ := bind_ok h
    cases h; exact .refl
  · obtain ⟨_, _, h⟩ := bind_ok h
    obtain ⟨owner, howner, h⟩ := found_ok h
    obtain ⟨s1, h1, h⟩ := bind_ok h
    cases h
    refine .single (.publish h1 ?_)
    intro id hof
    have hown : owner = id := by simpa [Route.of] using hof
    exact requireCrossChat_peer (hown ▸ howner) hepoch

lemma revokeRoute_changes {routeId expected revokedBy next : String}
    (h : revokeRoute s call routeId teamId expected revokedBy next = .ok s') : Changes acc s s' := by
  iterate 6 obtain ⟨_, _, h⟩ := bind_ok h
  cases h
  exact .single (.retireRoute _ _ _)

lemma revokePeerRoute_changes {routeId expected next : String}
    (h : revokePeerRoute s call peer routeId expected next = .ok s') : Changes acc s s' := by
  iterate 4 obtain ⟨_, _, h⟩ := bind_ok h
  cases h
  exact .single (.retireRoute _ _ _)

end Calls

/-! ### The step outside the relay -/

/-- The call is one of the relay: submit, claim or receipt. -/
def Action.isTraffic : Action δ → Bool
  | .submitEnvelope .. | .submitLocalEnvelope .. | .claimInbox .. | .claimLocalInbox ..
  | .claimLocalRouteInbox .. | .receiptEnvelope .. | .receiptLocalEnvelope .. => true
  | _ => false

/-- The calls that write accounts. -/
def Action.isAccount : Action δ → Bool
  | .approvePairing .. | .reconcileActiveLogicalPeers .. | .revokePeer .. | .revokePeerForSelf ..
  | .recordPeerHeartbeat .. | .renewPeer .. | .activateRenewal .. => true
  | _ => false

section Step
variable {s : Store δ}

lemma settle_changes {α : Type} {answer : α → Reply δ} {x : Except Err (Store δ × α)}
    (h : ∀ s' a, x = .ok (s', a) → Changes acc s s') : Changes acc s (settle s answer x).1 := by
  match x, h with
  | .error _, _ => exact .refl
  | .ok (s', a), h => exact h s' a rfl

lemma settleUnit_changes {x : Except Err (Store δ)} (h : ∀ s', x = .ok s' → Changes acc s s') :
    Changes acc s (settleUnit s x).1 := by
  match x, h with
  | .error _, _ => exact .refl
  | .ok s', h => exact h s' rfl

/-- STEP: a call that is not relay traffic is a sequence of changes. -/
theorem perform_changes [DecidableEq δ] (h : Host δ) (op : Op δ) (ht : op.action.isTraffic = false) :
    Changes op.action.isAccount s (perform h s op).1 := by
  obtain ⟨call, action⟩ := op
  cases action with
  | submitPairing => exact settle_changes fun _ _ => submitPairing_changes
  | pollPairing => exact settle_changes fun _ _ => pollPairing_changes
  | listPairings => exact expirePendingPairings_changes _ _
  | cancelPairing => exact settleUnit_changes fun _ => cancelPairing_changes
  | rejectPairing => exact settle_changes fun _ _ => rejectPairing_changes
  | approvePairing => exact settle_changes fun _ _ => approvePairing_changes
  | reconcileActiveLogicalPeers =>
    exact settle_changes fun _ _ => reconcileActiveLogicalPeers_changes
  | revokePeer => exact settleUnit_changes fun _ => revokePeer_changes
  | revokePeerForSelf => exact settleUnit_changes fun _ => revokePeerForSelf_changes
  | activateCrossChatConsent => exact settleUnit_changes fun _ => activateCrossChatConsent_changes
  | recordPeerHeartbeat => exact settle_changes fun _ _ => recordPeerHeartbeat_changes
  | renewPeer => exact settle_changes fun _ _ => renewPeer_changes
  | activateRenewal => exact settleUnit_changes fun _ => activateRenewal_changes
  | publishLocalRoute => exact settle_changes fun _ _ => publishLocalRoute_changes
  | publishPeerRoute => exact settle_changes fun _ _ => publishPeerRoute_changes
  | revokeRoute => exact settleUnit_changes fun _ => revokeRoute_changes
  | revokePeerRoute => exact settleUnit_changes fun _ => revokePeerRoute_changes
  | retireAgentRoutesLocally => exact .single (.retireAllRoutes _ _)
  | _ => cases ht

end Step

end SecurePeer
