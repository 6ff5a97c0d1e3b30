import ZenithBot.SecurePeer.Traffic

/-! Certificate rotation. A peer is enrolled with one certificate; a renewal issues a second one that is
    good for nothing until it is activated; the activation supersedes the first, which stays good for a
    short overlap. That an active peer has exactly one current certificate, and that no two superseded ones
    overlap, are invariants of the transactions, not of the schema.

    The second rests on arithmetic. A certificate lives 30 days and is renewed in its last 7, and a
    renewal must be activated within a day; so between two activations lie more than 20 days, and the
    overlap of 10 minutes is long over. -/

namespace SecurePeer
open Lib Table Certificate

variable {δ : Type}
variable {c : Certificate} {p : Peer}

/-- The renewal issued a certificate, in the last days of its predecessor. -/
def Store.Issued (s : Store δ) (clock : Nat) (r : Renewal δ) : Prop :=
  r.createdAt ≤ clock ∧ r.expiresAt = r.createdAt + renewalRequestTtlSeconds ∧
    (∃ c ∈ s.certificates, c.fingerprint = r.newFingerprint ∧ c.issuedAt = r.createdAt) ∧
    ∃ c ∈ s.certificates, c.fingerprint = r.currentFingerprint ∧
      c.expiresAt ≤ r.createdAt + clientCertRenewWindowSeconds

/-- Certificates, peers and renewals in order at the time `clock`. -/
structure CertsOk (s : Store δ) (clock : Nat) : Prop where
  owner : ∀ c ∈ s.certificates, ∃ p ∈ s.peers, p.id = c.peerId
  has : ∀ p ∈ s.peers, p.status = .active → ∃ c ∈ s.certificates, c.current p.id = true
  one : ∀ c ∈ s.certificates, ∀ d ∈ s.certificates, ∀ id, c.current id = true →
    d.current id = true → c = d
  logical : ∀ p ∈ s.peers, ∀ q ∈ s.peers, p.status = .active → q.status = .active →
    p.teamId = q.teamId → p.peerServerIdentity = q.peerServerIdentity → p = q
  lifetime : ∀ c ∈ s.certificates, c.expiresAt = c.issuedAt + clientCertTtlSeconds
  pending : ∀ c ∈ s.certificates, c.activationRequired = true → c.supersededAt = none
  overlap : ∀ c ∈ s.certificates, ∀ t, c.supersededAt = some t → c.revokedAt = none →
    c.validUntil = min c.expiresAt (t + clientCertOverlapSeconds)
  behind : ∀ c ∈ s.certificates, ∀ d ∈ s.certificates, c.supersededAt ≠ none → c.revokedAt = none →
    d.current c.peerId = true →
    c.validUntil ≤ d.issuedAt + renewalRequestTtlSeconds + clientCertOverlapSeconds
  last : ∀ c ∈ s.certificates, ∀ d ∈ s.certificates, c.peerId = d.peerId → c.supersededAt ≠ none →
    d.supersededAt ≠ none → c.revokedAt = none → d.revokedAt = none →
    clock < c.validUntil → clock < d.validUntil → c = d
  issued : ∀ r ∈ s.renewals, s.Issued clock r

/-! ### Frames -/

section Frame
variable {s s' : Store δ} {clock t : Nat}

/-- Certificates may change and come, but not in what a renewal was issued by. -/
def KeepsIssue (s s' : Store δ) : Prop :=
  ∀ c ∈ s.certificates, ∃ c' ∈ s'.certificates, c'.fingerprint = c.fingerprint ∧
    c'.issuedAt = c.issuedAt ∧ c'.expiresAt = c.expiresAt

lemma CertsOk.still_issued (h : CertsOk s clock) (kept : KeepsIssue s s') :
    ∀ r ∈ s.renewals, s'.Issued clock r := by
  intro r hr
  obtain ⟨hclock, hexp, ⟨c, hc, hfp, hi⟩, ⟨d, hd, hdfp, hde⟩⟩ := h.issued r hr
  obtain ⟨c', hc', hfp', hi', _⟩ := kept c hc
  obtain ⟨d', hd', hdfp', _, hde'⟩ := kept d hd
  exact ⟨hclock, hexp, ⟨c', hc', hfp'.trans hfp, hi'.trans hi⟩,
    ⟨d', hd', hdfp'.trans hdfp, hde'.le.trans hde⟩⟩

/-- Peers may be touched and time may pass. -/
lemma CertsOk.frame (h : CertsOk s clock) (ht : clock ≤ t) (hp : SamePeers s s')
    (hc : s'.certificates = s.certificates) (hr : s'.renewals = s.renewals) : CertsOk s' t where
  owner c hcm := by
    obtain ⟨p, hpm, hid⟩ := h.owner c (hc ▸ hcm)
    obtain ⟨p', hp', hid', _⟩ := hp.kept p hpm
    exact ⟨p', hp', hid'.trans hid⟩
  has p' hp' hactive := by
    obtain ⟨p, hp, hid, hs, _⟩ := hp.was p' hp'
    obtain ⟨c, hcm, hcur⟩ := h.has p hp (hs ▸ hactive)
    exact ⟨c, hc ▸ hcm, hid ▸ hcur⟩
  one := hc ▸ h.one
  logical p' hp' q' hq' hpa hqa hteam hident := by
    obtain ⟨p, hpm, hpid, hps, hpt, hpi⟩ := hp.was p' hp'
    obtain ⟨q, hqm, hqid, hqs, hqt, hqi⟩ := hp.was q' hq'
    have same := h.logical p hpm q hqm (hps ▸ hpa) (hqs ▸ hqa) (by rw [← hpt, hteam, hqt])
      (by rw [← hpi, hident, hqi])
    exact s'.peers.eq_of_key hp' hq' (by rw [hpid, hqid, same])
  lifetime := hc ▸ h.lifetime
  pending := hc ▸ h.pending
  overlap := hc ▸ h.overlap
  behind := hc ▸ h.behind
  last := by
    rw [hc]
    exact fun c hcm d hdm hpeer hcs hds hcr hdr hcv hdv =>
      h.last c hcm d hdm hpeer hcs hds hcr hdr (ht.trans_lt hcv) (ht.trans_lt hdv)
  issued := by
    unfold Store.Issued
    rw [hr, hc]
    exact fun r hrm => ⟨(h.issued r hrm).1.trans ht, (h.issued r hrm).2⟩

lemma CertsOk.later (h : CertsOk s clock) (ht : clock ≤ t) : CertsOk s t :=
  h.frame ht (.of_eq rfl) rfl rfl

end Frame

/-! ### Revoking a peer -/

section Revoke
variable {s : Store δ} {clock : Nat} {id : Uuid} {t : Nat} {actor : String} {revision : String}
  {s' : Store δ}

lemma revokeAccount_peer {p' : Peer} (h : p' ∈ (s.revokeAccount id t actor).peers) :
    ∃ p ∈ s.peers, p'.id = p.id ∧ (p'.status = .active → p' = p ∧ p.id ≠ id) := by
  obtain ⟨p, hp, ⟨hq, rfl⟩ | ⟨hq, rfl⟩⟩ := updateWhere_cases h
  · exact ⟨p, hp, rfl, fun h => by cases h⟩
  · refine ⟨p', hp, rfl, fun hactive => ⟨rfl, fun hid => ?_⟩⟩
    simp [hid, hactive] at hq

lemma revokeAccount_of_peer (h : p ∈ s.peers) :
    ∃ p' ∈ (s.revokeAccount id t actor).peers, p'.id = p.id :=
  exists_updateWhere h (fun _ => rfl) fun _ => rfl

lemma Certificate.current_iff : c.current id = true ↔
    c.peerId = id ∧ c.supersededAt = none ∧ c.revokedAt = none ∧ c.activationRequired = false := by
  simp [Certificate.current, and_assoc]

lemma revokeAccount_keepsIssue : KeepsIssue s (s.revokeAccount id t actor) :=
  fun _ h => exists_updateWhere h (fun _ => ⟨rfl, rfl, rfl⟩) fun _ => ⟨rfl, rfl, rfl⟩

/-- REVOKE: a revoked peer takes its certificates with it; the others keep theirs. -/
theorem CertsOk.revokeAccount (h : CertsOk s clock) (id : Uuid) (t : Nat) (actor : String) :
    CertsOk (s.revokeAccount id t actor) clock where
  owner := by
    refine forall_updateWhere (fun c hc => ?_) fun _ hq => hq
    obtain ⟨p, hp, hid⟩ := h.owner c hc
    obtain ⟨p', hp', hid'⟩ := revokeAccount_of_peer hp
    exact ⟨p', hp', hid'.trans hid⟩
  has p' hp' hactive := by
    obtain ⟨p, hp, _, hsame⟩ := revokeAccount_peer hp'
    obtain ⟨rfl, hne⟩ := hsame hactive
    obtain ⟨c, hc, hcur⟩ := h.has p' hp hactive
    refine exists_updateWhere hc (fun hpeer => ?_) fun _ => hcur
    exact absurd ((current_iff.1 hcur).1.symm.trans (of_decide_eq_true hpeer)) hne
  one c hc d hd i hci hdi := by
    have hcr := (current_iff.1 hci).2.2.1
    have hdr := (current_iff.1 hdi).2.2.1
    exact h.one c (revokeAccount_unrevoked hc hcr).1 d (revokeAccount_unrevoked hd hdr).1 i hci hdi
  logical p' hp' q' hq' hpa hqa := by
    obtain ⟨p, hp, _, hsame⟩ := revokeAccount_peer hp'
    obtain ⟨q, hq, _, hsame'⟩ := revokeAccount_peer hq'
    obtain ⟨rfl, _⟩ := hsame hpa
    obtain ⟨rfl, _⟩ := hsame' hqa
    exact h.logical p' hp q' hq hpa hqa
  lifetime := forall_updateWhere h.lifetime fun _ hq => hq
  pending := forall_updateWhere h.pending fun _ hq => hq
  overlap c hc u hs hr := h.overlap c (revokeAccount_unrevoked hc hr).1 u hs hr
  behind c hc d hd hs hr hcur := by
    have hdr := (current_iff.1 hcur).2.2.1
    exact h.behind c (revokeAccount_unrevoked hc hr).1 d (revokeAccount_unrevoked hd hdr).1 hs hr hcur
  last c hc d hd hpeer hcs hds hcr hdr := h.last c (revokeAccount_unrevoked hc hcr).1 d
    (revokeAccount_unrevoked hd hdr).1 hpeer hcs hds hcr hdr
  issued := h.still_issued revokeAccount_keepsIssue

lemma CertsOk.revokePeer (h : CertsOk s clock)
    (hr : s.revokePeerInTransaction id t actor revision = some s') : CertsOk s' clock := by
  rw [revokePeerInTransaction_some hr]
  exact (h.revokeAccount id t actor).frame le_rfl (.of_eq rfl) rfl rfl

lemma revokePeer_inactive
    (hr : s.revokePeerInTransaction id t actor revision = some s') (hp : p ∈ s'.peers) (hid : p.id = id) :
    p.status ≠ .active := by
  rw [revokePeerInTransaction_some hr] at hp
  obtain ⟨q, _, hq, hsame⟩ := revokeAccount_peer hp
  exact fun hactive => (hsame hactive).2 (hq ▸ hid)

/-- What is active after revocations was so before and is not among the revoked. -/
lemma revokeEach_active {revision : Uuid → String} : ∀ (ids : List Uuid) (s : Store δ) {p : Peer},
    p ∈ (s.revokeEach ids t actor revision).peers → p.status = .active →
      p ∈ s.peers ∧ p.id ∉ ids
  | [], _, _, hp, _ => ⟨hp, List.not_mem_nil⟩
  | i :: ids, s, p, hp, hactive => by
    obtain ⟨hp1, hnot⟩ := revokeEach_active ids
      ((s.revokePeerInTransaction i t actor (revision i)).getD s) hp hactive
    cases hs : s.revokePeerInTransaction i t actor (revision i) with
    | none =>
      rw [hs] at hp1
      refine ⟨hp1, List.not_mem_cons_of_ne_of_not_mem ?_ hnot⟩
      -- nothing was revoked, so no peer with this id is active
      rintro rfl
      unfold Store.revokePeerInTransaction at hs
      split at hs
      · cases hs
      · rename_i hany
        exact hany (List.any_eq_true.2 ⟨p, hp1, by simp [hactive]⟩)
    | some s1 =>
      rw [hs] at hp1
      have hne : p.id ≠ i := fun hid => revokePeer_inactive hs hp1 hid hactive
      rw [revokePeerInTransaction_some hs] at hp1
      obtain ⟨q, hq, _, hsame⟩ := revokeAccount_peer hp1
      exact ⟨(hsame hactive).1 ▸ hq, List.not_mem_cons_of_ne_of_not_mem hne hnot⟩

end Revoke

/-! ### Enrolling, issuing, activating -/

section Issue
variable {s s' : Store δ} {clock : Nat}
variable {r : Renewal δ} {d n : Certificate} {peerId : Uuid}

lemma insertRenewal_ok (h : s.insertRenewal r = .ok s') :
    (∀ q, q ∈ s'.renewals ↔ q ∈ s.renewals ∨ q = r) ∧
      s'.peers = s.peers ∧ s'.certificates = s.certificates ∧ s'.pairings = s.pairings := by
  iterate 2 obtain ⟨_, _, h⟩ := bind_ok h
  obtain ⟨t, ht, h⟩ := found_ok h
  cases h
  exact ⟨fun q => mem_insert? ht, rfl, rfl, rfl⟩

/-- A new peer with its first certificate, when no other active peer is of its team and identity. -/
structure Enrolls (p : Peer) (c : Certificate) (s s' : Store δ) : Prop where
  peers : ∀ q, q ∈ s'.peers ↔ q ∈ s.peers ∨ q = p
  fresh : ∀ q ∈ s.peers, q.id ≠ p.id
  certificates : ∀ d, d ∈ s'.certificates ↔ d ∈ s.certificates ∨ d = c
  renewals : s'.renewals = s.renewals
  current : c.current p.id = true
  lifetime : c.expiresAt = c.issuedAt + clientCertTtlSeconds
  alone : ∀ q ∈ s.peers, q.status = .active → q.teamId = p.teamId →
    q.peerServerIdentity ≠ p.peerServerIdentity

/-- What holds of the certificates and of the one that is added holds of all. -/
lemma forall_added {Q : Certificate → Prop} (h : ∀ d ∈ s.certificates, Q d) (hnew : Q c)
    (hc : ∀ d, d ∈ s'.certificates ↔ d ∈ s.certificates ∨ d = c) : ∀ d ∈ s'.certificates, Q d := by
  intro d hd
  rcases (hc d).1 hd with hd | rfl
  · exact h d hd
  · exact hnew

lemma keepsIssue_added (hc : ∀ d, d ∈ s'.certificates ↔ d ∈ s.certificates ∨ d = c) :
    KeepsIssue s s' :=
  fun d hd => ⟨d, (hc d).2 (.inl hd), rfl, rfl, rfl⟩

/-- ENROLL: the new peer has its one certificate. -/
theorem CertsOk.enroll (h : CertsOk s clock) (enrolls : Enrolls p c s s') : CertsOk s' clock := by
  obtain ⟨hp, hnew, hc, hr, hcur, hlife, alone⟩ := enrolls
  obtain ⟨hpeer, hsup, hrev, hact⟩ := current_iff.1 hcur
  -- no stored certificate is of the new peer
  have apart : ∀ d ∈ s.certificates, d.peerId ≠ p.id := by
    intro d hd heq
    obtain ⟨q, hq, hid⟩ := h.owner d hd
    exact hnew q hq (hid.trans heq)
  have old : ∀ d ∈ s'.certificates, d.supersededAt ≠ none → d ∈ s.certificates :=
    forall_added (fun _ hd _ => hd) (absurd hsup) hc
  constructor
  case owner =>
    refine forall_added (fun d hd => ?_) ⟨p, (hp p).2 (.inr rfl), hpeer.symm⟩ hc
    obtain ⟨q, hq, hid⟩ := h.owner d hd
    exact ⟨q, (hp q).2 (.inl hq), hid⟩
  case has =>
    intro q hq hactive
    rcases (hp q).1 hq with hq | rfl
    · obtain ⟨d, hd, hdcur⟩ := h.has q hq hactive
      exact ⟨d, (hc d).2 (.inl hd), hdcur⟩
    · exact ⟨c, (hc c).2 (.inr rfl), hcur⟩
  case one =>
    intro d hd e he i hdi hei
    rcases (hc d).1 hd with hd | rfl <;> rcases (hc e).1 he with he | rfl
    · exact h.one d hd e he i hdi hei
    · have hi := (current_iff.1 hei).1
      exact (apart d hd ((current_iff.1 hdi).1.trans (hi.symm.trans hpeer))).elim
    · have hi := (current_iff.1 hdi).1
      exact (apart e he ((current_iff.1 hei).1.trans (hi.symm.trans hpeer))).elim
    · rfl
  case logical =>
    intro q hq r hr' hqa hra hteam hident
    rcases (hp q).1 hq with hq | rfl <;> rcases (hp r).1 hr' with hr' | rfl
    · exact h.logical q hq r hr' hqa hra hteam hident
    · exact (alone q hq hqa hteam hident).elim
    · exact (alone r hr' hra hteam.symm hident.symm).elim
    · rfl
  case lifetime => exact forall_added h.lifetime hlife hc
  case pending => exact forall_added h.pending (fun _ => hsup) hc
  case overlap =>
    intro d hd t hs
    exact h.overlap d (old d hd (by simp [hs])) t hs
  case behind =>
    intro d hd e he hs hr' hecur
    have hd := old d hd hs
    rcases (hc e).1 he with he | rfl
    · exact h.behind d hd e he hs hr' hecur
    · exact (apart d hd ((current_iff.1 hecur).1.symm.trans hpeer)).elim
  case last =>
    intro d hd e he hpe hds hes
    exact h.last d (old d hd hds) e (old e he hes) hpe hds hes
  case issued => exact hr ▸ h.still_issued (keepsIssue_added hc)

/-- A certificate that is good for nothing yet, and the renewal it belongs to. -/
structure Issues (t : Nat) (cur c : Certificate) (r : Renewal δ) (s s' : Store δ) : Prop where
  peers : s'.peers = s.peers
  pairings : s'.pairings = s.pairings
  certificates : ∀ d, d ∈ s'.certificates ↔ d ∈ s.certificates ∨ d = c
  fresh : ∀ d ∈ s.certificates, d.fingerprint ≠ c.fingerprint
  renewals : ∀ q, q ∈ s'.renewals ↔ q ∈ s.renewals ∨ q = r
  waits : c.activationRequired = true
  good : c.supersededAt = none
  lifetime : c.expiresAt = c.issuedAt + clientCertTtlSeconds
  owner : ∃ p ∈ s.peers, p.id = c.peerId
  current : cur ∈ s.certificates
  created : r.createdAt = t
  expires : r.expiresAt = r.createdAt + renewalRequestTtlSeconds
  new : c.fingerprint = r.newFingerprint ∧ c.issuedAt = r.createdAt
  due : cur.fingerprint = r.currentFingerprint ∧
    cur.expiresAt ≤ r.createdAt + clientCertRenewWindowSeconds

/-- ISSUE: a certificate that waits is not the current one of any peer. -/
theorem CertsOk.issue (h : CertsOk s clock) {cur : Certificate} (issues : Issues clock cur c r s s') :
    CertsOk s' clock := by
  obtain ⟨hp, _, hc, _, hr, hact, hsup, hlife, howner, hcur, hclock, hexp, hnew, hdue⟩ := issues
  have old : ∀ d ∈ s'.certificates, d.supersededAt ≠ none → d ∈ s.certificates :=
    forall_added (fun _ hd _ => hd) (absurd hsup) hc
  have oldCurrent : ∀ d ∈ s'.certificates, ∀ i, d.current i = true → d ∈ s.certificates :=
    forall_added (fun _ hd _ _ => hd) (fun i hi => by simp [Certificate.current, hact] at hi) hc
  constructor
  case owner => exact hp ▸ forall_added h.owner howner hc
  case has =>
    intro p hpm hactive
    obtain ⟨d, hd, hdcur⟩ := h.has p (hp ▸ hpm) hactive
    exact ⟨d, (hc d).2 (.inl hd), hdcur⟩
  case one =>
    exact fun d hd e he i hdi hei =>
      h.one d (oldCurrent d hd i hdi) e (oldCurrent e he i hei) i hdi hei
  case logical => exact hp ▸ h.logical
  case lifetime => exact forall_added h.lifetime hlife hc
  case pending => exact forall_added h.pending (fun _ => hsup) hc
  case overlap => exact fun d hd t hs => h.overlap d (old d hd (by simp [hs])) t hs
  case behind =>
    exact fun d hd e he hs hr' hecur =>
      h.behind d (old d hd hs) e (oldCurrent e he _ hecur) hs hr' hecur
  case last =>
    exact fun d hd e he hpe hds hes => h.last d (old d hd hds) e (old e he hes) hpe hds hes
  case issued =>
    intro q hq
    rcases (hr q).1 hq with hq | rfl
    · exact h.still_issued (keepsIssue_added hc) q hq
    · exact ⟨hclock.le, hexp, ⟨c, (hc c).2 (.inr rfl), hnew⟩, ⟨cur, (hc cur).2 (.inl hcur), hdue⟩⟩

/-- The certificate an activation supersedes, afterwards. -/
def Certificate.superseded (d : Certificate) (t : Nat) : Certificate :=
  { d with supersededAt := some t, validUntil := min d.expiresAt (t + clientCertOverlapSeconds) }

/-- The certificate an activation makes the current one, afterwards. -/
def Certificate.activated (n : Certificate) : Certificate := { n with activationRequired := false }

/-- The two updates of an activation hit the old and the new certificate. -/
lemma activate_rows {t : Nat} (hd : d ∈ s.certificates)
    (hn : n ∈ s.certificates) (hne : n ≠ d) (c : Certificate) :
    c ∈ ((s.supersedeCertificate d t).activateCertificate n peerId).certificates ↔
      (c ∈ s.certificates ∧ c ≠ d ∧ c ≠ n) ∨ c = d.superseded t ∨ c = n.activated := by
  have first (c : Certificate) : c ∈ (s.supersedeCertificate d t).certificates ↔
      (c ∈ s.certificates ∧ c ≠ d) ∨ c = d.superseded t :=
    mem_updateWhere_key hd (by simp) (by simp)
  have hn1 : n ∈ (s.supersedeCertificate d t).certificates := (first n).2 (.inl ⟨hn, hne⟩)
  have second : c ∈ ((s.supersedeCertificate d t).activateCertificate n peerId).certificates ↔
      (c ∈ (s.supersedeCertificate d t).certificates ∧ c ≠ n) ∨ c = n.activated :=
    mem_updateWhere_key hn1 (by simp) (by simp)
  have apart : d.superseded t ≠ n := by
    intro heq
    exact hne (s.certificates.eq_of_key hn hd (heq ▸ rfl))
  rw [second, first]
  constructor
  · rintro (⟨⟨hc, hcd⟩ | rfl, hcn⟩ | rfl)
    · exact .inl ⟨hc, hcd, hcn⟩
    · exact .inr (.inl rfl)
    · exact .inr (.inr rfl)
  · rintro (⟨hc, hcd, hcn⟩ | rfl | rfl)
    · exact .inl ⟨.inl ⟨hc, hcd⟩, hcn⟩
    · exact .inl ⟨.inr rfl, apart⟩
    · exact .inr rfl

/-- A renewal is due so late that the overlap at the start of the certificate's life is over: the
    arithmetic of the constants. -/
lemma due_late {issuedAt expiresAt createdAt : Nat}
    (hlife : expiresAt = issuedAt + clientCertTtlSeconds)
    (hdue : expiresAt ≤ createdAt + clientCertRenewWindowSeconds) :
    issuedAt + renewalRequestTtlSeconds + clientCertOverlapSeconds ≤ createdAt := by
  simp only [clientCertTtlSeconds, clientCertRenewWindowSeconds, renewalRequestTtlSeconds,
    clientCertOverlapSeconds] at *
  omega

/-- The new certificate `n` takes the place of the old one `d`, for the renewal `r` that was issued and
    has not expired. -/
structure Activation (t : Nat) (r : Renewal δ) (d n : Certificate) (peerId : Uuid) (s s' : Store δ) :
    Prop where
  renewal : r ∈ s.renewals
  issued : r.status = .issued
  live : t < r.expiresAt
  old : d ∈ s.certificates
  old_named : r.currentFingerprint = d.fingerprint
  old_current : d.current peerId = true
  new : n ∈ s.certificates
  new_named : r.newFingerprint = n.fingerprint
  new_waits : n.peerId = peerId ∧ n.revokedAt = none ∧ n.activationRequired = true
  peers : SamePeers s s'
  certificates : ∀ c, c ∈ s'.certificates ↔ (c ∈ s.certificates ∧ c ≠ d ∧ c ≠ n) ∨
    c = d.superseded t ∨ c = n.activated
  renewals : ∀ q' ∈ s'.renewals, ∃ q ∈ s.renewals, q'.createdAt = q.createdAt ∧
    q'.expiresAt = q.expiresAt ∧ q'.currentFingerprint = q.currentFingerprint ∧
    q'.newFingerprint = q.newFingerprint

/-- What holds of the certificates and of the two that are updated holds of all. -/
lemma Activation.forall {t : Nat} {Q : Certificate → Prop} (act : Activation t r d n peerId s s')
    (h : ∀ c ∈ s.certificates, c ≠ d → Q c) (hd : Q (d.superseded t)) (hn : Q n.activated) :
    ∀ c ∈ s'.certificates, Q c := by
  intro c hc
  rcases (act.certificates c).1 hc with ⟨hc, hne, _⟩ | rfl | rfl
  · exact h c hc hne
  · exact hd
  · exact hn

/-- ACTIVATE: the overlap of the old certificate is the only one that is not over. -/
theorem CertsOk.activate (h : CertsOk s clock)
    (act : Activation clock r d n peerId s s') : CertsOk s' clock := by
  have rows := act
  obtain ⟨hr, _, hlive, hd, hrd, hdcur, hn, hrn, ⟨hnp, hnr, hna⟩, hp, hc, hrs⟩ := act
  -- the peers first, then the certificates
  replace h : CertsOk { s with peers := s'.peers } clock := h.frame le_rfl ⟨hp.kept, hp.was⟩ rfl rfl
  obtain ⟨hdp, hds, hdr, hda⟩ := current_iff.1 hdcur
  have hns := h.pending n hn hna
  have hncur : n.activated.current peerId = true :=
    current_iff.2 ⟨hnp, hns, hnr, rfl⟩
  -- the renewal was due for `d` and issued `n`
  obtain ⟨hrclock, hrexp, ⟨n1, hn1, hnfp, hni⟩, ⟨d1, hd1, hdfp, hdue⟩⟩ := h.issued r hr
  obtain rfl := s.certificates.eq_of_key hn1 hn (hnfp.trans hrn)
  obtain rfl := s.certificates.eq_of_key hd1 hd (hdfp.trans hrd)
  have late := due_late (h.lifetime d1 hd) hdue
  have settled : ∀ c ∈ s.certificates, c.supersededAt ≠ none → c.revokedAt = none →
      c.peerId = peerId → c.validUntil ≤ r.createdAt := fun c hcm hcs hcr hpeer =>
    (h.behind c hcm d1 hd hcs hcr (hpeer ▸ hdcur)).trans late
  have kept : KeepsIssue s s' := by
    intro c hcm
    by_cases hcd : c = d1
    · exact ⟨_, (hc _).2 (.inr (.inl rfl)), by rw [hcd]; exact ⟨rfl, rfl, rfl⟩⟩
    · by_cases hcn : c = n1
      · exact ⟨_, (hc _).2 (.inr (.inr rfl)), by rw [hcn]; exact ⟨rfl, rfl, rfl⟩⟩
      · exact ⟨c, (hc c).2 (.inl ⟨hcm, hcd, hcn⟩), rfl, rfl, rfl⟩
  -- the old certificate is no longer current
  have oldCurrent : ∀ c ∈ s'.certificates, ∀ i, c.current i = true →
      (c ∈ s.certificates ∧ c ≠ d1) ∨ (c = n1.activated ∧ i = peerId) :=
    rows.forall (fun c hcm hcd _ _ => .inl ⟨hcm, hcd⟩) (fun _ hi => nomatch (current_iff.1 hi).2.1)
      fun _ hi => .inr ⟨rfl, (current_iff.1 hi).1.symm.trans hnp⟩
  have oldSuperseded : ∀ c ∈ s'.certificates, c.supersededAt ≠ none →
      c ∈ s.certificates ∨ c = d1.superseded clock :=
    rows.forall (fun c hcm _ _ => .inl hcm) (fun _ => .inr rfl) (absurd hns)
  constructor
  case owner => exact rows.forall (fun c hcm _ => h.owner c hcm) (h.owner d1 hd) (h.owner n1 hn)
  case has =>
    intro p hpm hactive
    obtain ⟨c, hcm, hcur⟩ := h.has p hpm hactive
    by_cases hcd : c = d1
    · have hpid : p.id = peerId := by
        rw [← (current_iff.1 hcur).1, hcd, hdp]
      exact ⟨_, (hc _).2 (.inr (.inr rfl)), hpid ▸ hncur⟩
    · have hcn : c ≠ n1 := by
        rintro rfl
        simp [(current_iff.1 hcur).2.2.2] at hna
      exact ⟨c, (hc c).2 (.inl ⟨hcm, hcd, hcn⟩), hcur⟩
  case one =>
    intro c hcm e hem i hci hei
    rcases oldCurrent c hcm i hci with ⟨hc0, hcd⟩ | ⟨rfl, hi⟩ <;>
      rcases oldCurrent e hem i hei with ⟨he0, hed⟩ | ⟨rfl, hi'⟩
    · exact h.one c hc0 e he0 i hci hei
    · exact (hcd (h.one c hc0 d1 hd i hci (hi' ▸ hdcur))).elim
    · exact (hed (h.one e he0 d1 hd i hei (hi ▸ hdcur))).elim
    · rfl
  case logical => exact h.logical
  case lifetime => exact rows.forall (fun c hcm _ => h.lifetime c hcm) (h.lifetime d1 hd) (h.lifetime n1 hn)
  case pending =>
    refine rows.forall (fun c hcm _ => h.pending c hcm) (fun hca => ?_) fun _ => hns
    exact absurd hca (by simp [Certificate.superseded, hda])
  case overlap =>
    intro c hcm t hcs hcr
    rcases oldSuperseded c hcm (by simp [hcs]) with hcm | rfl
    · exact h.overlap c hcm t hcs hcr
    · cases hcs; rfl
  case behind =>
    intro c hcm e hem hcs hcr hecur
    have hcs' := oldSuperseded c hcm hcs
    rcases oldCurrent e hem _ hecur with ⟨he0, hed⟩ | ⟨rfl, hpeer⟩
    · rcases hcs' with hcm | rfl
      · exact h.behind c hcm e he0 hcs hcr hecur
      · exact (hed (h.one e he0 d1 hd _ hecur (hdp.symm ▸ hdcur))).elim
    · have start : n1.activated.issuedAt = r.createdAt := hni
      rcases hcs' with hcm | rfl
      · have := settled c hcm hcs hcr hpeer
        omega
      · have hmin : (d1.superseded clock).validUntil ≤ clock + clientCertOverlapSeconds :=
          Nat.min_le_right _ _
        omega
  case last =>
    intro c hcm e hem hpeer hcs hes hcr her hcv hev
    rcases oldSuperseded c hcm hcs with hcm | rfl <;> rcases oldSuperseded e hem hes with hem | rfl
    · exact h.last c hcm e hem hpeer hcs hes hcr her hcv hev
    · have := settled c hcm hcs hcr (hpeer.trans hdp)
      omega
    · have := settled e hem hes her (hpeer.symm.trans hdp)
      omega
    · rfl
  case issued =>
    intro q' hq'
    obtain ⟨q, hq, hcreated, hexpires, hcurrent, hnew⟩ := hrs q' hq'
    rw [Store.Issued, hcreated, hexpires, hcurrent, hnew]
    exact h.still_issued kept q hq

end Issue

end SecurePeer
