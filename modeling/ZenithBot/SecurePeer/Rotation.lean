import ZenithBot.SecurePeer.Certificates

/-! Certificate rotation along every run of the secure peer store. The calls that touch peers,
    certificates or renewals are inverted into the changes of `Certificates`; the others leave the
    three tables alone. -/

namespace SecurePeer
open Lib Table

variable {δ : Type}
variable {issued : IssuedCertificate} {x : PresentedCertificate} {request : RenewalRequest δ}
  {actor identity peerId requestId teamId : String} {t : Nat} {w : World δ}

/-! ### Calls on the accounts -/

section Calls
variable {s s' : Store δ} {call : Call} {revision : Uuid → String} {peer : PeerAuthorization}

lemma decidablePairing_sameAccounts {pairingId : Uuid} {transcript : String}
    {row : Except Err (Pairing δ)}
    (h : decidablePairing s t pairingId identity transcript = .ok (s', row)) : SameAccounts s s' := by
  rcases decidablePairing_cases h with ⟨_, _, hc⟩ | ⟨_, _, rfl, _⟩
  · exact Changes.sameAccounts hc
  · exact .refl s'

lemma mem_activeLogicalPeers {p : Peer} :
    p ∈ s.activeLogicalPeers teamId identity ↔ p ∈ s.peers ∧ p.status = .active ∧
      p.teamId = teamId ∧ p.peerServerIdentity = identity := by
  unfold Store.activeLogicalPeers
  simp [mem_def, and_assoc]

/-- What one statement of a call does to the accounts, an activation apart. -/
inductive AccountStep (t : Nat) (s s' : Store δ) : Prop
  | touched (hp : SamePeers s s') (hc : s'.certificates = s.certificates)
      (hr : s'.renewals = s.renewals)
  | revoked {id : Uuid} {actor revision : String}
      (h : s.revokePeerInTransaction id t actor revision = some s')
  | enrolled {p : Peer} {c : Certificate} (h : Enrolls p c s s')
  | issued {cur c : Certificate} {r : Renewal δ} (h : Issues t cur c r s s')

/-- Any number of such statements. -/
abbrev AccountSteps (t : Nat) : Store δ → Store δ → Prop := Relation.ReflTransGen (AccountStep t)

lemma SameAccounts.step (h : SameAccounts s s') : AccountStep t s s' :=
  .touched (.of_eq h.peers) h.certificates h.renewals

lemma revokeEach_steps : ∀ (ids : List Uuid) (s : Store δ),
    AccountSteps t s (s.revokeEach ids t actor revision)
  | [], _ => .refl
  | i :: ids, s => by
    refine Relation.ReflTransGen.trans ?_
      (revokeEach_steps ids ((s.revokePeerInTransaction i t actor (revision i)).getD s))
    cases hs : s.revokePeerInTransaction i t actor (revision i) with
    | none => exact .refl
    | some s1 => exact .single (.revoked hs)

lemma approvePairing_steps {pairingId : String} {scopes : List Scope}
    {approvedBy transcript : String} {peerId : Uuid}
    {r : Except Err (List Uuid)} (h : approvePairing s call pairingId
      teamId scopes approvedBy identity transcript peerId issued revision = .ok (s', r)) :
    AccountSteps call.timestamp s s' := by
  iterate 7 obtain ⟨_, _, h⟩ := bind_ok h
  obtain ⟨⟨s1, row⟩, h1, hw⟩ := bind_ok h
  have first : AccountSteps call.timestamp s s1 := .single (decidablePairing_sameAccounts h1).step
  cases row with
  | error e => cases hw; exact first
  | ok row =>
    obtain ⟨_, _, hw⟩ := bind_ok hw
    obtain ⟨s2, h2, hw⟩ := bind_ok hw
    obtain ⟨s3, h3, hw⟩ := bind_ok hw
    cases hw
    obtain ⟨hp, hnew, hc2, hr2, _⟩ := insertPeer_ok h2
    obtain ⟨hc, hp3, hr3, _⟩ := insertCertificate_ok h3
    rw [hc2] at hc
    rw [← hp3] at hp
    refine (first.trans (revokeEach_steps _ _)).tail (.enrolled ⟨hp, hnew, hc, hr3.trans hr2,
      Certificate.current_iff.2 ⟨rfl, rfl, rfl, rfl⟩, rfl, ?_⟩)
    intro q hq hactive hteam hident
    obtain ⟨hq0, hnot⟩ := revokeEach_active _ _ hq hactive
    exact hnot (List.mem_map.2 ⟨q, mem_activeLogicalPeers.2 ⟨hq0, hactive, hteam, hident⟩, rfl⟩)

lemma recordPeerHeartbeat_steps {written : Bool}
    (h : recordPeerHeartbeat s call peerId = .ok (s', written)) : AccountSteps t s s' := by
  iterate 3 obtain ⟨_, _, h⟩ := bind_ok h
  dsimp only at h
  split at h
  · cases h
    exact .single (.touched (.update rfl fun _ => ⟨rfl, rfl, rfl, rfl⟩) rfl rfl)
  · cases h
    exact .refl

/-- What a renewal that is not refused did: nothing, or it issued a certificate for the current one
    of an active peer. -/
lemma renewPeer_cases [DecidableEq δ] {fingerprint : String}
    (h : renewPeer s call peer request issued = .ok (s', fingerprint)) :
    s' = s ∨ ∃ cur c r, Issues call.timestamp cur c r s s' := by
  unfold renewPeer at h
  split at h
  · iterate 2 obtain ⟨_, _, h⟩ := bind_ok h
    cases h
    exact .inl rfl
  · obtain ⟨_, _, h⟩ := bind_ok h
    obtain ⟨peerId, _, h⟩ := bind_ok h
    obtain ⟨cur, hcur, h⟩ := found_ok h
    obtain ⟨_, _, h⟩ := bind_ok h
    obtain ⟨p, hp, h⟩ := found_ok h
    obtain ⟨_, _, h⟩ := bind_ok h
    obtain ⟨hdue, h⟩ := refuse_ok h
    obtain ⟨_, _, h⟩ := bind_ok h
    obtain ⟨s1, h1, h⟩ := bind_ok h
    obtain ⟨s2, h2, h⟩ := bind_ok h
    cases h
    obtain ⟨hpm, rfl⟩ := find?_eq_some.1 hp
    obtain ⟨hr, hp2, hc2, hq2⟩ := insertRenewal_ok h2
    iterate 2 obtain ⟨_, _, h1⟩ := bind_ok h1
    obtain ⟨t, ht, h1⟩ := found_ok h1
    cases h1
    refine .inr ⟨cur, _, _, hp2, hq2, fun d => ?_, (insert?_eq_some ht).2, hr, rfl, rfl,
      rfl, ⟨p, hpm, rfl⟩, (find?_eq_some.1 hcur).1, rfl, rfl, ⟨rfl, rfl⟩, rfl, ?_⟩
    · rw [hc2]
      exact mem_insert? ht
    · show cur.expiresAt ≤ call.timestamp + clientCertRenewWindowSeconds
      omega

/-- What an activation that is not refused did: nothing, or it put the new certificate in the place
    of the current one, for a renewal that was issued and not yet expired. -/
lemma activateRenewal_cases (h : activateRenewal s call peer requestId = .ok s') :
    s' = s ∨ ∃ r d n peerId, r.requestId.text = requestId ∧
      Activation call.timestamp r d n peerId s s' := by
  obtain ⟨renewalId, hid, h⟩ := bind_ok h
  obtain ⟨r, hr, h⟩ := found_ok h
  obtain ⟨peerId, _, h⟩ := bind_ok h
  obtain ⟨_, _, h⟩ := bind_ok h
  split at h
  · cases h
    exact .inl rfl
  rename_i hstatus
  obtain ⟨hlive, h⟩ := refuse_ok h
  obtain ⟨d, hd, h⟩ := found_ok h
  obtain ⟨n, hn, h⟩ := found_ok h
  obtain ⟨hguard, h⟩ := refuse_ok h
  cases h
  obtain ⟨hrm, hrid⟩ := find?_eq_some.1 hr
  obtain ⟨hdm, hdfp⟩ := find?_eq_some.1 hd
  obtain ⟨hnm, hnfp⟩ := find?_eq_some.1 hn
  have hg := hguard
  simp only [not_or, not_not, Option.not_isSome_iff_eq_none] at hg
  obtain ⟨hdcur, hnp, hnr, hna⟩ := hg
  have hne : n ≠ d := by
    rintro rfl
    simp [(Certificate.current_iff.1 hdcur).2.2.2] at hna
  have hissued : r.status = .issued := by
    cases hst : r.status with
    | issued => rfl
    | activated => exact absurd hst hstatus
  refine .inr ⟨r, d, n, peerId, ?_, hrm, hissued, not_le.1 hlive, hdm, hdfp.symm, hdcur,
    hnm, hnfp.symm, ⟨hnp, hnr, hna⟩, .update rfl fun _ => ⟨rfl, rfl, rfl, rfl⟩,
    @activate_rows δ s d n peerId call.timestamp hdm hnm hne, ?_⟩
  · rw [hrid]; exact uuid_ok hid
  · intro q' hq'
    obtain ⟨q, hq, ⟨_, rfl⟩ | ⟨_, rfl⟩⟩ := updateWhere_cases (mem_deleteWhere.1 hq').1
    · exact ⟨q, hq, rfl, rfl, rfl, rfl⟩
    · exact ⟨q', hq, rfl, rfl, rfl, rfl⟩

end Calls

/-! ### Steps and runs -/

/-- The clock does not go back. -/
def Forward (w : World δ) (op : Op δ) : Prop := w.clock ≤ op.call.timestamp

instance (w : World δ) (op : Op δ) : Decidable (Forward w op) :=
  inferInstanceAs (Decidable (w.clock ≤ op.call.timestamp))

section Step
variable {s : Store δ} {P : Store δ → Prop}

/-- What holds of the store and of every outcome of a transaction holds afterwards. -/
lemma settle_inv {α : Type} {answer : α → Reply δ}
    {x : Except Err (Store δ × α)} (h0 : P s) (h : ∀ s' a, x = .ok (s', a) → P s') :
    P (settle s answer x).1 := by
  match x, h with
  | .error _, _ => exact h0
  | .ok (s', a), h => exact h s' a rfl

lemma settleUnit_inv {x : Except Err (Store δ)} (h0 : P s)
    (h : ∀ s', x = .ok s' → P s') : P (settleUnit s x).1 := by
  match x, h with
  | .error _, _ => exact h0
  | .ok s', h => exact h s' rfl

lemma perform_sameAccounts [DecidableEq δ] (h : Host δ) (op : Op δ)
    (ha : op.action.isAccount = false) : SameAccounts s (perform h s op).1 := by
  generalize hp : perform h s op = out
  obtain ⟨s', reply⟩ := out
  cases (show Performed h s op s' reply from by
    have hd := perform_performed h s op
    rwa [hp] at hd) with
  | refused => exact .refl s
  | changed hc => rw [ha] at hc; exact hc.sameAccounts
  | replayed => exact ⟨rfl, rfl, rfl⟩
  | accepted _ _ _ hacc => exact { hacc with }
  | claimed _ _ hc => exact hc.toSameAccounts
  | receipted _ hc => cases hc <;> exact ⟨rfl, rfl, rfl⟩

/-- What a call does to the accounts: any number of statements, or one activation. -/
lemma perform_accounts [DecidableEq δ] (h : Host δ) (op : Op δ) :
    AccountSteps op.call.timestamp s (perform h s op).1 ∨ ∃ r d n peerId,
      (∃ peer, op.action = .activateRenewal peer r.requestId.text) ∧
        Activation op.call.timestamp r d n peerId s (perform h s op).1 := by
  cases ha : op.action.isAccount with
  | false => exact .inl (.single (perform_sameAccounts h op ha).step)
  | true =>
    obtain ⟨call, action⟩ := op
    cases action with
    | approvePairing => exact .inl (settle_inv .refl fun _ _ h => approvePairing_steps h)
    | reconcileActiveLogicalPeers =>
      refine .inl (settle_inv .refl fun _ _ h => ?_)
      iterate 2 obtain ⟨_, _, h⟩ := bind_ok h
      cases h
      exact revokeEach_steps _ s
    | revokePeer =>
      refine .inl (settleUnit_inv .refl fun _ h => ?_)
      iterate 9 obtain ⟨_, _, h⟩ := bind_ok h
      exact .single (.revoked (getOr_ok h))
    | revokePeerForSelf =>
      refine .inl (settleUnit_inv .refl fun _ h => ?_)
      iterate 5 obtain ⟨_, _, h⟩ := bind_ok h
      split at h
      · exact .single (.revoked (getOr_ok h))
      · cases h
        exact .refl
    | recordPeerHeartbeat => exact .inl (settle_inv .refl fun _ _ h => recordPeerHeartbeat_steps h)
    | renewPeer =>
      refine .inl (settle_inv .refl fun _ _ h => ?_)
      rcases renewPeer_cases h with rfl | ⟨_, _, _, hi⟩
      · exact .refl
      · exact .single (.issued hi)
    | activateRenewal peer requestId =>
      refine settleUnit_inv (P := fun s' => AccountSteps call.timestamp s s' ∨ ∃ r d n peerId,
        (∃ p, Action.activateRenewal peer requestId = .activateRenewal p r.requestId.text) ∧
          Activation call.timestamp r d n peerId s s') (.inl .refl) fun s' h => ?_
      rcases activateRenewal_cases h with rfl | ⟨r, d, n, peerId, rfl, hact⟩
      · exact .inl .refl
      · exact .inr ⟨r, d, n, peerId, ⟨peer, rfl⟩, hact⟩
    | _ => cases ha

lemma AccountStep.certsOk {s' : Store δ} (h : AccountStep t s s') (hs : CertsOk s t) :
    CertsOk s' t := by
  cases h with
  | touched hp hc hr => exact hs.frame le_rfl hp hc hr
  | revoked h => exact hs.revokePeer h
  | enrolled h => exact hs.enroll h
  | issued h => exact hs.issue h

/-- STEP: every call keeps certificates in order. -/
theorem perform_certsOk [DecidableEq δ] (h : Host δ) (op : Op δ)
    (hs : CertsOk s op.call.timestamp) : CertsOk (perform h s op).1 op.call.timestamp := by
  rcases perform_accounts h op with hsteps | ⟨_, _, _, _, _, hact⟩
  · exact hsteps.rec hs fun _ hc ih => hc.certsOk ih
  · exact hs.activate hact

/-- STEP: a call at a later time keeps certificates in order. -/
theorem step_certsOk [DecidableEq δ] (h : Host δ) (w : World δ) (op : Op δ) (hf : Forward w op)
    (hw : CertsOk w.store w.clock) : CertsOk (step h w op).store (step h w op).clock :=
  perform_certsOk h op (hw.later hf)

lemma new_certsOk (available : Bool) : CertsOk (World.new (δ := δ) available).store 0 := by
  constructor <;> rintro _ ⟨⟩

/-- RUN: in every state reached with a clock that does not go back, certificates are in order. -/
theorem run_certsOk [DecidableEq δ] (h : Host δ) (available : Bool) (ops : List (Op δ))
    (hf : Along (step h) Forward (World.new available) ops) :
    CertsOk (run (step h) (World.new available) ops).store
      (run (step h) (World.new available) ops).clock :=
  run_inv_along (step_certsOk h) ops _ hf
    (new_certsOk available)

end Step

/-! ### Which certificates are accepted -/

section Accepted
variable {s s' : Store δ} {clock : Nat}
variable {a : PeerAuthorization} {call : Call}

lemma authenticatePeer_ok {allow : Bool} (h : authenticatePeer s call x allow = .ok a) :
    ∃ c ∈ s.certificates, ∃ p ∈ s.peers, c.fingerprint = x.fingerprint ∧ p.id = c.peerId ∧
      a.peerId = some p.id ∧ p.status = .active ∧ c.revokedAt = none ∧
      call.timestamp < c.validUntil ∧ (c.activationRequired = true → allow = true) := by
  iterate 2 obtain ⟨_, _, h⟩ := bind_ok h
  obtain ⟨c, hc, h⟩ := found_ok h
  obtain ⟨p, hp, h⟩ := found_ok h
  obtain ⟨_, _, h⟩ := bind_ok h
  obtain ⟨_, hg, h⟩ := bind_ok h
  obtain ⟨_, _, h⟩ := bind_ok h
  cases h
  obtain ⟨hcm, hfp⟩ := find?_eq_some.1 hc
  obtain ⟨hpm, hid⟩ := find?_eq_some.1 hp
  have hg := refuseIf_ok hg
  simp only [not_or, not_and, not_not, Option.not_isSome_iff_eq_none, not_le] at hg
  exact ⟨c, hcm, p, hpm, hfp, hid, rfl, hg.1, hg.2.1, hg.2.2.1, hg.2.2.2⟩

/-- A certificate that is superseded is good until the end of its overlap, or of its own life. -/
structure Overlapping (c : Certificate) (id : Uuid) (now : Nat) : Prop where
  peer : c.peerId = id
  good : c.revokedAt = none
  superseded : ∃ t, c.supersededAt = some t ∧
    now < min c.expiresAt (t + clientCertOverlapSeconds)

lemma CertsOk.accepted (hs : CertsOk s clock) (h : authenticatePeer s call x false = .ok a) :
    ∃ c ∈ s.certificates, ∃ id, c.fingerprint = x.fingerprint ∧ a.peerId = some id ∧
      (c.current id = true ∨ Overlapping c id call.timestamp) := by
  obtain ⟨c, hc, p, _, hfp, hid, hpeer, _, hgood, huntil, hact⟩ := authenticatePeer_ok h
  refine ⟨c, hc, p.id, hfp, hpeer, ?_⟩
  have hact : c.activationRequired = false := by simpa using hact
  cases hsup : c.supersededAt with
  | none => exact .inl (Certificate.current_iff.2 ⟨hid.symm, hsup, hgood, hact⟩)
  | some t =>
    rw [hs.overlap c hc t hsup hgood] at huntil
    exact .inr ⟨hid.symm, hgood, t, hsup, huntil⟩

lemma CertsOk.overlapping_unique (hs : CertsOk s clock) {now : Nat} (hnow : clock ≤ now)
    {c d : Certificate} (hc : c ∈ s.certificates) (hd : d ∈ s.certificates) {id : Uuid}
    (hco : Overlapping c id now) (hdo : Overlapping d id now) : c = d := by
  obtain ⟨hcp, hcr, t, hct, hcv⟩ := hco
  obtain ⟨hdp, hdr, u, hdu, hdv⟩ := hdo
  rw [← hs.overlap c hc t hct hcr] at hcv
  rw [← hs.overlap d hd u hdu hdr] at hdv
  exact hs.last c hc d hd (hcp.trans hdp.symm) (by rw [hct]; nofun) (by rw [hdu]; nofun) hcr hdr
    (hnow.trans_lt hcv) (hnow.trans_lt hdv)

end Accepted

/-! ### Renewals that come to nothing -/

section Abandoned
variable {s s' : Store δ} {f : String}

/-- A certificate more that is not activated changes no answer. -/
lemma authenticatePeer_issue {cur c : Certificate} {r : Renewal δ} (hi : Issues t cur c r s s')
    (call : Call) (x : PresentedCertificate) :
    authenticatePeer s' call x false = authenticatePeer s call x false := by
  obtain ⟨hp, hq, hc, hnew, _, hact, _⟩ := hi
  by_cases hx : x.fingerprint = c.fingerprint
  · have hfound : s'.certificates.find? x.fingerprint = some c :=
      find?_eq_some.2 ⟨(hc c).2 (.inr rfl), hx.symm⟩
    have hmissing : s.certificates.find? x.fingerprint = none := by
      refine Option.eq_none_iff_forall_ne_some.2 fun d hd => ?_
      obtain ⟨hd, hfp⟩ := find?_eq_some.1 hd
      exact hnew d hd (hfp.trans hx)
    unfold authenticatePeer
    rw [hfound, hmissing, hp, hq]
    refine bind_congr fun _ => bind_congr fun _ => ?_
    -- both end in the refusal of an unknown certificate
    show (getOr (s.peers.find? c.peerId) peerRevoked >>= _) = .error peerRevoked
    cases s.peers.find? c.peerId with
    | none => rfl
    | some p =>
      show (getOr (s.pairings.find? p.pairingId) peerRevoked >>= _) = .error peerRevoked
      cases s.pairings.find? p.pairingId with
      | none => rfl
      | some q => simp only [hact]; simp; rfl
  · have hfind : s'.certificates.find? x.fingerprint = s.certificates.find? x.fingerprint := by
      refine Option.ext fun d => ?_
      rw [find?_eq_some, find?_eq_some, hc]
      refine and_congr_left fun hfp => or_iff_left ?_
      rintro rfl
      exact hx hfp.symm
    unfold authenticatePeer
    rw [hfind, hp, hq]

def Pending (s : Store δ) (f : String) : Prop :=
  ∃ c ∈ s.certificates, c.fingerprint = f ∧ c.activationRequired = true

lemma Pending.refused (hp : Pending s f) (call : Call) (hx : x.fingerprint = f)
    (a : PeerAuthorization) : authenticatePeer s call x false ≠ .ok a := by
  intro h
  obtain ⟨c, hc, hfp, hact⟩ := hp
  obtain ⟨d, hd, _, _, hfp', _, _, _, _, _, hallow⟩ := authenticatePeer_ok h
  obtain rfl : d = c := s.certificates.eq_of_key hd hc (by rw [hfp, ← hx]; exact hfp')
  exact Bool.false_ne_true (hallow hact)

lemma Pending.mono (hc : ∀ c ∈ s.certificates, c ∈ s'.certificates) (hp : Pending s f) :
    Pending s' f := by
  obtain ⟨c, hcm, h⟩ := hp
  exact ⟨c, hc c hcm, h⟩

lemma AccountStep.pending (h : AccountStep t s s') (hp : Pending s f) : Pending s' f := by
  cases h with
  | touched _ hc => exact hp.mono (by rw [hc]; exact fun _ => id)
  | revoked hr =>
    rw [revokePeerInTransaction_some hr]
    obtain ⟨c, hc, hkept⟩ := hp
    exact exists_updateWhere hc (fun _ => hkept) fun _ => hkept
  | enrolled h | issued h => exact hp.mono fun c hc => (h.certificates c).2 (.inl hc)

/-- The call activates the renewal that waits with the certificate, in its time. -/
def Activates (s : Store δ) (op : Op δ) (f : String) : Prop :=
  ∃ r ∈ s.renewals, r.newFingerprint = f ∧ r.status = .issued ∧ op.call.timestamp < r.expiresAt ∧
    ∃ peer, op.action = .activateRenewal peer r.requestId.text

/-- STEP: a certificate waits until its own renewal is activated. -/
theorem perform_pending [DecidableEq δ] (h : Host δ) (op : Op δ) (ha : ¬Activates s op f)
    (hp : Pending s f) : Pending (perform h s op).1 f := by
  rcases perform_accounts h op with hsteps | ⟨r, d, n, _, hop, hact⟩
  · exact hsteps.rec hp fun _ hc ih => hc.pending ih
  · obtain ⟨c, hcm, hfp, hwaits⟩ := hp
    have hcd : c ≠ d := by
      rintro rfl
      exact Bool.false_ne_true ((Certificate.current_iff.1 hact.old_current).2.2.2.symm.trans hwaits)
    have hcn : c ≠ n := by
      rintro rfl
      exact ha ⟨r, hact.renewal, hact.new_named.trans hfp, hact.issued, hact.live, hop⟩
    exact ⟨c, (hact.certificates c).2 (.inl ⟨hcm, hcd, hcn⟩), hfp, hwaits⟩

/-- RUN: a certificate whose renewal is never activated in time waits for good. -/
theorem run_pending [DecidableEq δ] (h : Host δ) (hp : Pending w.store f)
    (more : List (Op δ)) (ha : Along (step h) (fun v op => ¬Activates v.store op f) w more) :
    Pending (run (step h) w more).store f :=
  run_inv_along (P := fun v => Pending v.store f) (fun _ op hno hv => perform_pending h op hno hv)
    more w ha hp

end Abandoned

/-! ### Rotation -/

/-- What holds of the certificates in a state: every active peer has one that is current, there is
    one active peer of a team and identity, and no more than the current certificate of a peer and
    one in its overlap are accepted. -/
structure Rotation (w : World δ) : Prop where
  current : ∀ p ∈ w.store.peers, p.status = .active →
    ∃! c, c ∈ w.store.certificates ∧ c.current p.id = true
  active : ∀ p ∈ w.store.peers, ∀ q ∈ w.store.peers, p.status = .active → q.status = .active →
    p.teamId = q.teamId → p.peerServerIdentity = q.peerServerIdentity → p = q
  accepted : ∀ (call : Call) (x : PresentedCertificate) (a : PeerAuthorization),
    authenticatePeer w.store call x false = .ok a →
      ∃ c ∈ w.store.certificates, ∃ id, c.fingerprint = x.fingerprint ∧ a.peerId = some id ∧
        (c.current id = true ∨ Overlapping c id call.timestamp)
  overlapping : ∀ now ≥ w.clock, ∀ c ∈ w.store.certificates, ∀ d ∈ w.store.certificates, ∀ id,
    Overlapping c id now → Overlapping d id now → c = d
  two : ∀ call : Call, w.clock ≤ call.timestamp → ∀ (x y z : PresentedCertificate)
    (a b c : PeerAuthorization), authenticatePeer w.store call x false = .ok a →
    authenticatePeer w.store call y false = .ok b → authenticatePeer w.store call z false = .ok c →
    a.peerId = b.peerId → a.peerId = c.peerId →
    x.fingerprint = y.fingerprint ∨ x.fingerprint = z.fingerprint ∨ y.fingerprint = z.fingerprint

/-- What a renewal changes before it is activated: nothing that is accepted, however it ends. -/
structure Harmless (h : Host δ) [DecidableEq δ] (w : World δ) : Prop where
  issued : ∀ call peer request issued (now : Call) (x : PresentedCertificate),
    authenticatePeer (step h w ⟨call, .renewPeer peer request issued⟩).store now x false =
      authenticatePeer w.store now x false
  rejected : ∀ call peer requestId e,
    (perform h w.store ⟨call, .activateRenewal peer requestId⟩).2 = .refused e →
      (step h w ⟨call, .activateRenewal peer requestId⟩).store = w.store
  expired : ∀ call peer requestId, (∀ r ∈ w.store.renewals, r.requestId.text = requestId →
    r.status = .issued → r.expiresAt ≤ call.timestamp) →
      (step h w ⟨call, .activateRenewal peer requestId⟩).store = w.store
  waiting : ∀ f, Pending w.store f → ∀ more,
    Along (step h) (fun v op => ¬Activates v.store op f) w more →
      ∀ (call : Call) (x : PresentedCertificate) (a : PeerAuthorization), x.fingerprint = f →
        authenticatePeer (run (step h) w more).store call x false ≠ .ok a

lemma CertsOk.rotation (hw : CertsOk w.store w.clock) : Rotation w where
  current p hp hactive := by
    obtain ⟨c, hc, hcur⟩ := hw.has p hp hactive
    exact ⟨c, ⟨hc, hcur⟩, fun d ⟨hd, hdcur⟩ => hw.one d hd c hc p.id hdcur hcur⟩
  active := hw.logical
  accepted _ _ _ h := hw.accepted h
  overlapping _ hnow _ hc _ hd _ := hw.overlapping_unique hnow hc hd
  two call hnow x y z a b c hx hy hz hab hac := by
    obtain ⟨c1, h1, i, hx1, hi, k1⟩ := hw.accepted hx
    obtain ⟨c2, h2, j, hy2, hj, k2⟩ := hw.accepted hy
    obtain ⟨c3, h3, k, hz3, hk, k3⟩ := hw.accepted hz
    obtain rfl : i = j := Option.some.inj (by rw [← hi, hab, hj])
    obtain rfl : i = k := Option.some.inj (by rw [← hi, hac, hk])
    rw [← hx1, ← hy2, ← hz3]
    -- two of the three are of the same kind
    rcases k1 with k1 | k1 <;> rcases k2 with k2 | k2 <;> rcases k3 with k3 | k3
    · exact .inl (congrArg _ (hw.one c1 h1 c2 h2 i k1 k2))
    · exact .inl (congrArg _ (hw.one c1 h1 c2 h2 i k1 k2))
    · exact .inr (.inl (congrArg _ (hw.one c1 h1 c3 h3 i k1 k3)))
    · exact .inr (.inr (congrArg _ (hw.overlapping_unique hnow h2 h3 k2 k3)))
    · exact .inr (.inr (congrArg _ (hw.one c2 h2 c3 h3 i k2 k3)))
    · exact .inr (.inl (congrArg _ (hw.overlapping_unique hnow h1 h3 k1 k3)))
    · exact .inl (congrArg _ (hw.overlapping_unique hnow h1 h2 k1 k2))
    · exact .inl (congrArg _ (hw.overlapping_unique hnow h1 h2 k1 k2))

lemma harmless [DecidableEq δ] (h : Host δ) (w : World δ) : Harmless h w where
  issued call peer request issued now x := by
    refine settle_inv (P := fun s => authenticatePeer s now x false =
      authenticatePeer w.store now x false) rfl fun s' _ hr => ?_
    rcases renewPeer_cases hr with rfl | ⟨_, _, _, hi⟩
    · rfl
    · exact authenticatePeer_issue hi now x
  rejected call peer requestId e := by
    show (settleUnit w.store _).2 = _ → (settleUnit w.store _).1 = _
    cases activateRenewal w.store call peer requestId with
    | error => exact fun _ => rfl
    | ok => intro hr; cases hr
  expired call peer requestId hexp := by
    refine settleUnit_inv (P := fun s => s = w.store) rfl fun s' hs' => ?_
    rcases activateRenewal_cases hs' with rfl | ⟨r, _, _, _, hid, hact⟩
    · rfl
    · exact absurd (hexp r hact.renewal hid hact.issued) (not_le.2 hact.live)
  waiting _ hp more ha call x a hx := (run_pending h hp more ha).refused call hx a

/-- ROTATION: in every run whose clock does not go back, certificates rotate as meant, and a renewal
    that is rejected, expires or is never activated changes nothing that is accepted. -/
theorem certificate_rotation [DecidableEq δ] (h : Host δ) (available : Bool) (ops : List (Op δ))
    (hf : Along (step h) Forward (World.new available) ops) :
    Rotation (run (step h) (World.new available) ops) ∧
      Harmless h (run (step h) (World.new available) ops) :=
  ⟨(run_certsOk h available ops hf).rotation, harmless h _⟩

namespace Sample

/-- The peer's certificate of 30 days is due. -/
def dueAt : Nat := 1001 + clientCertTtlSeconds - 1000

/-- The peer renews: one renewal is abandoned, the next one activated. -/
def renewed : List (Op String) := setUp ++
  [⟨call (dueAt - 90000), .renewPeer peer ⟨uuid6, dueAt - 90000, "key2", "first"⟩ ⟨"f2", "02"⟩⟩,
   ⟨call dueAt, .renewPeer peer ⟨uuid7, dueAt, "key3", "second"⟩ ⟨"f3", "03"⟩⟩,
   ⟨call (dueAt + 1), .activateRenewal { peer with certificateFingerprint := "f3" } (uuidText '7')⟩]

end Sample

/-- The rule at a peer that abandoned one renewal and activated the next: the first certificate is in
    its overlap, the third is current, and the second still waits. -/
theorem certificate_rotation_renewed :
    Along (step Sample.host) Forward (World.new true) Sample.renewed ∧
      (run (step Sample.host) (World.new true) Sample.renewed).store.certificates.rows.map
        (fun c => (c.fingerprint, c.activationRequired, c.supersededAt)) =
        [(Sample.fingerprint, false, some (Sample.dueAt + 1)), ("f2", true, none), ("f3", false, none)] ∧
      Rotation (run (step Sample.host) (World.new true) Sample.renewed) :=
  have hf : Along (step Sample.host) Forward (World.new true) Sample.renewed := by decide +kernel
  ⟨hf, by decide +kernel, (certificate_rotation Sample.host true Sample.renewed hf).1⟩

end SecurePeer
