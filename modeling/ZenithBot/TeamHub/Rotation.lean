import ZenithBot.TeamHub.SessionChange

/-! Refresh-token rotation over whole runs of the hub. Every operation is a composition of steps of
    the directory with the three kinds of transaction on sessions and tokens, so it keeps the
    invariant and only moves forward; the main result reads the claims of the protocol off the
    invariant at the end of a run. -/

namespace TeamHub
open Lib Directory

variable {δ : Type}

namespace Hub

variable {principalId sessionId : String} {t : Int} {x : Session} {q : BootstrapRequest}

/-! ### The operations -/

section
variable {τ : Int} {s s' : Hub δ} {claimId : String}

lemma audits_advances (h : s.onDir (fun d => d.auditPrincipalTeams principalId τ) = .ok s') :
    Advances τ s s' :=
  onDir_advances (fun _ h => auditPrincipalTeams_edited h) h

lemma audit_advances {team actor : String}
    (h : s.onDir (fun d => d.audit team actor τ) = .ok s') : Advances τ s s' :=
  onDir_advances (fun _ h => audit_edited h) h

lemma localControl_advances {team membershipId : String}
    (h : s.onDir (fun d => d.localControlPrincipal team membershipId τ) = .ok s') :
    Advances τ s s' :=
  onDir_advances (fun _ h => servicePrincipal_edited h) h

lemma replayed_advances (h : s.replayed x τ = .ok s') : Advances τ s s' := by
  obtain ⟨_, h1, h2⟩ := bind_ok h
  exact (revokeOne_revokes h1).advances.trans (audits_advances h2)

lemma revokeClaims_advances (h : s.revokeClaims principalId t = .ok s') : Advances τ s s' := by
  obtain ⟨_, _, h⟩ := bind_ok h
  cases h
  exact .of_edited .refl rfl rfl

lemma consumeClaim_advances (h : s.consumeClaim claimId sessionId t = .ok s') :
    Advances τ s s' := by
  iterate 2 obtain ⟨_, _, h⟩ := bind_ok h
  cases h
  exact .of_edited .refl rfl rfl

lemma consumeBootstrap_edited {d d' : Directory δ}
    (h : consumeBootstrap claimId principalId t d = .ok d') : d.Edited τ d' := by
  iterate 2 obtain ⟨_, _, h⟩ := bind_ok h
  cases h
  exact ⟨fun p hp _ => ⟨p, hp, rfl, rfl⟩, fun _ h => .inl h⟩

lemma bootstrapPersonalTeam_advances {texts : Texts δ}
    (h : s.bootstrapPersonalTeam texts q τ = .ok s') : Advances τ s s' := by
  iterate 2 obtain ⟨_, _, h⟩ := bind_ok h
  obtain ⟨s1, h1, h⟩ := bind_ok h
  obtain ⟨s2, h2, h3⟩ := bind_ok h
  have founder : Advances τ s s1 :=
    onDir_advances (fun _ h => insertPrincipal_edited h) h1
  have team : Advances τ s1 s2 := by
    cases h2
    exact .of_edited ⟨fun p hp _ => ⟨p, hp, rfl, rfl⟩, fun _ h => .inl h⟩ rfl rfl
  have owner : Advances τ s2 s' :=
    onDir_advances (fun _ h => insertMembership_edited h) h3
  exact (founder.trans team).trans owner

end

section
variable [DecidableEq δ] {texts : Texts δ} {τ : Int} {s s' : Hub δ}
variable {replacement replacementId token : String} {claims : AccessClaims} {r : RefreshToken δ}
  {expires : Int} {new : String} {v : Verdict}

/-- How a call of `refresh` that commits went. -/
lemma refresh_cases (h : s.refresh texts token replacement replacementId τ = .ok (s', v)) :
    ∃ r x, r ∈ s.tokens ∧ x ∈ s.sessions ∧ x.id = r.deviceSessionId ∧
      tokenHash texts token = some r.tokenHash ∧
      ((v = .replay ∧ (r.consumedAt.isSome = true ∨ r.generation ≠ x.refreshGeneration) ∧
          s.replayed x τ = .ok s') ∨
        (v = .bundle x.id replacement x.expiresAt ∧ r.consumedAt = none ∧
          ∃ q, Exchanges x r q τ s s')) := by
  obtain ⟨digest, hdigest, h⟩ := found_ok h
  obtain ⟨r, hr, h⟩ := found_ok h
  obtain ⟨x, hx, h⟩ := bind_ok h
  obtain ⟨p, hp, h⟩ := bind_ok h
  replace hx := Table.find?_eq_some.1 (getOr_ok hx)
  have hmem : r ∈ s.tokens := List.mem_of_find?_eq_some hr
  have hhash : r.tokenHash = digest := by simpa using List.find?_some hr
  refine ⟨r, x, hmem, hx.1, hx.2, hhash ▸ hdigest, ?_⟩
  split at h
  · rename_i hreplay
    obtain ⟨s1, h1, h⟩ := bind_ok h
    cases h
    exact .inl ⟨rfl, hreplay, h1⟩
  · rename_i hfirst
    obtain ⟨s1, h1, h⟩ := bind_ok h
    cases h
    simp only [not_or, Bool.not_eq_true, Option.isSome_eq_false_iff, Option.isNone_iff_eq_none,
      Decidable.not_not] at hfirst
    obtain ⟨q, hq⟩ := rotate_exchanges hx.1 hmem hx.2.symm hfirst.1 hfirst.2 h1
    exact .inr ⟨rfl, hfirst.1, q, hq⟩

lemma refresh_advances
    (h : s.refresh texts token replacement replacementId τ = .ok (s', v)) :
    Advances τ s s' := by
  obtain ⟨r, x, _, _, _, _, ⟨_, _, hr⟩ | ⟨_, _, q, hq⟩⟩ := refresh_cases h
  · exact replayed_advances hr
  · exact hq.advances

lemma revokeAccess_advances : Advances τ s (s.revokeAccess texts claims t) := by
  unfold revokeAccess
  split
  · exact .of_edited .refl rfl rfl
  · split
    · exact .of_edited .refl rfl rfl
    · exact .of_edited .refl rfl rfl

lemma revokeSession_advances (h : s.revokeSession texts claims token τ = .ok s') :
    Advances τ s s' := by
  iterate 3 obtain ⟨_, _, h⟩ := bind_ok h
  obtain ⟨_, h1, h2⟩ := bind_ok h
  exact ((revokeOne_revokes h1).advances.trans revokeAccess_advances).trans (audits_advances h2)

lemma revokeDeviceSession_advances {id : String}
    (h : s.revokeDeviceSession texts claims id τ = .ok s') : Advances τ s s' := by
  iterate 3 obtain ⟨_, _, h⟩ := bind_ok h
  obtain ⟨_, h1, h2⟩ := bind_ok h
  exact (revokeOne_revokes h1).advances.trans (audits_advances h2)

lemma insertClaim_advances {c : RecoveryClaim δ} (h : s.insertClaim c = .ok s') :
    Advances τ s s' := by
  iterate 3 obtain ⟨_, _, h⟩ := bind_ok h
  cases h
  exact .of_edited .refl rfl rfl

/-- A recovery first revokes every session of the principal, in a state with the same sessions. -/
lemma issueDeviceRecovery_revokes {q : RecoveryRequest}
    (h : s.issueDeviceRecovery texts q τ = .ok (s', principalId)) :
    ∃ s1, Revokes (fun x => x.humanPrincipalId = principalId) τ s s1 ∧
      Advances τ s1 s' := by
  iterate 2 obtain ⟨_, _, h⟩ := bind_ok h
  obtain ⟨m, _, h⟩ := bind_ok h
  obtain ⟨s1, h1, h⟩ := bind_ok h
  obtain ⟨s2, h2, h⟩ := bind_ok h
  obtain ⟨_, _, h⟩ := bind_ok h
  obtain ⟨s3, h3, h⟩ := bind_ok h
  obtain ⟨s4, h4, h⟩ := bind_ok h
  obtain ⟨s5, h5, h⟩ := bind_ok h
  cases h
  exact ⟨s1, revokeAllOf_revokes h1, (((revokeClaims_advances h2).trans
    (insertClaim_advances h3)).trans (localControl_advances h4)).trans (audit_advances h5)⟩

lemma redeemDeviceRecovery_advances {proof label membershipId : String} {new : NewSession}
    (h : s.redeemDeviceRecovery texts proof label new membershipId τ = .ok s') :
    Advances τ s s' := by
  iterate 2 obtain ⟨_, _, h⟩ := bind_ok h
  obtain ⟨claim, _, h⟩ := bind_ok h
  obtain ⟨_, _, h⟩ := bind_ok h
  obtain ⟨s1, h1, h⟩ := bind_ok h
  obtain ⟨s2, h2, h⟩ := bind_ok h
  obtain ⟨s3, h3, h⟩ := bind_ok h
  obtain ⟨s4, h4, h5⟩ := bind_ok h
  exact ((((revokeAllOf_revokes h1).advances.trans (createSession_advances h2)).trans
    (consumeClaim_advances h3)).trans (localControl_advances h4)).trans (audit_advances h5)

lemma acceptInvitation_advances {q : InviteRequest} {email : String} {digest : δ}
    (h : s.acceptInvitation texts q email digest τ = .ok s') : Advances τ s s' := by
  obtain ⟨i, _, h⟩ := bind_ok h
  iterate 3 obtain ⟨_, _, h⟩ := bind_ok h
  obtain ⟨s1, h1, h⟩ := bind_ok h
  obtain ⟨s2, h2, h⟩ := bind_ok h
  obtain ⟨s3, h3, h4⟩ := bind_ok h
  have joined : Advances τ s s1 :=
    onDir_advances (fun _ h => insertPrincipal_edited h) h1
  have redeemed : Advances τ s1 s2 :=
    onDir_advances (fun _ h => redeemInvitation_edited h) h2
  exact ((joined.trans redeemed).trans (createSession_advances h3)).trans (audit_advances h4)

lemma redeemInvite_advances {q : InviteRequest}
    (h : s.redeemInvite texts q τ = .ok s') : Advances τ s s' := by
  iterate 2 obtain ⟨_, _, h⟩ := bind_ok h
  cases hr : s.acceptInvitation texts q _ _ τ with
  | error e => rw [hr] at h; cases h
  | ok s1 =>
    rw [hr] at h
    cases h
    exact acceptInvitation_advances hr

lemma bootstrap_advances {host : Host}
    (h : s.bootstrap texts host q τ = .ok s') : Advances τ s s' := by
  iterate 2 obtain ⟨_, _, h⟩ := bind_ok h
  obtain ⟨claim, _, h⟩ := bind_ok h
  obtain ⟨_, _, h⟩ := bind_ok h
  obtain ⟨s1, h1, h⟩ := bind_ok h
  obtain ⟨s2, h2, h⟩ := bind_ok h
  obtain ⟨s3, h3, h⟩ := bind_ok h
  obtain ⟨s4, h4, h⟩ := bind_ok h
  obtain ⟨s5, h5, h6⟩ := bind_ok h
  have services : Advances τ s1 s3 := (localControl_advances h2).trans
    (onDir_advances (fun _ h => servicePrincipal_edited h) h3)
  have consumed : Advances τ s3 s4 :=
    onDir_advances (fun _ h => consumeBootstrap_edited h) h4
  exact ((((bootstrapPersonalTeam_advances h1).trans services).trans consumed).trans
    (createSession_advances h5)).trans (audit_advances h6)

/-! ### Steps and runs -/

lemma perform_advances {op : Op δ} (h : s.perform texts op = .ok s') :
    Advances op.timestamp s s' := by
  cases op with
  | bootstrap host q t => exact bootstrap_advances h
  | redeemInvite q t => exact redeemInvite_advances h
  | refresh token replacement id t =>
    obtain ⟨⟨s1, v⟩, h1, h⟩ := bind_ok h
    cases h
    exact refresh_advances h1
  | revokeSession claims token t => exact revokeSession_advances h
  | revokeDeviceSession claims id t => exact revokeDeviceSession_advances h
  | issueDeviceRecovery q t =>
    obtain ⟨⟨s1, p⟩, h1, h⟩ := bind_ok h
    cases h
    obtain ⟨s2, hr, ha⟩ := issueDeviceRecovery_revokes h1
    exact hr.advances.trans ha
  | redeemDeviceRecovery proof label new m t => exact redeemDeviceRecovery_advances h
  | elsewhere dir t =>
    simp only [perform] at h
    split at h
    · rename_i hd
      cases h
      exact .of_edited hd rfl rfl
    · cases h

/-- STEP: every operation keeps the invariant and only moves forward. -/
theorem step_advances (texts : Texts δ) (s : Hub δ) (op : Op δ) :
    Advances op.timestamp s (s.step texts op) := by
  unfold step
  split
  · rename_i h
    exact perform_advances h
  · exact .of_edited .refl rfl rfl

/-- RUN: the invariant holds in every state reached. -/
theorem run_sound (texts : Texts δ) (ops : List (Op δ)) : ∀ {s : Hub δ}, s.Sound →
    (run (step texts) s ops).Sound :=
  fun hs => run_inv (fun s op => (step_advances texts s op).sound) ops _ hs

/-- RUN: a run only moves forward. -/
theorem run_later (texts : Texts δ) (ops : List (Op δ)) (s : Hub δ) :
    Later s (run (step texts) s ops) :=
  run_rel (P := fun _ => True) Later.refl (fun _ _ _ => Later.trans) (fun _ _ _ => trivial)
    (fun s op _ => (step_advances texts s op).later) ops s trivial

/-- RUN: times on record stay within those of the operations. -/
theorem run_within (texts : Texts δ) {now : Int} : ∀ (ops : List (Op δ)) {s : Hub δ},
    (∀ op ∈ ops, op.timestamp ≤ now) → Within now s → Within now (run (step texts) s ops)
  | [], _, _, hw => hw
  | op :: ops, s, hle, hw =>
    run_within texts ops (fun o ho => hle o (List.mem_cons_of_mem _ ho))
      ((step_advances texts s op).within now (hle op List.mem_cons_self) hw)

/-! ### What the invariant gives -/

/-- Neither a refresh token nor an access token of the session is accepted. -/
def Refused (texts : Texts δ) (s : Hub δ) (sessionId : String) : Prop :=
  (∀ token replacement replacementId t s' new expires,
    s.refresh texts token replacement replacementId t ≠ .ok (s', .bundle sessionId new expires)) ∧
  ∀ claims t view, claims.authKind = .human → claims.sessionId = sessionId →
    s.requireSession texts claims t ≠ .ok view

lemma refused_of_revoked (hx : x ∈ s.sessions) (hrevoked : x.revokedAt.isSome = true) :
    Refused texts s x.id := by
  constructor
  · intro token replacement replacementId t s' new expires h
    obtain ⟨r, y, hr, hy, hid, _, ⟨hv, _⟩ | ⟨hv, _, q, hq⟩⟩ := refresh_cases h
    · cases hv
    · injection hv with hyx
      have same := s.sessions.eq_of_key hy hx hyx.symm
      have hopen := hq.was.2.2.2.2.1
      simp [same ▸ hopen] at hrevoked
  · intro claims t view hkind hsession h
    have hv := getOr_ok h
    simp only [hkind] at hv
    obtain ⟨y, hy, hv⟩ := Option.bind_eq_some_iff.1 hv
    obtain ⟨p, _, hv⟩ := Option.bind_eq_some_iff.1 hv
    split at hv
    · rename_i hok
      have same := s.sessions.eq_of_key (Table.find?_mem hy) hx
        ((Table.find?_key hy).trans hsession)
      simp [same ▸ hok.2.1] at hrevoked
    · cases hv

lemma run_refused (hx : x ∈ s.sessions) (hrevoked : x.revokedAt.isSome = true) (ops : List (Op δ)) :
    Refused texts (run (step texts) s ops) x.id := by
  obtain ⟨x', hx', hid, _, _, hr⟩ := (run_later texts ops s).session x hx
  exact hid ▸ refused_of_revoked hx' (hr hrevoked)

/-- After an exchange the token is on record as consumed, with its session. -/
lemma refresh_consumed (h : s.refresh texts token replacement
      replacementId τ = .ok (s', .bundle sessionId new expires)) :
    ∃ r ∈ s'.tokens, tokenHash texts token = some r.tokenHash ∧ r.consumedAt.isSome = true ∧
      r.deviceSessionId = sessionId := by
  obtain ⟨r, x, hr, hx, hid, hh, ⟨hv, _⟩ | ⟨hv, _, q, hq⟩⟩ := refresh_cases h
  · cases hv
  · injection hv with hsession
    exact ⟨_, (hq.tokens _).2 (.inr (.inr rfl)), hh, rfl, hid.symm.trans hsession.symm⟩

lemma Sound.not_exchanged (hs : s.Sound) (hr : r ∈ s.tokens) (hc : r.consumedAt.isSome = true)
    (hh : tokenHash texts token = some r.tokenHash) :
    s.refresh texts token replacement replacementId τ ≠
      .ok (s', .bundle sessionId new expires) := by
  intro h
  obtain ⟨a, x, ha, _, _, ha', ⟨hv, _⟩ | ⟨_, hnone, _⟩⟩ := refresh_cases h
  · cases hv
  · have same := hs.hash a ha r hr (Option.some.inj (ha'.symm.trans hh))
    simp [same ▸ hnone] at hc

lemma Sound.tokenByHash (hs : s.Sound) (hr : r ∈ s.tokens) :
    s.tokenByHash r.tokenHash = some r := by
  unfold Hub.tokenByHash
  cases hf : s.tokens.rows.find? fun a => a.tokenHash = r.tokenHash with
  | none => simpa using List.find?_eq_none.1 hf r hr
  | some a =>
    have heq : a.tokenHash = r.tokenHash := by simpa using List.find?_some hf
    rw [hs.hash a (List.mem_of_find?_eq_some hf) r hr heq]

/-- REPLAY: a token on record as consumed, presented when no time on record is later than the
    clock, leaves its session revoked and without a live token. -/
theorem Sound.replay (hs : s.Sound) (hw : Within τ s) (hr : r ∈ s.tokens)
    (hc : r.consumedAt.isSome = true) (hh : tokenHash texts token = some r.tokenHash)
    (replacement replacementId : String) :
    ∃ s', s.refresh texts token replacement replacementId τ = .ok (s', .replay) ∧
      (∃ x ∈ s'.sessions, x.id = r.deviceSessionId ∧ x.revokedAt.isSome = true) ∧
      ∀ a ∈ s'.tokens, a.deviceSessionId = r.deviceSessionId → a.live = false := by
  obtain ⟨x, hx, hid, _⟩ := hs.parent r hr
  obtain ⟨s1, h1⟩ := revokeOne_commits hs hw x.id
  have revokes := revokeOne_revokes h1
  have w1 := revokes.advances.within τ (Int.le_refl _) hw
  have clock : 0 ≤ τ := by
    have hxc := hs.session x hx
    simp only [Session.check, Bool.and_eq_true, decide_eq_true_eq] at hxc
    exact Int.le_trans hxc.1.1.1 (hw.session x hx)
  have person := hs.account x hx
  obtain ⟨d, hd⟩ := auditTeams_ok clock
    (fun team h => mayAct_of_active (revokes.dir ▸ person) h) w1.head
  have replayed : s.replayed x τ = .ok { s1 with dir := d } := by
    unfold Hub.replayed onDir Directory.auditPrincipalTeams
    simp only [h1, bind, Except.bind, hd, pure, Except.pure]
  have sound := (replayed_advances replayed).sound hs
  obtain ⟨x', hx', hid', _⟩ := revokes.later.session x hx
  have gone : x'.revokedAt.isSome = true :=
    revokes.revoked hx' fun y _ hyid => by simp [hyid, hid']
  refine ⟨{ s1 with dir := d }, ?_, ⟨x', hx', hid'.trans hid, gone⟩, ?_⟩
  · obtain ⟨p, hp⟩ := Option.isSome_iff_exists.1 person
    have hfind : s.sessions.find? r.deviceSessionId = some x := Table.find?_eq_some.2 ⟨hx, hid⟩
    simp only [refresh, hh, getOr, bind, Except.bind, hs.tokenByHash hr, hfind, hp, hc, true_or,
      if_true, replayed, pure, Except.pure]
  · intro a ha hsession
    cases hl : a.live with
    | false => rfl
    | true =>
      have hopen := (sound.live a ha hl x' hx' (by rw [hid', hid, hsession])).1
      simp [hopen] at gone

/-! ### Main result -/

/-- Refresh-token rotation, in every state `s` reached by any operations at any clock readings.
    Every open session has exactly one live refresh token, of the session's generation. A token that
    was exchanged is never exchanged again, and presenting it, at a clock reading not before those
    of the operations so far, leaves its session revoked with no live token. A revoked session is
    never accepted again; neither is, after a device recovery was issued, any earlier session of the
    principal. A session keeps its expiry, and no token outlives its session. -/
theorem refresh_rotation (texts : Texts δ) (ops : List (Op δ)) :
    let s := run (step texts) empty ops
    (∀ x ∈ s.sessions, x.revokedAt = none →
      ∃ r ∈ s.tokens, (r.deviceSessionId = x.id ∧ r.live = true ∧
        r.generation = x.refreshGeneration) ∧
        ∀ r' ∈ s.tokens, r'.deviceSessionId = x.id → r'.live = true → r' = r) ∧
    (∀ token replacement replacementId t s' sessionId new expires,
      s.refresh texts token replacement replacementId t =
        .ok (s', .bundle sessionId new expires) →
      ∀ later replacement' replacementId' t',
        (∀ s'' id new' expires', (run (step texts) s' later).refresh texts token replacement'
          replacementId' t' ≠ .ok (s'', .bundle id new' expires')) ∧
        ((∀ op ∈ ops ++ .refresh token replacement replacementId t :: later,
            op.timestamp ≤ t') →
          ∃ s'', (run (step texts) s' later).refresh texts token replacement' replacementId' t' =
              .ok (s'', .replay) ∧
            (∃ x ∈ s''.sessions, x.id = sessionId ∧ x.revokedAt.isSome = true) ∧
            ∀ r ∈ s''.tokens, r.deviceSessionId = sessionId → r.live = false)) ∧
    (∀ x ∈ s.sessions, x.revokedAt.isSome = true →
      ∀ later, Refused texts (run (step texts) s later) x.id) ∧
    (∀ q t s' principalId, s.issueDeviceRecovery texts q t = .ok (s', principalId) →
      ∀ x ∈ s.sessions, x.humanPrincipalId = principalId →
        ∀ later, Refused texts (run (step texts) s' later) x.id) ∧
    (∀ later, ∀ x ∈ s.sessions, ∃ x' ∈ (run (step texts) s later).sessions,
      x'.id = x.id ∧ x'.expiresAt = x.expiresAt) ∧
    ∀ r ∈ s.tokens, ∃ x ∈ s.sessions, x.id = r.deviceSessionId ∧ r.expiresAt ≤ x.expiresAt := by
  intro s
  have hs : s.Sound := run_sound texts ops empty_sound
  refine ⟨fun x hx hopen => hs.oneLive hx hopen, ?_, ?_, ?_, ?_, ?_⟩
  · intro token replacement replacementId t s' sessionId new expires h later rep repId t'
    have h' := refresh_advances h
    obtain ⟨r, hr, hh, hc, hid⟩ := refresh_consumed h
    obtain ⟨r', hr', hid', hh', hc'⟩ := (run_later texts later s').token r hr
    have hs' := run_sound texts later (h'.sound hs)
    have hash' : tokenHash texts token = some r'.tokenHash := by rw [hh, hh']
    refine ⟨fun s'' id new' expires' => hs'.not_exchanged hr' (hc' hc) hash', fun hclock => ?_⟩
    have w : Within t' s :=
      run_within texts ops (fun op ho => hclock op (List.mem_append_left _ ho)) (empty_within t')
    have w' : Within t' s' := h'.within t'
      (hclock (.refresh token replacement replacementId t) (by simp)) w
    have w'' := run_within texts later (fun op ho => hclock op (by simp [ho])) w'
    rw [← hid, ← hid']
    exact hs'.replay w'' hr' (hc' hc) hash' rep repId
  · exact fun x hx hr later => run_refused hx hr later
  · intro q t s' principalId h x hx hp later
    obtain ⟨s₁, revokes, rest⟩ := issueDeviceRecovery_revokes h
    obtain ⟨x₁, hx₁, hid₁, hp₁, _⟩ := revokes.later.session x hx
    have gone : x₁.revokedAt.isSome = true := revokes.revoked hx₁ fun y hy hyid => by
      have same := s.sessions.eq_of_key hy hx (hyid.trans hid₁)
      simp [same, hp]
    obtain ⟨x', hx', hid', _, _, hr'⟩ := rest.later.session x₁ hx₁
    rw [← hid₁, ← hid']
    exact run_refused hx' (hr' gone) later
  · intro later x hx
    obtain ⟨x', hx', hid, _, he, _⟩ := (run_later texts later s).session x hx
    exact ⟨x', hx', hid, he⟩
  · intro r hr
    obtain ⟨x, hx, hid, he⟩ := hs.parent r hr
    exact ⟨x, hx, hid, Int.le_of_eq he⟩

end

/-- A hub with one bootstrap proof. -/
def sampleDirectory : Directory String :=
  let claim : BootstrapClaim String :=
    { id := "claim", tokenHash := "bootstrap.0123456789", createdAt := 0, expiresAt := 900 }
  { Directory.empty with bootstrapClaims := ⟨[claim], List.nodup_singleton _⟩ }

/-- Bootstrap at 100, first refresh at 200. -/
def sampleOps : List (Op String) :=
  [.elsewhere sampleDirectory 0,
   .bootstrap ⟨"hub", none, none⟩
    { proof := "bootstrap.0123456789", email := "a@b.c", displayName := "A", deviceLabel := "phone",
      principalId := "human", teamId := "team", membershipId := "m1", localMembershipId := "m2",
      managedMembershipId := "m3", new := ⟨"device", "refresh0", "refresh.0123456789"⟩ } 100,
   .refresh "refresh.0123456789" "refresh.9876543210" "refresh1" 200]

/-- When the clock has gone back, presenting an exchanged token revokes nothing: the statements that
    would do it run into the constraints on times, and the transaction is rolled back. -/
theorem replay_before_clock :
    let texts : Texts String := ⟨id, some, some, id⟩
    let s := run (step texts) empty sampleOps
    (∃ r ∈ s.tokens.rows, r.tokenHash = "refresh.0123456789" ∧ r.consumedAt = some 200) ∧
    let s' := s.step texts (.refresh "refresh.0123456789" "refresh.x" "refresh2" 150)
    ∃ x ∈ s'.sessions.rows, x.id = "device" ∧ x.revokedAt = none ∧
      ∃ r ∈ s'.tokens.rows, r.deviceSessionId = x.id ∧ r.live = true := by
  decide +kernel

end Hub

end TeamHub
