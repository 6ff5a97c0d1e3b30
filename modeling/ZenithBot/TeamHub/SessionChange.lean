import ZenithBot.TeamHub.Sessions

/-! What a transaction does to sessions and their refresh tokens. Only three kinds of transaction
    write the two tables: revoking a set of sessions (`Revokes`), creating a session (`Creates`) and
    exchanging a token (`Exchanges`). Each is first described by what it does to the rows, and from
    that description follow that it keeps the invariant `Sound` (an open session has exactly one live
    token, of the session's generation; a revoked one has none) and that it only moves forward in the
    sense of `Later`. -/

namespace TeamHub
open Lib Table

variable {δ : Type}
variable {principalId : String} {p : Principal}

/-! ### Steps of the directory -/

namespace Directory

variable {actor : String} {τ : Int}

section
variable {τ : Int} {d d' d'' : Directory δ}
variable {bad : String} {m : Membership}

lemma Edited.refl : d.Edited τ d := ⟨fun p hp _ => ⟨p, hp, rfl, rfl⟩, fun _ h => .inl h⟩

lemma Edited.trans (h : d.Edited τ d') (h' : d'.Edited τ d'') :
    d.Edited τ d'' where
  account p hp hk := by
    obtain ⟨p', hp', hid, hkind⟩ := h.account p hp hk
    obtain ⟨p'', hp'', hid', hkind'⟩ := h'.account p' hp' (hkind ▸ hk)
    exact ⟨p'', hp'', hid'.trans hid, hkind'.trans hkind⟩
  head x hx := by
    rcases h'.head x hx with hx | hx
    · exact h.head x hx
    · exact .inr hx

lemma insertPrincipal_edited (h : d.insertPrincipal p = .ok d') : d.Edited τ d' := by
  iterate 2 obtain ⟨_, _, h⟩ := bind_ok h
  obtain ⟨t, ht, h⟩ := found_ok h
  cases h
  exact ⟨fun q hq _ => ⟨q, (mem_insert? ht).2 (.inl hq), rfl, rfl⟩,
    fun _ h => .inl h⟩

lemma insertMembership_edited (h : d.insertMembership m = .ok d') : d.Edited τ d' := by
  iterate 4 obtain ⟨_, _, h⟩ := bind_ok h
  obtain ⟨t, _, h⟩ := bind_ok h
  cases h
  exact ⟨fun p hp _ => ⟨p, hp, rfl, rfl⟩, fun _ h => .inl h⟩

lemma audit_edited {teamId : String} (h : d.audit teamId actor τ = .ok d') :
    d.Edited τ d' := by
  iterate 2 obtain ⟨_, _, h⟩ := bind_ok h
  obtain ⟨t, ht, h⟩ := bind_ok h
  cases h
  refine ⟨fun p hp _ => ⟨p, hp, rfl, rfl⟩, fun x hx => ?_⟩
  replace ht := getOr_ok ht
  unfold nextHeads at ht
  split at ht
  · rcases (mem_insert? ht).1 hx with hx | rfl
    · exact .inl hx
    · exact .inr rfl
  · rw [(update?_eq_some ht).1] at hx
    obtain ⟨y, hy, ⟨_, rfl⟩ | ⟨_, rfl⟩⟩ := updateWhere_cases hx
    · exact .inr rfl
    · exact .inl hy

lemma auditTeams_edited : ∀ {teams : List String} {d d' : Directory δ},
    auditTeams actor τ teams d = .ok d' → d.Edited τ d'
  | [], _, _, h => by cases h; exact .refl
  | _ :: _, _, _, h => by
    obtain ⟨_, h1, h2⟩ := bind_ok h
    exact (audit_edited h1).trans (auditTeams_edited h2)

lemma auditPrincipalTeams_edited (h : d.auditPrincipalTeams principalId τ = .ok d') :
    d.Edited τ d' :=
  auditTeams_edited h

lemma ensureService_edited (h : d.ensureService p bad = .ok d') : d.Edited τ d' := by
  unfold ensureService at h
  split at h
  · exact insertPrincipal_edited h
  · obtain ⟨_, _, h⟩ := bind_ok h
    cases h; exact .refl

lemma ensureAutomation_edited (h : d.ensureAutomation m bad = .ok d') : d.Edited τ d' := by
  unfold ensureAutomation at h
  split at h
  · exact insertMembership_edited h
  · obtain ⟨_, _, h⟩ := bind_ok h
    cases h; exact .refl

lemma servicePrincipal_edited {id identifier name bad' teamId membershipId : String} {t : Int}
    (h : servicePrincipal id identifier name bad bad' d teamId membershipId t = .ok d') :
    d.Edited τ d' := by
  obtain ⟨_, h1, h2⟩ := bind_ok h
  exact (ensureService_edited h1).trans (ensureAutomation_edited h2)

lemma redeemInvitation_edited [DecidableEq δ] {digest : δ} {membershipId : String} {t : Int}
    (h : d.redeemInvitation digest principalId membershipId t = .ok d') :
    d.Edited τ d' := by
  obtain ⟨i, _, h⟩ := bind_ok h
  iterate 3 obtain ⟨_, _, h⟩ := bind_ok h
  obtain ⟨d1, hg, h⟩ := bind_ok h
  have granted : d.Edited τ d1 := by
    unfold grantMembership at hg
    split at hg
    · obtain ⟨_, _, hg⟩ := bind_ok hg
      cases hg; exact .refl
    · exact insertMembership_edited hg
  iterate 2 obtain ⟨_, _, h⟩ := bind_ok h
  cases h
  exact granted.trans ⟨fun p hp _ => ⟨p, hp, rfl, rfl⟩, fun _ h => .inl h⟩

lemma Edited.human {id : String} (h : d.Edited τ d') (hd : (d.human? id).isSome = true) :
    (d'.human? id).isSome = true := by
  obtain ⟨p, hp⟩ := Option.isSome_iff_exists.1 hd
  obtain ⟨hf, hk⟩ := Option.filter_eq_some_iff.1 hp
  obtain ⟨p', hp', hid, hkind⟩ := h.account p (find?_mem hf) hk
  have hf' : d'.principals.find? id = some p' :=
    find?_eq_some.2 ⟨hp', hid.trans (find?_key hf)⟩
  simp [human?, hf', hkind, hk]

end

/-- One audit event is refused only by a chain head that is later than the clock. -/
lemma audit_ok {d : Directory δ} {team : String} (ht : 0 ≤ τ)
    (hact : d.mayAct team actor = true) (hheads : ∀ h ∈ d.auditHeads, h.updatedAt ≤ τ) :
    ∃ heads, d.audit team actor τ = .ok { d with auditHeads := heads } := by
  have advanced : ∀ head, d.auditHeads.find? team = some head →
      ∃ heads, d.advanceHead head τ = some heads := by
    intro head hf
    refine ⟨_, update?_of_ok fun h hh hteam => ?_⟩
    have same : h = head := d.auditHeads.eq_of_key hh (find?_mem hf) (by simpa using hteam)
    simp [same, hheads head (find?_mem hf), ht]
  have stored : ∃ heads, d.nextHeads team τ = some heads := by
    unfold nextHeads
    cases hf : d.auditHeads.find? team with
    | none => exact ⟨_, dif_pos (find?_eq_none.1 hf)⟩
    | some head => exact advanced head hf
  obtain ⟨heads, hs⟩ := stored
  simp [audit, hs, refuseIf, hact, Int.not_lt.2 ht, getOr, bind, Except.bind, pure, Except.pure]

/-- Nor is an audit event in each of several teams. -/
lemma auditTeams_ok (ht : 0 ≤ τ) :
    ∀ {teams : List String} {d : Directory δ}, (∀ team ∈ teams, d.mayAct team actor = true) →
      (∀ h ∈ d.auditHeads, h.updatedAt ≤ τ) →
      ∃ d', auditTeams actor τ teams d = .ok d'
  | [], d, _, _ => ⟨d, rfl⟩
  | team :: teams, d, hact, hheads => by
    obtain ⟨heads, ha⟩ := audit_ok ht (hact team List.mem_cons_self) hheads
    have later : ∀ h ∈ heads, h.updatedAt ≤ τ := by
      intro h hh
      rcases (audit_edited ha).head h hh with hh | hh
      · exact hheads h hh
      · exact Int.le_of_eq hh
    obtain ⟨d', hd⟩ := auditTeams_ok ht (d := { d with auditHeads := heads })
      (fun t h => hact t (List.mem_cons_of_mem _ h)) later
    refine ⟨d', ?_⟩
    rw [auditTeams, ha]
    exact hd

lemma mayAct_of_active {d : Directory δ} {id team : String} (hp : (d.human? id).isSome = true)
    (h : team ∈ d.activeTeams id) : d.mayAct team id = true := by
  obtain ⟨m, hm, rfl⟩ := List.mem_map.1 h
  obtain ⟨hm, hactive⟩ := List.mem_filter.1 hm
  obtain ⟨p, hp⟩ := Option.isSome_iff_exists.1 hp
  obtain ⟨hf, hk⟩ := Option.filter_eq_some_iff.1 hp
  have member : (d.memberships.rows.any fun n => n.teamId = m.teamId && n.principalId = id) = true :=
    List.any_eq_true.2 ⟨m, hm, by simpa using (by simpa using hactive : _ ∧ _).1⟩
  have acts : p.kind.mayAudit = true := by
    cases hkind : p.kind <;> simp_all [Kind.isHuman, Kind.mayAudit]
  simp [mayAct, hf, acts, member]

end Directory

/-! ### The invariant and what a transaction may do -/

namespace Hub

variable {x : Session} {s s' : Hub δ}

/-- An open session has a live token, every live token is of the generation of an open session, and
    the constraints of the two tables. -/
structure Sound (s : Hub δ) : Prop where
  account : ∀ x ∈ s.sessions, (s.dir.human? x.humanPrincipalId).isSome = true
  session : ∀ x ∈ s.sessions, x.check = true
  token : ∀ r ∈ s.tokens, r.check = true
  parent : ∀ r ∈ s.tokens, ∃ x ∈ s.sessions, x.id = r.deviceSessionId ∧ r.expiresAt = x.expiresAt
  live : ∀ r ∈ s.tokens, r.live = true → ∀ x ∈ s.sessions, x.id = r.deviceSessionId →
    x.revokedAt = none ∧ r.generation = x.refreshGeneration
  held : ∀ x ∈ s.sessions, x.revokedAt = none → ∃ r ∈ s.tokens, r.deviceSessionId = x.id ∧
    r.live = true
  hash : ∀ r ∈ s.tokens, ∀ r' ∈ s.tokens, r.tokenHash = r'.tokenHash → r = r'
  generation : ∀ r ∈ s.tokens, ∀ r' ∈ s.tokens, r.deviceSessionId = r'.deviceSessionId →
    r.generation = r'.generation → r = r'

/-- Sessions keep their owner and expiry and stay revoked; tokens keep their session and digest and
    stay consumed. -/
structure Later (s s' : Hub δ) : Prop where
  session : ∀ x ∈ s.sessions, ∃ x' ∈ s'.sessions, x'.id = x.id ∧
    x'.humanPrincipalId = x.humanPrincipalId ∧ x'.expiresAt = x.expiresAt ∧
    (x.revokedAt.isSome = true → x'.revokedAt.isSome = true)
  token : ∀ r ∈ s.tokens, ∃ r' ∈ s'.tokens, r'.deviceSessionId = r.deviceSessionId ∧
    r'.tokenHash = r.tokenHash ∧ (r.consumedAt.isSome = true → r'.consumedAt.isSome = true)

lemma Later.refl (s : Hub δ) : Later s s :=
  ⟨fun x hx => ⟨x, hx, rfl, rfl, rfl, id⟩, fun r hr => ⟨r, hr, rfl, rfl, id⟩⟩

lemma Later.trans {a b c : Hub δ} (h : Later a b) (h' : Later b c) : Later a c where
  session x hx := by
    obtain ⟨y, hy, hid, hp, he, hr⟩ := h.session x hx
    obtain ⟨z, hz, hid', hp', he', hr'⟩ := h'.session y hy
    exact ⟨z, hz, hid'.trans hid, hp'.trans hp, he'.trans he, hr' ∘ hr⟩
  token x hx := by
    obtain ⟨y, hy, hs, hh, hc⟩ := h.token x hx
    obtain ⟨z, hz, hs', hh', hc'⟩ := h'.token y hy
    exact ⟨z, hz, hs'.trans hs, hh'.trans hh, hc' ∘ hc⟩

/-- No time on record is later than `now`. -/
structure Within (now : Int) (s : Hub δ) : Prop where
  session : ∀ x ∈ s.sessions, x.createdAt ≤ now
  token : ∀ r ∈ s.tokens, r.createdAt ≤ now
  head : ∀ h ∈ s.dir.auditHeads, h.updatedAt ≤ now

lemma empty_sound : (empty : Hub δ).Sound := by
  constructor <;> intro x hx <;> exact absurd hx (not_mem_empty x)

lemma empty_within (now : Int) : Within now (empty : Hub δ) := by
  constructor <;> intro x hx <;> exact absurd hx (not_mem_empty x)

lemma Sound.oneLive {s : Hub δ} (hs : s.Sound) (hx : x ∈ s.sessions) (hopen : x.revokedAt = none) :
    ∃ r ∈ s.tokens, (r.deviceSessionId = x.id ∧ r.live = true ∧
      r.generation = x.refreshGeneration) ∧
      ∀ r' ∈ s.tokens, r'.deviceSessionId = x.id → r'.live = true → r' = r := by
  obtain ⟨r, hr, hid, hl⟩ := hs.held x hx hopen
  have hg := (hs.live r hr hl x hx hid.symm).2
  refine ⟨r, hr, ⟨hid, hl, hg⟩, fun r' hr' hid' hl' => ?_⟩
  have hg' := (hs.live r' hr' hl' x hx hid'.symm).2
  exact hs.generation r' hr' r hr (hid'.trans hid.symm) (hg'.trans hg.symm)

/-- The same token, whatever has become of it. -/
structure SameToken (a' a : RefreshToken δ) : Prop where
  id : a'.id = a.id
  session : a'.deviceSessionId = a.deviceSessionId
  hash : a'.tokenHash = a.tokenHash
  generation : a'.generation = a.generation
  expires : a'.expiresAt = a.expiresAt
  created : a'.createdAt = a.createdAt

lemma SameToken.refl (a : RefreshToken δ) : SameToken a a := ⟨rfl, rfl, rfl, rfl, rfl, rfl⟩

/-- Digests and generations tell tokens apart. -/
structure UniqueTokens (s : Hub δ) : Prop where
  hash : ∀ a ∈ s.tokens, ∀ b ∈ s.tokens, a.tokenHash = b.tokenHash → a = b
  generation : ∀ a ∈ s.tokens, ∀ b ∈ s.tokens, a.deviceSessionId = b.deviceSessionId →
    a.generation = b.generation → a = b

/-- Tokens that were there, with one that clashes with none of them, keep digests and generations
    unique. -/
lemma Sound.unique (hs : s.Sound) (new : RefreshToken δ → Prop)
    (hwas : ∀ a ∈ s'.tokens, (∃ b ∈ s.tokens, SameToken a b) ∨ new a)
    (hone : ∀ a b, new a → new b → a = b)
    (hnew : ∀ a, new a → ∀ q ∈ s.tokens, q.tokenHash ≠ a.tokenHash ∧
      (q.deviceSessionId = a.deviceSessionId → q.generation ≠ a.generation)) : UniqueTokens s' := by
  constructor
  · intro a ha b hb heq
    rcases hwas a ha with ⟨a0, ha0, has⟩ | hna <;> rcases hwas b hb with ⟨b0, hb0, hbs⟩ | hnb
    · have same := hs.hash a0 ha0 b0 hb0 (by rw [← has.hash, heq, hbs.hash])
      exact s'.tokens.eq_of_key ha hb (by rw [has.id, hbs.id, same])
    · exact ((hnew b hnb a0 ha0).1 (has.hash.symm.trans heq)).elim
    · exact ((hnew a hna b0 hb0).1 (hbs.hash.symm.trans heq.symm)).elim
    · exact hone a b hna hnb
  · intro a ha b hb hsession heq
    rcases hwas a ha with ⟨a0, ha0, has⟩ | hna <;> rcases hwas b hb with ⟨b0, hb0, hbs⟩ | hnb
    · have same := hs.generation a0 ha0 b0 hb0 (by rw [← has.session, hsession, hbs.session])
        (by rw [← has.generation, heq, hbs.generation])
      exact s'.tokens.eq_of_key ha hb (by rw [has.id, hbs.id, same])
    · exact ((hnew b hnb a0 ha0).2 (has.session.symm.trans hsession)
        (has.generation.symm.trans heq)).elim
    · exact ((hnew a hna b0 hb0).2 (hbs.session.symm.trans hsession.symm)
        (hbs.generation.symm.trans heq.symm)).elim
    · exact hone a b hna hnb

lemma Sound.parentOf (hs : s.Sound) (hl : Later s s') {a' a : RefreshToken δ}
    (ha : a ∈ s.tokens) (h : SameToken a' a) :
    ∃ x ∈ s'.sessions, x.id = a'.deviceSessionId ∧ a'.expiresAt = x.expiresAt := by
  obtain ⟨x, hx, hid, he⟩ := hs.parent a ha
  obtain ⟨x', hx', hid', _, he', _⟩ := hl.session x hx
  exact ⟨x', hx', by rw [hid', hid, h.session], by rw [h.expires, he, he']⟩

/-- What a transaction at `τ` does to a sound hub. -/
structure Advances (τ : Int) (s s' : Hub δ) : Prop where
  sound : s.Sound → s'.Sound
  later : Later s s'
  within : ∀ now, τ ≤ now → Within now s → Within now s'

section
variable {τ : Int} {s s' s'' : Hub δ}

lemma Advances.trans (h : Advances τ s s') (h' : Advances τ s' s'') :
    Advances τ s s'' :=
  ⟨h'.sound ∘ h.sound, h.later.trans h'.later,
    fun now hn hw => h'.within now hn (h.within now hn hw)⟩

/-- A step of the directory, or of a table that is neither sessions nor tokens. -/
lemma Advances.of_edited (hd : s.dir.Edited τ s'.dir) (hs : s'.sessions = s.sessions)
    (ht : s'.tokens = s.tokens) : Advances τ s s' where
  sound h := by
    obtain ⟨h1, h2, h3, h4, h5, h6, h7, h8⟩ := h
    constructor <;> simp only [hs, ht] <;> try assumption
    exact fun x hx => hd.human (h1 x hx)
  later := by
    have := Later.refl s
    constructor
    · rw [hs]; exact this.session
    · rw [ht]; exact this.token
  within now hn hw := by
    refine ⟨hs ▸ hw.session, ht ▸ hw.token, fun h hh => ?_⟩
    rcases hd.head h hh with hh | rfl
    · exact hw.head h hh
    · exact hn

lemma onDir_advances {f : Directory δ → Except Err (Directory δ)}
    (hf : ∀ d, f s.dir = .ok d → s.dir.Edited τ d) (h : s.onDir f = .ok s') :
    Advances τ s s' := by
  obtain ⟨d, hd, h⟩ := bind_ok h
  cases h
  exact .of_edited (hf d hd) rfl rfl

end

/-! ### Revoking -/

section
variable {τ : Int} {s s' : Hub δ} {p : Session → Bool}

lemma revokeSessionsWhere_ok (h : s.revokeSessionsWhere p τ = .ok s') :
    s'.dir = s.dir ∧ s'.tokens = s.tokens ∧
    s'.sessions = s.sessions.updateWhere (fun x => p x && x.revokedAt.isNone)
      (fun x => { x with revokedAt := some τ }) (fun _ => rfl) ∧
    ∀ x ∈ s.sessions, p x = true → x.revokedAt = none →
      Session.mayBecome x { x with revokedAt := some τ } = true := by
  obtain ⟨t, ht, h⟩ := found_ok h
  cases h
  obtain ⟨rfl, hok⟩ := update?_eq_some ht
  exact ⟨rfl, rfl, rfl, fun x hx hp hr => hok x hx (by simp [hp, hr])⟩

lemma revokeTokensWhere_ok {p : RefreshToken δ → Bool}
    (h : s.revokeTokensWhere p τ = .ok s') :
    s'.dir = s.dir ∧ s'.sessions = s.sessions ∧
    s'.tokens = s.tokens.updateWhere (fun r => p r && r.live)
      (fun r => { r with revokedAt := some τ }) (fun _ => rfl) ∧
    ∀ r ∈ s.tokens, p r = true → r.live = true →
      RefreshToken.mayBecome r { r with revokedAt := some τ } = true := by
  obtain ⟨t, ht, h⟩ := found_ok h
  cases h
  obtain ⟨rfl, hok⟩ := update?_eq_some ht
  exact ⟨rfl, rfl, rfl, fun r hr hp hl => hok r hr (by simp [hp, hl])⟩

/-- The sessions in `p` and their live tokens are revoked at `τ`; nothing else changes. -/
structure Revokes (p : Session → Bool) (τ : Int) (s s' : Hub δ) : Prop where
  dir : s'.dir = s.dir
  session : ∀ x' ∈ s'.sessions, ∃ x ∈ s.sessions,
    (p x = true ∧ x.revokedAt = none ∧ x' = { x with revokedAt := some τ } ∧
      x'.check = true) ∨ ((p x = true → x.revokedAt.isSome = true) ∧ x' = x)
  sessionOf : ∀ x ∈ s.sessions, ∃ x' ∈ s'.sessions,
    (x' = { x with revokedAt := some τ } ∧ p x = true) ∨
      ((p x = true → x.revokedAt.isSome = true) ∧ x' = x)
  token : ∀ r' ∈ s'.tokens, ∃ r ∈ s.tokens,
    (r.live = true ∧ r' = { r with revokedAt := some τ } ∧ r'.check = true) ∨
      ((r.live = true → ∀ x ∈ s.sessions, x.id = r.deviceSessionId → p x = false) ∧ r' = r)
  tokenOf : ∀ r ∈ s.tokens, ∃ r' ∈ s'.tokens,
    (r' = { r with revokedAt := some τ } ∧
      ∀ x ∈ s.sessions, x.id = r.deviceSessionId → p x = true) ∨ r' = r

/-- The two statements of a revocation, when the second names the tokens of the sessions that the
    first names. -/
lemma revokes_of {q : RefreshToken δ → Bool} {s1 : Hub δ}
    (hq : ∀ r ∈ s.tokens, ∀ x ∈ s.sessions, x.id = r.deviceSessionId → q r = p x)
    (h1 : s.revokeSessionsWhere p τ = .ok s1)
    (h2 : s1.revokeTokensWhere q τ = .ok s') : Revokes p τ s s' := by
  obtain ⟨hd1, ht1, hs1, hok1⟩ := revokeSessionsWhere_ok h1
  obtain ⟨hd2, hs2, ht2, hok2⟩ := revokeTokensWhere_ok h2
  rw [ht1] at hok2
  constructor
  case dir => exact hd2.trans hd1
  case session =>
    intro x' hx'
    rw [hs2, hs1] at hx'
    obtain ⟨x, hx, ⟨hp, rfl⟩ | ⟨hp, rfl⟩⟩ := updateWhere_cases hx'
    · simp only [Bool.and_eq_true, Option.isNone_iff_eq_none] at hp
      have hbecome := hok1 x hx hp.1 hp.2
      simp only [Session.mayBecome, Bool.and_eq_true] at hbecome
      exact ⟨x, hx, .inl ⟨hp.1, hp.2, rfl, hbecome.1.1.1⟩⟩
    · exact ⟨x', hx, .inr ⟨fun h => by simpa [h] using hp, rfl⟩⟩
  case sessionOf =>
    intro x hx
    rw [hs2, hs1]
    refine exists_updateWhere hx (fun hp => .inl ⟨rfl, ?_⟩) fun hp => .inr ⟨fun h => ?_, rfl⟩
    · exact (Bool.and_eq_true_iff.1 hp).1
    · simpa [h] using hp
  case token =>
    intro r' hr'
    rw [ht2, ht1] at hr'
    obtain ⟨r, hr, ⟨hp, rfl⟩ | ⟨hp, rfl⟩⟩ := updateWhere_cases hr'
    · simp only [Bool.and_eq_true] at hp
      have hbecome := hok2 r hr hp.1 hp.2
      simp only [RefreshToken.mayBecome, Bool.and_eq_true] at hbecome
      exact ⟨r, hr, .inl ⟨hp.2, rfl, hbecome.1.1⟩⟩
    · refine ⟨r', hr, .inr ⟨fun hl x hx hid => ?_, rfl⟩⟩
      rw [← hq r' hr x hx hid]
      simpa [hl] using hp
  case tokenOf =>
    intro r hr
    rw [ht2, ht1]
    refine exists_updateWhere hr (fun hp => .inl ⟨rfl, fun x hx hid => ?_⟩) fun _ => .inr rfl
    exact hq r hr x hx hid ▸ (Bool.and_eq_true_iff.1 hp).1

lemma revokeOne_revokes {sessionId : String} (h : s.revokeOne sessionId τ = .ok s') :
    Revokes (fun x => x.id = sessionId) τ s s' := by
  obtain ⟨s1, h1, h2⟩ := bind_ok h
  refine revokes_of (fun r _ x _ hid => ?_) h1 h2
  rw [hid]

lemma revokeAllOf_revokes (h : s.revokeAllOf principalId τ = .ok s') :
    Revokes (fun x => x.humanPrincipalId = principalId) τ s s' := by
  obtain ⟨s1, h1, h2⟩ := bind_ok h
  refine revokes_of (fun r _ x hx hid => ?_) h1 h2
  -- the first statement changes neither ids nor owners, so the subquery may read either table
  have owner : ∀ y ∈ s1.sessions, y.id = x.id → y.humanPrincipalId = x.humanPrincipalId := by
    intro y hy hyx
    rw [(revokeSessionsWhere_ok h1).2.2.1] at hy
    obtain ⟨z, hz, ⟨_, rfl⟩ | ⟨_, rfl⟩⟩ := updateWhere_cases hy
    · rw [s.sessions.eq_of_key hz hx hyx]
    · rw [s.sessions.eq_of_key hz hx hyx]
  have present : ∃ y ∈ s1.sessions, y.id = x.id := by
    rw [(revokeSessionsWhere_ok h1).2.2.1]
    exact exists_updateWhere hx (fun _ => rfl) fun _ => rfl
  rw [Bool.eq_iff_iff, List.any_eq_true]
  simp only [Bool.and_eq_true, decide_eq_true_eq]
  constructor
  · rintro ⟨y, hy, hyid, hyp⟩
    rw [← owner y hy (hyid.trans hid.symm), hyp]
  · intro hp
    obtain ⟨y, hy, hyid⟩ := present
    exact ⟨y, hy, hyid.trans hid, (owner y hy hyid).trans hp⟩

section
variable {p : Session → Bool} (h : Revokes p τ s s') {x' : Session}
include h

lemma Revokes.sessionWas (hx' : x' ∈ s'.sessions) : ∃ x ∈ s.sessions,
    x'.id = x.id ∧ x'.humanPrincipalId = x.humanPrincipalId ∧ x'.expiresAt = x.expiresAt ∧
    x'.createdAt = x.createdAt ∧ (x.check = true → x'.check = true) ∧
    (x'.revokedAt = none → x' = x ∧ p x = false) := by
  obtain ⟨x, hx, ⟨_, _, rfl, hc⟩ | ⟨hp, rfl⟩⟩ := h.session x' hx'
  · exact ⟨x, hx, rfl, rfl, rfl, rfl, fun _ => hc, fun h => by cases h⟩
  · refine ⟨x', hx, rfl, rfl, rfl, rfl, id, fun hr => ⟨rfl, ?_⟩⟩
    cases hpx : p x' with
    | false => rfl
    | true => simpa [hr] using hp hpx

lemma Revokes.tokenWas {r' : RefreshToken δ} (hr' : r' ∈ s'.tokens) : ∃ r ∈ s.tokens,
    SameToken r' r ∧ (r.check = true → r'.check = true) ∧
    (r'.live = true → r' = r ∧ ∀ x ∈ s.sessions, x.id = r.deviceSessionId → p x = false) := by
  obtain ⟨r, hr, ⟨_, rfl, hc⟩ | ⟨hp, rfl⟩⟩ := h.token r' hr'
  · exact ⟨r, hr, ⟨rfl, rfl, rfl, rfl, rfl, rfl⟩, fun _ => hc,
      fun h => by simp [RefreshToken.live] at h⟩
  · exact ⟨r', hr, .refl r', id, fun hl => ⟨rfl, hp hl⟩⟩

lemma Revokes.later : Later s s' where
  session x hx := by
    obtain ⟨x', hx', ⟨rfl, _⟩ | ⟨_, rfl⟩⟩ := h.sessionOf x hx
    · exact ⟨_, hx', rfl, rfl, rfl, fun _ => rfl⟩
    · exact ⟨x', hx', rfl, rfl, rfl, id⟩
  token r hr := by
    obtain ⟨r', hr', ⟨rfl, _⟩ | rfl⟩ := h.tokenOf r hr
    · exact ⟨_, hr', rfl, rfl, id⟩
    · exact ⟨r', hr', rfl, rfl, id⟩

lemma Revokes.unique (hs : s.Sound) : UniqueTokens s' :=
  hs.unique (fun _ => False)
    (fun _ ha => .inl ((h.tokenWas ha).imp fun _ hb => ⟨hb.1, hb.2.1⟩)) (fun _ _ h => h.elim)
    fun _ h => h.elim

lemma Revokes.sound (hs : s.Sound) : s'.Sound where
  account x' hx' := by
    obtain ⟨x, hx, _, howner, _⟩ := h.sessionWas hx'
    rw [howner, h.dir]
    exact hs.account x hx
  session x' hx' := by
    obtain ⟨x, hx, _, _, _, _, hc, _⟩ := h.sessionWas hx'
    exact hc (hs.session x hx)
  token r' hr' := by
    obtain ⟨r, hr, _, hc, _⟩ := h.tokenWas hr'
    exact hc (hs.token r hr)
  parent r' hr' := by
    obtain ⟨r, hr, hsame, _⟩ := h.tokenWas hr'
    exact hs.parentOf h.later hr hsame
  live r' hr' hl x' hx' hid := by
    obtain ⟨r, hr, _, _, hlive⟩ := h.tokenWas hr'
    obtain ⟨rfl, hp⟩ := hlive hl
    obtain ⟨x, hx, ⟨hpx, _, rfl, _⟩ | ⟨_, rfl⟩⟩ := h.session x' hx'
    · simp [hp x hx hid] at hpx
    · exact hs.live r' hr hl x' hx hid
  held x' hx' hopen := by
    obtain ⟨x, hx, _, _, _, _, _, hx'x⟩ := h.sessionWas hx'
    obtain ⟨rfl, hp⟩ := hx'x hopen
    obtain ⟨r, hr, hid, hl⟩ := hs.held x' hx hopen
    obtain ⟨r', hr', ⟨_, hpx⟩ | rfl⟩ := h.tokenOf r hr
    · simp [hpx x' hx hid.symm] at hp
    · exact ⟨r', hr', hid, hl⟩
  hash := (h.unique hs).hash
  generation := (h.unique hs).generation

/-- REVOKE: revoking a set of sessions with their live tokens. -/
theorem Revokes.advances : Advances τ s s' where
  sound := h.sound
  later := h.later
  within now _ hw := by
    refine ⟨fun x' hx' => ?_, fun r' hr' => ?_, h.dir ▸ hw.head⟩
    · obtain ⟨x, hx, _, _, _, hc, _⟩ := h.sessionWas hx'
      rw [hc]; exact hw.session x hx
    · obtain ⟨r, hr, hsame, _⟩ := h.tokenWas hr'
      rw [hsame.created]; exact hw.token r hr

lemma Revokes.revoked (hx' : x' ∈ s'.sessions)
    (hp : ∀ x ∈ s.sessions, x.id = x'.id → p x = true) : x'.revokedAt.isSome = true := by
  obtain ⟨x, hx, hid, _, _, _, _, hopen⟩ := h.sessionWas hx'
  cases hr : x'.revokedAt with
  | some t => rfl
  | none => simpa [(hopen hr).2] using hp x hx hid.symm

end

end

section
variable {τ : Int} {s : Hub δ}

/-- A revocation is refused only by a row that is later than the clock. -/
lemma revokeOne_commits (hs : s.Sound) (hw : Within τ s) (sessionId : String) :
    ∃ s', s.revokeOne sessionId τ = .ok s' := by
  have sessions : ∀ x ∈ s.sessions, x.revokedAt = none →
      Session.mayBecome x { x with revokedAt := some τ } = true := by
    intro x hx hopen
    have hc := hs.session x hx
    simp only [Session.check, Bool.and_eq_true] at hc
    simp [Session.mayBecome, Session.check, hc.1.1.1, hc.1.1.2, hc.1.2, hw.session x hx, hopen]
  have tokens : ∀ r ∈ s.tokens, r.live = true →
      RefreshToken.mayBecome r { r with revokedAt := some τ } = true := by
    intro r hr hl
    have hc := hs.token r hr
    simp only [RefreshToken.live, Bool.and_eq_true, Option.isNone_iff_eq_none] at hl
    simp only [RefreshToken.check, Bool.and_eq_true, beq_iff_eq] at hc
    simp [RefreshToken.mayBecome, RefreshToken.check, hc.1.1.1.1.1, hc.1.1.1.1.2, ← hc.1.2,
      hw.token r hr, hl.1, hl.2]
  have first : ∃ t, s.revokeSessionsWhere (fun x => x.id = sessionId) τ =
      .ok { s with sessions := t } := by
    unfold revokeSessionsWhere
    rw [update?_of_ok fun x hx hp => sessions x hx (by simp at hp; exact hp.2)]
    exact ⟨_, rfl⟩
  obtain ⟨t, ht⟩ := first
  have second : ∃ s', ({ s with sessions := t }).revokeTokensWhere
      (fun r => r.deviceSessionId = sessionId) τ = .ok s' := by
    unfold revokeTokensWhere
    rw [update?_of_ok fun r hr hp => tokens r hr (by simp at hp; exact hp.2)]
    exact ⟨_, rfl⟩
  obtain ⟨s', hs'⟩ := second
  refine ⟨s', ?_⟩
  unfold revokeOne
  rw [ht]
  exact hs'

end

/-! ### Creating -/

section
variable {τ : Int} {s s' : Hub δ}
variable {r : RefreshToken δ} {texts : Texts δ} {new : NewSession} {label : String}

lemma insertSession_ok (h : s.insertSession x = .ok s') :
    s'.dir = s.dir ∧ s'.tokens = s.tokens ∧ (∀ y, y ∈ s'.sessions ↔ y ∈ s.sessions ∨ y = x) ∧
    x.check = true ∧ (s.dir.human? x.humanPrincipalId).isSome = true ∧
    ∀ y ∈ s.sessions, y.id ≠ x.id := by
  obtain ⟨hc, h⟩ := refuse_ok h
  obtain ⟨ha, h⟩ := refuse_ok h
  obtain ⟨t, ht, h⟩ := found_ok h
  cases h
  refine ⟨rfl, rfl, fun y => mem_insert? ht, by simpa using hc, ?_,
    (insert?_eq_some ht).2⟩
  simpa [Option.isSome_iff_ne_none] using ha

lemma insertToken_ok [DecidableEq δ] (h : s.insertToken r = .ok s') :
    s'.dir = s.dir ∧ s'.sessions = s.sessions ∧ (∀ q, q ∈ s'.tokens ↔ q ∈ s.tokens ∨ q = r) ∧
    r.check = true ∧ (∀ q ∈ s.tokens, q.tokenHash ≠ r.tokenHash ∧
      (q.deviceSessionId = r.deviceSessionId → q.generation ≠ r.generation)) ∧
    ∀ q ∈ s.tokens, q.id ≠ r.id := by
  obtain ⟨hc, h⟩ := refuse_ok h
  obtain ⟨_, _, h⟩ := bind_ok h
  obtain ⟨hu, h⟩ := refuse_ok h
  obtain ⟨t, ht, h⟩ := found_ok h
  cases h
  refine ⟨rfl, rfl, fun y => mem_insert? ht, by simpa using hc, ?_,
    (insert?_eq_some ht).2⟩
  intro q hq
  have := fun hcl => hu ⟨q, hq, hcl⟩
  simpa [clashes] using this

/-- The session `x` and its first token `r` were added; nothing else changed. -/
structure Creates (x : Session) (r : RefreshToken δ) (s s' : Hub δ) : Prop where
  dir : s'.dir = s.dir
  sessions : ∀ y, y ∈ s'.sessions ↔ y ∈ s.sessions ∨ y = x
  tokens : ∀ q, q ∈ s'.tokens ↔ q ∈ s.tokens ∨ q = r
  account : (s.dir.human? x.humanPrincipalId).isSome = true
  session : x.check = true ∧ x.revokedAt = none
  token : r.check = true ∧ r.live = true
  freshSession : ∀ y ∈ s.sessions, y.id ≠ x.id
  freshToken : ∀ q ∈ s.tokens, q.tokenHash ≠ r.tokenHash ∧
    (q.deviceSessionId = r.deviceSessionId → q.generation ≠ r.generation)
  first : r.deviceSessionId = x.id ∧ r.generation = x.refreshGeneration ∧
    r.expiresAt = x.expiresAt ∧ r.createdAt = x.createdAt

lemma createSession_creates [DecidableEq δ]
    (h : s.createSession texts principalId label new τ = .ok s') :
    ∃ x r, Creates x r s s' ∧ x.createdAt = τ := by
  obtain ⟨clean, _, h⟩ := bind_ok h
  obtain ⟨s1, h1, h2⟩ := bind_ok h
  obtain ⟨hd1, ht1, hm1, hc1, ha1, hn1⟩ := insertSession_ok h1
  obtain ⟨hd2, hs2, hm2, hc2, hu2, _⟩ := insertToken_ok h2
  rw [ht1] at hm2 hu2
  rw [← hs2] at hm1
  exact ⟨_, _, ⟨hd2.trans hd1, hm1, hm2, ha1, ⟨hc1, rfl⟩, ⟨hc2, rfl⟩, hn1, hu2,
    rfl, rfl, rfl, rfl⟩, rfl⟩

lemma Creates.sound (h : Creates x r s s') (hs : s.Sound) : s'.Sound := by
  -- no stored token belongs to the new session, since each has a stored parent
  have apart : ∀ q ∈ s.tokens, q.deviceSessionId ≠ x.id := by
    intro q hq heq
    obtain ⟨y, hy, hid, _⟩ := hs.parent q hq
    exact h.freshSession y hy (hid.trans heq)
  obtain ⟨hsession, hgeneration, hexpires, _⟩ := h.first
  have old : ∀ {q}, q ∈ s.tokens → q ∈ s'.tokens := fun hq => (h.tokens _).2 (.inl hq)
  have oldSession : ∀ {y}, y ∈ s.sessions → y ∈ s'.sessions := fun hy => (h.sessions _).2 (.inl hy)
  have hunique : UniqueTokens s' := hs.unique (· = r)
    (fun a ha => ((h.tokens a).1 ha).imp_left fun ha => ⟨a, ha, .refl a⟩)
    (fun _ _ ha hb => ha.trans hb.symm) fun _ ha => ha ▸ h.freshToken
  constructor
  case account =>
    intro y hy
    rw [h.dir]
    rcases (h.sessions y).1 hy with hy | rfl
    · exact hs.account y hy
    · exact h.account
  case session =>
    intro y hy
    rcases (h.sessions y).1 hy with hy | rfl
    · exact hs.session y hy
    · exact h.session.1
  case token =>
    intro q hq
    rcases (h.tokens q).1 hq with hq | rfl
    · exact hs.token q hq
    · exact h.token.1
  case parent =>
    intro q hq
    rcases (h.tokens q).1 hq with hq | rfl
    · obtain ⟨y, hy, hid, he⟩ := hs.parent q hq
      exact ⟨y, oldSession hy, hid, he⟩
    · exact ⟨x, (h.sessions x).2 (.inr rfl), hsession.symm, hexpires⟩
  case live =>
    intro q hq hl y hy hid
    rcases (h.tokens q).1 hq with hq | rfl <;> rcases (h.sessions y).1 hy with hy | rfl
    · exact hs.live q hq hl y hy hid
    · exact (apart q hq hid.symm).elim
    · exact (h.freshSession y hy (hid.trans hsession)).elim
    · exact ⟨h.session.2, hgeneration⟩
  case held =>
    intro y hy hopen
    rcases (h.sessions y).1 hy with hy | rfl
    · obtain ⟨q, hq, hid, hl⟩ := hs.held y hy hopen
      exact ⟨q, old hq, hid, hl⟩
    · exact ⟨r, (h.tokens r).2 (.inr rfl), hsession, h.token.2⟩
  case hash => exact hunique.hash
  case generation => exact hunique.generation

/-- CREATE: a new session with its first token. -/
theorem createSession_advances [DecidableEq δ]
    (h : s.createSession texts principalId label new τ = .ok s') :
    Advances τ s s' := by
  obtain ⟨x, r, hc, hx⟩ := createSession_creates h
  refine ⟨hc.sound, ⟨?_, ?_⟩, fun now hn hw => ⟨?_, ?_, hc.dir ▸ hw.head⟩⟩
  · exact fun y hy => ⟨y, (hc.sessions y).2 (.inl hy), rfl, rfl, rfl, id⟩
  · exact fun q hq => ⟨q, (hc.tokens q).2 (.inl hq), rfl, rfl, id⟩
  · intro y hy
    rcases (hc.sessions y).1 hy with hy | rfl
    · exact hw.session y hy
    · rw [hx]; exact hn
  · intro q hq
    rcases (hc.tokens q).1 hq with hq | rfl
    · exact hw.token q hq
    · rw [hc.first.2.2.2, hx]; exact hn

/-! ### Exchanging -/

def Exchanged.session (x : Session) (generation : Nat) (τ : Int) : Session :=
  { x with refreshGeneration := generation, lastSeenAt := τ }

def Exchanged.token (r : RefreshToken δ) (replacementId : String) (τ : Int) :
    RefreshToken δ :=
  { r with consumedAt := some τ, replacedByTokenId := some replacementId }

/-- The token `r` of `x` was exchanged for `q`, of the next generation. -/
structure Exchanges (x : Session) (r q : RefreshToken δ) (τ : Int) (s s' : Hub δ) :
    Prop where
  dir : s.dir.Edited τ s'.dir
  sessions : ∀ y, y ∈ s'.sessions ↔
    (y ∈ s.sessions ∧ y ≠ x) ∨ y = Exchanged.session x q.generation τ
  tokens : ∀ a, a ∈ s'.tokens ↔
    (a ∈ s.tokens ∧ a ≠ r) ∨ a = q ∨ a = Exchanged.token r q.id τ
  checked : (Exchanged.session x q.generation τ).check = true ∧
    (Exchanged.token r q.id τ).check = true
  new : q.check = true ∧ q.live = true ∧ q.deviceSessionId = x.id ∧
    q.expiresAt = x.expiresAt ∧ q.createdAt = τ
  fresh : ∀ a ∈ s.tokens, a.tokenHash ≠ q.tokenHash ∧
    (a.deviceSessionId = q.deviceSessionId → a.generation ≠ q.generation)
  was : x ∈ s.sessions ∧ r ∈ s.tokens ∧ r.live = true ∧ r.deviceSessionId = x.id ∧
    x.revokedAt = none ∧ r.generation = x.refreshGeneration

lemma consume_ok {replacementId : String} (hr : r ∈ s.tokens) (hl : r.live = true)
    (h : s.consume r.id replacementId τ = .ok s') :
    s'.dir = s.dir ∧ s'.sessions = s.sessions ∧
    (∀ a, a ∈ s'.tokens ↔ (a ∈ s.tokens ∧ a ≠ r) ∨
      a = Exchanged.token r replacementId τ) ∧
    (Exchanged.token r replacementId τ).check = true := by
  obtain ⟨t, ht, h⟩ := found_ok h
  obtain ⟨_, _, h⟩ := bind_ok h
  cases h
  obtain ⟨rfl, hok⟩ := update?_eq_some ht
  have hit : (decide (r.id = r.id) && r.live) = true := by simp [hl]
  refine ⟨rfl, rfl, fun a => mem_updateWhere_key hr hit (by simp +contextual), ?_⟩
  have hbecome := hok r hr hit
  simp only [RefreshToken.mayBecome, Bool.and_eq_true] at hbecome
  exact hbecome.1.1.1

lemma advance_ok {generation : Nat} (hx : x ∈ s.sessions) (hopen : x.revokedAt = none)
    (h : s.advance x.id generation τ = .ok s') :
    s'.dir = s.dir ∧ s'.tokens = s.tokens ∧
    (∀ y, y ∈ s'.sessions ↔ (y ∈ s.sessions ∧ y ≠ x) ∨
      y = Exchanged.session x generation τ) ∧
    (Exchanged.session x generation τ).check = true := by
  obtain ⟨t, ht, h⟩ := found_ok h
  cases h
  obtain ⟨rfl, hok⟩ := update?_eq_some ht
  have hit : (decide (x.id = x.id) && x.revokedAt.isNone) = true := by simp [hopen]
  refine ⟨rfl, rfl, fun y => mem_updateWhere_key hx hit (by simp +contextual), ?_⟩
  have hbecome := hok x hx hit
  simp only [Session.mayBecome, Bool.and_eq_true] at hbecome
  exact hbecome.1.1.1

lemma rotate_exchanges [DecidableEq δ] {replacement replacementId : String} (hx : x ∈ s.sessions)
    (hr : r ∈ s.tokens) (hid : r.deviceSessionId = x.id) (hc : r.consumedAt = none)
    (hg : r.generation = x.refreshGeneration)
    (h : s.rotate texts r x p replacement replacementId τ = .ok s') :
    ∃ q, Exchanges x r q τ s s' := by
  obtain ⟨_, hopen, h⟩ := bind_ok h
  obtain ⟨s1, h1, h⟩ := bind_ok h
  obtain ⟨s2, h2, h⟩ := bind_ok h
  obtain ⟨s3, h3, h⟩ := bind_ok h
  obtain ⟨d, hd, h⟩ := bind_ok h
  cases h
  replace hopen := refuseIf_ok hopen
  simp only [not_or, Bool.not_eq_true, Option.isSome_eq_false_iff,
    Option.isNone_iff_eq_none] at hopen
  obtain ⟨hrev, hxrev, _⟩ := hopen
  have hl : r.live = true := by simp [RefreshToken.live, hc, hrev]
  obtain ⟨hd1, hs1, hm1, hc1, hu1, hn1⟩ := insertToken_ok h1
  generalize hq : RefreshToken.mk replacementId x.id _ _ _ _ _ _ _ = q at hm1 hc1 hu1 hn1
  have hne : q ≠ r := fun heq => hn1 r hr (heq ▸ rfl)
  obtain ⟨hd2, hs2, hm2, hc2⟩ := consume_ok ((hm1 r).2 (.inl hr)) hl h2
  obtain ⟨hd3, ht3, hm3, hc3⟩ := advance_ok (hs2 ▸ hs1 ▸ hx) hxrev h3
  have edited : s.dir.Edited τ d := by
    have := Directory.auditPrincipalTeams_edited hd
    rwa [hd3, hd2, hd1] at this
  have exchanged : ∀ a, a ∈ s3.tokens ↔
      (a ∈ s.tokens ∧ a ≠ r) ∨ a = q ∨ a = Exchanged.token r replacementId τ := by
    intro a
    rw [ht3, hm2, hm1]
    constructor
    · rintro (⟨ha | rfl, har⟩ | rfl)
      · exact .inl ⟨ha, har⟩
      · exact .inr (.inl rfl)
      · exact .inr (.inr rfl)
    · rintro (⟨ha, har⟩ | rfl | rfl)
      · exact .inl ⟨.inl ha, har⟩
      · exact .inl ⟨.inr rfl, hne⟩
      · exact .inr rfl
  subst hq
  exact ⟨_, edited, hs1 ▸ hs2 ▸ hm3, exchanged, ⟨hc3, hc2⟩, ⟨hc1, rfl, rfl, rfl, rfl⟩, hu1,
    hx, hr, hl, hid, hxrev, hg⟩

section
variable {x : Session} {r q : RefreshToken δ} (h : Exchanges x r q τ s s')
include h

/-- A token after an exchange is the new one or was there before. -/
lemma Exchanges.tokenWas {a' : RefreshToken δ} (ha' : a' ∈ s'.tokens) :
    (∃ a ∈ s.tokens, SameToken a' a) ∨ a' = q := by
  rcases (h.tokens a').1 ha' with ⟨ha, _⟩ | rfl | rfl
  · exact .inl ⟨a', ha, .refl a'⟩
  · exact .inr rfl
  · exact .inl ⟨r, h.was.2.1, rfl, rfl, rfl, rfl, rfl, rfl⟩

lemma Exchanges.later : Later s s' where
  session y hy := by
    by_cases hyx : y = x
    · subst hyx
      exact ⟨_, (h.sessions _).2 (.inr rfl), rfl, rfl, rfl, id⟩
    · exact ⟨y, (h.sessions y).2 (.inl ⟨hy, hyx⟩), rfl, rfl, rfl, id⟩
  token a ha := by
    by_cases har : a = r
    · subst har
      exact ⟨_, (h.tokens _).2 (.inr (.inr rfl)), rfl, rfl, fun _ => rfl⟩
    · exact ⟨a, (h.tokens a).2 (.inl ⟨ha, har⟩), rfl, rfl, id⟩

lemma Exchanges.live (hs : s.Sound) {a : RefreshToken δ} (ha : a ∈ s'.tokens)
    (hl : a.live = true) {y : Session} (hy : y ∈ s'.sessions) (hid : y.id = a.deviceSessionId) :
    y.revokedAt = none ∧ a.generation = y.refreshGeneration := by
  obtain ⟨hx, hr, hrl, hrx, hopen, hg⟩ := h.was
  have other : ∀ z ∈ s.sessions, z ≠ x → z.id ≠ x.id :=
    fun z hz hne heq => hne (s.sessions.eq_of_key hz hx heq)
  rcases (h.tokens a).1 ha with ⟨ha, har⟩ | rfl | rfl
  · rcases (h.sessions y).1 hy with ⟨hy, _⟩ | rfl
    · exact hs.live a ha hl y hy hid
    · -- another live token of `x` would be of its generation, hence the exchanged one
      have hag := (hs.live a ha hl x hx hid).2
      exact (har (hs.generation a ha r hr (hid.symm.trans hrx.symm) (hag.trans hg.symm))).elim
  · rcases (h.sessions y).1 hy with ⟨hy, hyx⟩ | rfl
    · exact (other y hy hyx (hid.trans h.new.2.2.1)).elim
    · exact ⟨hopen, rfl⟩
  · simp [Exchanged.token, RefreshToken.live] at hl

lemma Exchanges.unique (hs : s.Sound) : UniqueTokens s' :=
  hs.unique (· = q) (fun _ => h.tokenWas) (fun _ _ ha hb => ha.trans hb.symm) fun _ ha => ha ▸ h.fresh

lemma Exchanges.sound (hs : s.Sound) : s'.Sound := by
  obtain ⟨hx, hr, _, hrx, _, _⟩ := h.was
  obtain ⟨hqc, hql, hqx, hqe, _⟩ := h.new
  constructor
  case account =>
    intro y hy
    rcases (h.sessions y).1 hy with ⟨hy, _⟩ | rfl
    · exact h.dir.human (hs.account y hy)
    · exact h.dir.human (hs.account x hx)
  case session =>
    intro y hy
    rcases (h.sessions y).1 hy with ⟨hy, _⟩ | rfl
    · exact hs.session y hy
    · exact h.checked.1
  case token =>
    intro a ha
    rcases (h.tokens a).1 ha with ⟨ha, _⟩ | rfl | rfl
    · exact hs.token a ha
    · exact hqc
    · exact h.checked.2
  case parent =>
    intro a ha
    rcases h.tokenWas ha with ⟨a0, ha0, hsame⟩ | rfl
    · exact hs.parentOf h.later ha0 hsame
    · exact ⟨_, (h.sessions _).2 (.inr rfl), hqx.symm, hqe⟩
  case live => exact fun a ha hl y hy hid => h.live hs ha hl hy hid
  case held =>
    intro y hy hopen
    rcases (h.sessions y).1 hy with ⟨hy, hyx⟩ | rfl
    · obtain ⟨a, ha, hid, hl⟩ := hs.held y hy hopen
      have har : a ≠ r := by
        rintro rfl
        exact hyx (s.sessions.eq_of_key hy hx (hid.symm.trans hrx))
      exact ⟨a, (h.tokens a).2 (.inl ⟨ha, har⟩), hid, hl⟩
    · exact ⟨q, (h.tokens q).2 (.inr (.inl rfl)), hqx, hql⟩
  case hash => exact (h.unique hs).hash
  case generation => exact (h.unique hs).generation

/-- EXCHANGE: one token for the next. -/
theorem Exchanges.advances : Advances τ s s' where
  sound := h.sound
  later := h.later
  within now hn hw := by
    refine ⟨fun y hy => ?_, fun a ha => ?_, fun k hk => ?_⟩
    · rcases (h.sessions y).1 hy with ⟨hy, _⟩ | rfl
      · exact hw.session y hy
      · exact hw.session x h.was.1
    · rcases h.tokenWas ha with ⟨a0, ha0, hsame⟩ | rfl
      · rw [hsame.created]; exact hw.token a0 ha0
      · rw [h.new.2.2.2.2]; exact hn
    · rcases h.dir.head k hk with hk | rfl
      · exact hw.head k hk
      · exact hn

end

end

end Hub

end TeamHub
