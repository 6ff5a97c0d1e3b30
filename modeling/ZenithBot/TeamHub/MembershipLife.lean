import ZenithBot.TeamHub.Invitations

/-! The life of a human membership over whole runs of the hub. Each call is first inverted into the
    one write it makes to memberships and invitations (`Change`); from that list follow what a step
    keeps (`Lawful`) and, by induction over the run, where the role of every membership comes from
    (`RoleFrom`).

        bootstrap ─────────▶ owner, active            never written again
        redeem / accept ───▶ role of the invitation ──▶ role an owner assigns ──▶ …
                             active ◀──▶ suspended ──▶ revoked   never written again -/

namespace TeamHub
open Lib Table

variable {δ : Type}
variable {m m' : Membership} {i : Invitation δ} {d : Directory δ} {actor p team : String} {t : Int}
  {d' : Directory δ}

namespace Directory

/-! ### The invariant -/

/-- A person has one membership in a team, and the role of a membership suits its principal. -/
structure Joined (d : Directory δ) : Prop where
  one : ∀ m ∈ d.memberships, ∀ m' ∈ d.memberships, m.teamId = m'.teamId →
    m.principalId = m'.principalId → m = m'
  compatible : ∀ m ∈ d.memberships, d.compatible m = true

lemma compatible_iff : d.compatible m = true ↔
    ∃ p ∈ d.principals, p.id = m.principalId ∧
      (if m.role = .automation then p.kind.isService else p.kind.isHuman) = true := by
  unfold compatible
  constructor
  · intro h
    split at h
    · rename_i p hp
      exact ⟨p, find?_mem hp, find?_key hp, h⟩
    · cases h
  · rintro ⟨p, hp, hid, h⟩
    rw [find?_eq_some.2 ⟨hp, hid⟩]
    exact h

/-- More principals suit as many memberships. -/
lemma compatible_mono (h : ∀ p ∈ d.principals, p ∈ d'.principals) (hm : d.compatible m = true) :
    d'.compatible m = true := by
  obtain ⟨p, hp, hid, hk⟩ := compatible_iff.1 hm
  exact compatible_iff.2 ⟨p, h p hp, hid, hk⟩

lemma Joined.of_memberships (hd : d.Joined)
    (hp : ∀ p ∈ d.principals, p ∈ d'.principals) (hm : d'.memberships = d.memberships) : d'.Joined := by
  refine ⟨by rw [hm]; exact hd.one, fun m hm' => ?_⟩
  rw [hm] at hm'
  exact compatible_mono hp (hd.compatible m hm')

/-- A membership of a person is not the automation membership of a service. -/
lemma Joined.role_of_human (hd : d.Joined) (hm : m ∈ d.memberships)
    (hp : (d.human? m.principalId).isSome = true) : m.role ≠ .automation := by
  intro hr
  obtain ⟨p, hpm, hid, hk⟩ := compatible_iff.1 (hd.compatible m hm)
  rw [if_pos hr] at hk
  obtain ⟨q, hq⟩ := Option.isSome_iff_exists.1 hp
  obtain ⟨hf, hh⟩ := Option.filter_eq_some_iff.1 hq
  have same : p = q :=
    d.principals.eq_of_key hpm (find?_mem hf) (hid.trans (find?_key hf).symm)
  subst same
  cases hkind : p.kind <;> simp [hkind, Kind.isHuman, Kind.isService] at hk hh

lemma membership?_mem (h : d.membership? team p = some m) :
    m ∈ d.memberships ∧ m.teamId = team ∧ m.principalId = p :=
  ⟨List.mem_of_find?_eq_some h, by simpa using List.find?_some h⟩

lemma membership?_none (h : d.membership? team p = none) :
    ∀ m ∈ d.memberships, m.teamId = team → m.principalId ≠ p := by
  intro m hm hteam
  simpa [hteam] using List.find?_eq_none.1 h m hm

/-! ### Statements -/

section
variable {d d' : Directory δ}
variable {bad membershipId : String} {d'' : Directory δ}

lemma insertPrincipal_ok {p : Principal} (h : d.insertPrincipal p = .ok d') :
    d'.memberships = d.memberships ∧ d'.invitations = d.invitations ∧
      ∀ q, q ∈ d'.principals ↔ q ∈ d.principals ∨ q = p := by
  iterate 2 obtain ⟨_, _, h⟩ := bind_ok h
  obtain ⟨t, ht, h⟩ := found_ok h
  cases h
  exact ⟨rfl, rfl, fun q => mem_insert? ht⟩

lemma insertMembership_ok (h : d.insertMembership m = .ok d') :
    d'.principals = d.principals ∧ d'.invitations = d.invitations ∧
      (∀ n, n ∈ d'.memberships ↔ n ∈ d.memberships ∨ n = m) ∧ d.compatible m = true ∧
      (∀ n ∈ d.memberships, n.id ≠ m.id) ∧
      ∀ n ∈ d.memberships, n.teamId = m.teamId → n.principalId ≠ m.principalId := by
  obtain ⟨_, _, h⟩ := bind_ok h
  obtain ⟨hc, h⟩ := refuse_ok h
  obtain ⟨hn, h⟩ := refuse_ok h
  obtain ⟨_, _, h⟩ := bind_ok h
  obtain ⟨t, ht, h⟩ := found_ok h
  cases h
  refine ⟨rfl, rfl, fun n => mem_insert? ht, by simpa using hc,
    (insert?_eq_some ht).2, membership?_none ?_⟩
  simpa using hn

/-- A membership written beside others of its team and person keeps the invariant. -/
lemma Joined.write (hd : d.Joined) (hc : d.compatible m = true) (hp : d'.principals = d.principals)
    (hm : ∀ n ∈ d'.memberships, n = m ∨ n ∈ d.memberships ∧
      (n.teamId = m.teamId → n.principalId ≠ m.principalId)) : d'.Joined := by
  constructor
  · intro a ha b hb hteam hid
    rcases hm a ha with rfl | ⟨ha, hne⟩ <;> rcases hm b hb with rfl | ⟨hb, hne'⟩
    · rfl
    · exact (hne' hteam.symm hid.symm).elim
    · exact (hne hteam hid).elim
    · exact hd.one a ha b hb hteam hid
  · intro a ha
    refine compatible_mono (fun p h => hp ▸ h) ?_
    rcases hm a ha with rfl | ⟨ha, _⟩
    · exact hc
    · exact hd.compatible a ha

lemma Joined.insertMembership (hd : d.Joined) (h : d.insertMembership m = .ok d') : d'.Joined := by
  obtain ⟨hp, _, hm, hc, _, hnew⟩ := insertMembership_ok h
  refine hd.write hc hp fun n hn => ?_
  rcases (hm n).1 hn with hn | rfl
  · exact .inr ⟨hn, hnew n hn⟩
  · exact .inl rfl

/-- Nothing that matters to memberships changed but for services and their automation. -/
structure Serves (d d' : Directory δ) : Prop where
  principals : ∀ p ∈ d.principals, p ∈ d'.principals
  old : ∀ m ∈ d.memberships, m ∈ d'.memberships
  new : ∀ m ∈ d'.memberships, m ∈ d.memberships ∨ m.role = .automation
  invitations : d'.invitations = d.invitations
  joined : d.Joined → d'.Joined

lemma Serves.of_eq (hp : d'.principals = d.principals) (hm : d'.memberships = d.memberships)
    (hi : d'.invitations = d.invitations) : d.Serves d' where
  principals _ h := hp ▸ h
  old _ h := hm ▸ h
  new _ h := .inl (hm ▸ h)
  invitations := hi
  joined h := h.of_memberships (fun _ h => hp ▸ h) hm

lemma Serves.trans (h : d.Serves d') (h' : d'.Serves d'') : d.Serves d'' where
  principals p hp := h'.principals p (h.principals p hp)
  old m hm := h'.old m (h.old m hm)
  new m hm := (h'.new m hm).elim (h.new m) .inr
  invitations := h'.invitations.trans h.invitations
  joined hd := h'.joined (h.joined hd)

lemma Serves.insertPrincipal {p : Principal} (h : d.insertPrincipal p = .ok d') :
    d.Serves d' := by
  obtain ⟨hm, hi, hp⟩ := insertPrincipal_ok h
  have kept : ∀ q ∈ d.principals, q ∈ d'.principals := fun q hq => (hp q).2 (.inl hq)
  exact ⟨kept, fun m h => hm ▸ h, fun m h => .inl (hm ▸ h), hi, fun hd => hd.of_memberships kept hm⟩

lemma audit_same (h : d.audit team actor t = .ok d') :
    d'.principals = d.principals ∧ d'.memberships = d.memberships ∧
      d'.invitations = d.invitations := by
  iterate 3 obtain ⟨_, _, h⟩ := bind_ok h
  cases h
  exact ⟨rfl, rfl, rfl⟩

lemma Serves.ensureService {p : Principal} (h : d.ensureService p bad = .ok d') : d.Serves d' := by
  unfold Directory.ensureService at h
  split at h
  · exact .insertPrincipal h
  · obtain ⟨_, _, h⟩ := bind_ok h
    cases h
    exact .of_eq rfl rfl rfl

lemma Serves.ensureAutomation (hr : m.role = .automation) (h : d.ensureAutomation m bad = .ok d') :
    d.Serves d' := by
  unfold Directory.ensureAutomation at h
  split at h
  · obtain ⟨hp, hi, hm, _⟩ := insertMembership_ok h
    refine ⟨fun p h => hp ▸ h, fun n hn => (hm n).2 (.inl hn), fun n hn => ?_, hi,
      fun hd => hd.insertMembership h⟩
    rcases (hm n).1 hn with hn | rfl
    · exact .inl hn
    · exact .inr hr
  · obtain ⟨_, _, h⟩ := bind_ok h
    cases h
    exact .of_eq rfl rfl rfl

lemma Serves.servicePrincipal {id identifier name bad' teamId : String}
    (h : servicePrincipal id identifier name bad bad' d teamId membershipId t = .ok d') :
    d.Serves d' := by
  obtain ⟨_, h1, h2⟩ := bind_ok h
  exact (ensureService h1).trans (ensureAutomation rfl h2)

/-- A role check that passed: the membership it read. -/
lemma requireTeamRole_ok {allowed : List Role} (h : d.requireTeamRole team p allowed = .ok m) :
    m ∈ d.memberships ∧ m.teamId = team ∧ m.principalId = p ∧ m.status = .active := by
  obtain ⟨m', hm, h⟩ := found_ok h
  obtain ⟨-, h⟩ := refuse_ok h
  cases h
  obtain ⟨hf, hactive⟩ := Option.filter_eq_some_iff.1 hm
  obtain ⟨hmem, hteam, hp⟩ := membership?_mem hf
  simp only [Bool.and_eq_true, decide_eq_true_eq] at hactive
  exact ⟨hmem, hteam, hp, hactive.1⟩

lemma requireTeamOwner_ok {teamId : String} (h : d.requireTeamOwner p team = .ok teamId) :
    identity? team = some teamId ∧ ∃ o ∈ d.memberships, o.teamId = teamId ∧ o.principalId = p ∧
      o.role = .owner ∧ o.status = .active := by
  obtain ⟨t, ht, h⟩ := found_ok h
  obtain ⟨o, ho, h⟩ := bind_ok h
  obtain ⟨hr, h⟩ := refuse_ok h
  cases h
  obtain ⟨hm, hteam, hp, hs⟩ := requireTeamRole_ok (mapError_ok ho)
  exact ⟨ht, o, hm, hteam, hp, by simpa using hr, hs⟩

/-! ### Redeeming -/

def redeemedRow (i : Invitation δ) (principalId : String) (t : Int) : Invitation δ :=
  { i with redeemedAt := some t, redeemedByPrincipalId := some principalId }

/-- Neither redeemed nor revoked nor expired. -/
def openAt (t : Int) (i : Invitation δ) : Prop :=
  i.redeemedAt = none ∧ i.revokedAt = none ∧ t < i.expiresAt

def IssuerActs (d : Directory δ) (i : Invitation δ) : Prop :=
  ∃ o ∈ d.memberships, o.teamId = i.teamId ∧ o.principalId = i.issuedByPrincipalId ∧
    o.status = .active ∧ (o.role = .owner ∨ o.role = .admin)

/-- The account of the person carries the address that the invitation names. -/
def Names (d : Directory δ) (i : Invitation δ) (principalId : String) : Prop :=
  ∃ email, i.inviteeEmailNormalized = some email ∧
    ∃ p ∈ d.principals, p.id = principalId ∧ p.kind = .human email

structure Redeems (d d' : Directory δ) (i : Invitation δ) (principalId : String)
    (t : Int) : Prop where
  mem : i ∈ d.invitations
  isOpen : openAt t i
  issuer : d.IssuerActs i
  person : d'.Names i principalId
  invitations : ∀ x, x ∈ d'.invitations ↔
    (x ∈ d.invitations ∧ x ≠ i) ∨ x = redeemedRow i principalId t
  memberships : d'.memberships = d.memberships ∨
    ∃ m, m.teamId = i.teamId ∧ m.principalId = principalId ∧ m.role = i.role ∧
      (∀ n ∈ d.memberships, n.id ≠ m.id) ∧
      ∀ n, n ∈ d'.memberships ↔ n ∈ d.memberships ∨ n = m
  joined : d.Joined → d'.Joined

lemma grantMembership_ok (h : d.grantMembership i p membershipId t = .ok d') :
    d'.principals = d.principals ∧ d'.invitations = d.invitations ∧
      (d'.memberships = d.memberships ∨
        ∃ m, m.teamId = i.teamId ∧ m.principalId = p ∧ m.role = i.role ∧
          (∀ n ∈ d.memberships, n.id ≠ m.id) ∧
          ∀ n, n ∈ d'.memberships ↔ n ∈ d.memberships ∨ n = m) ∧
      (d.Joined → d'.Joined) := by
  unfold grantMembership at h
  split at h
  · obtain ⟨_, _, h⟩ := bind_ok h
    cases h
    exact ⟨rfl, rfl, .inl rfl, id⟩
  · obtain ⟨hp, hi, hm, _, hid, _⟩ := insertMembership_ok h
    exact ⟨hp, hi, .inr ⟨_, rfl, rfl, rfl, hid, hm⟩, fun hd => hd.insertMembership h⟩

lemma markRedeemed_ok (hi : i ∈ d.invitations) (hopen : openAt t i)
    (h : d.markRedeemed i.id p t = .ok d') :
    d'.principals = d.principals ∧ d'.memberships = d.memberships ∧
      ∀ x, x ∈ d'.invitations ↔ (x ∈ d.invitations ∧ x ≠ i) ∨ x = redeemedRow i p t := by
  obtain ⟨ts, ht, h⟩ := found_ok h
  obtain ⟨_, _, h⟩ := bind_ok h
  cases h
  obtain ⟨rfl, _⟩ := update?_eq_some ht
  refine ⟨rfl, rfl, fun x => mem_updateWhere_key hi ?_ (by simp +contextual)⟩
  simp [hopen.1, hopen.2.1, hopen.2.2]

lemma redeemInvitation_redeems [DecidableEq δ] {digest : δ}
    (h : d.redeemInvitation digest p membershipId t = .ok d') : ∃ i, Redeems d d' i p t := by
  obtain ⟨i, hfind, h⟩ := found_ok h
  obtain ⟨hterm, h⟩ := refuse_ok h
  obtain ⟨person, hperson, h⟩ := found_ok h
  obtain ⟨hemail, h⟩ := refuse_ok h
  obtain ⟨d1, hgrant, hmark⟩ := bind_ok h
  have hmem : i ∈ d.invitations := List.mem_of_find?_eq_some hfind
  have hsel := List.find?_some hfind
  simp only [Bool.and_eq_true, List.any_eq_true, decide_eq_true_eq, Bool.or_eq_true] at hsel
  obtain ⟨⟨_, o, ho, ⟨⟨⟨hteam, hissuer⟩, hstatus⟩, hrole⟩⟩, _⟩ := hsel
  have hopen : openAt t i := by
    simpa only [openAt, not_or, Bool.not_eq_true, Option.isSome_eq_false_iff,
      Option.isNone_iff_eq_none, Int.not_le] using hterm
  obtain ⟨hp1, hi1, hm1, hj1⟩ := grantMembership_ok hgrant
  obtain ⟨hp2, hm2, hi2⟩ := markRedeemed_ok (hi1 ▸ hmem) hopen hmark
  have named : d.Names i p := by
    obtain ⟨hfound, _⟩ := Option.filter_eq_some_iff.1 hperson
    obtain ⟨hf, _⟩ := Option.filter_eq_some_iff.1 hfound
    have hany := Decidable.not_not.1 hemail
    cases he : i.inviteeEmailNormalized with
    | none => simp [he] at hany
    | some email =>
      exact ⟨email, he, person, find?_mem hf, find?_key hf, by simpa [he] using hany⟩
  refine ⟨i, hmem, hopen, ⟨o, ho, hteam, hissuer, hstatus, hrole⟩, ?_, ?_, ?_, ?_⟩
  · obtain ⟨email, he, q, hq, hqp⟩ := named
    exact ⟨email, he, q, by rw [hp2, hp1]; exact hq, hqp⟩
  · rwa [hi1] at hi2
  · rwa [hm2]
  · exact fun hd => (hj1 hd).of_memberships (fun q hq => by rw [hp2]; exact hq) hm2

/-- A redemption is one also after an account was created for it. -/
lemma Redeems.after_insertPrincipal {d0 : Directory δ} {q : Principal}
    (hq : d0.insertPrincipal q = .ok d) (h : Redeems d d' i p t) : Redeems d0 d' i p t := by
  obtain ⟨hm, hi, hp⟩ := insertPrincipal_ok hq
  obtain ⟨mem, isOpen, issuer, person, invitations, memberships, joined⟩ := h
  rw [hi] at mem invitations
  rw [hm] at memberships
  unfold IssuerActs at issuer
  rw [hm] at issuer
  exact ⟨mem, isOpen, issuer, person, invitations, memberships,
    fun hd => joined ((Serves.insertPrincipal hq).joined hd)⟩

lemma Redeems.audited {u : Int} (h : Redeems d d' i p t)
    (ha : d'.audit team actor u = .ok d'') : Redeems d d'' i p t := by
  obtain ⟨hp, hm, hi⟩ := audit_same ha
  obtain ⟨mem, isOpen, issuer, person, invitations, memberships, joined⟩ := h
  refine ⟨mem, isOpen, issuer, ?_, by rwa [hi], by rwa [hm],
    fun hd => (Serves.of_eq hp hm hi).joined (joined hd)⟩
  unfold Names
  rw [hp]
  exact person

/-! ### Administration -/

/-- The membership `m` was rewritten to `f m`; nothing else changed. -/
lemma updateMembership_ok (hd : d.Joined) {f : Membership → Membership} {hf : ∀ m, (f m).id = m.id}
    (hm : m ∈ d.memberships) (h : d.updateMembership m.teamId m.principalId f hf = .ok d') :
    d'.principals = d.principals ∧ d'.invitations = d.invitations ∧ d.compatible (f m) = true ∧
      ∀ n, n ∈ d'.memberships ↔ (n ∈ d.memberships ∧ n ≠ m) ∨ n = f m := by
  obtain ⟨t, ht, h⟩ := found_ok h
  cases h
  obtain ⟨rfl, hok⟩ := update?_eq_some ht
  have hits : ∀ n ∈ d.memberships, (decide (n.teamId = m.teamId) &&
      decide (n.principalId = m.principalId)) = true ↔ n = m := by
    intro n hn
    constructor
    · intro h
      simp only [Bool.and_eq_true, decide_eq_true_eq] at h
      exact hd.one n hn m hm h.1 h.2
    · rintro rfl
      simp
  have hc := hok m hm ((hits m hm).2 rfl)
  simp only [Bool.and_eq_true] at hc
  exact ⟨rfl, rfl, hc.2, fun n => mem_updateWhere_one hm hits⟩

end

end Directory

namespace Hub

open Directory

/-! ### What a call writes -/

/-- The row of a membership after `update_human_membership`. -/
def rewritten (m : Membership) (role : Option Role) (status : Option Status) (t : Int) :
    Membership :=
  { m with role := role.getD m.role, status := status.getD m.status, updatedAt := t }

/-- The one write of a committed call to memberships and invitations. -/
inductive Change (d d' : Directory δ) : Call δ → Prop
  | founded {host : Host} {q : BootstrapRequest} {t : Int} (m : Membership)
      (none : ∀ n, n ∉ d.memberships) (invitations : d'.invitations = d.invitations)
      (owner : m.role = .owner) (mem : m ∈ d'.memberships)
      (new : ∀ n ∈ d'.memberships, n = m ∨ n.role = .automation) :
      Change d d' (.bootstrap host q t)
  | issued {claims : AccessClaims} {q : IssueRequest} {t : Int} (i : Invitation δ)
      (memberships : d'.memberships = d.memberships) (isOpen : i.redeemedAt = none)
      (fresh : ∀ x ∈ d.invitations, x.id ≠ i.id)
      (invitations : ∀ x, x ∈ d'.invitations ↔ x ∈ d.invitations ∨ x = i) :
      Change d d' (.issueInvite claims q t)
  | withdrawn {claims : AccessClaims} {team id : String} {t : Int} (i : Invitation δ)
      (memberships : d'.memberships = d.memberships) (isOpen : i.redeemedAt = none)
      (mem : i ∈ d.invitations) (invitations : ∀ x, x ∈ d'.invitations ↔
        (x ∈ d.invitations ∧ x ≠ i) ∨ x = { i with revokedAt := some t }) :
      Change d d' (.revokeInvitation claims team id t)
  | joined {q : InviteRequest} {t : Int} (i : Invitation δ)
      (redeems : Redeems d d' i q.principalId t) : Change d d' (.redeemInvite q t)
  | accepted {claims : AccessClaims} {token id : String} {t : Int} (i : Invitation δ)
      (redeems : Redeems d d' i claims.principalId t) :
      Change d d' (.acceptInvite claims token id t)
  | updated {claims : AccessClaims} {team id : String} {role : Option Role}
      {status : Option Status} {t : Int} (m : Membership) (mem : m ∈ d.memberships)
      (team_eq : identity? team = some m.teamId) (id_eq : identity? id = some m.principalId)
      (one : role.isNone ≠ status.isNone) (kind : m.role ≠ .owner ∧ m.role ≠ .automation)
      (live : m.status ≠ .revoked)
      (owner : ∃ o ∈ d.memberships, o.teamId = m.teamId ∧ o.principalId = claims.principalId ∧
        o.role = .owner ∧ o.status = .active)
      (invitations : d'.invitations = d.invitations)
      (memberships : ∀ n, n ∈ d'.memberships ↔
        (n ∈ d.memberships ∧ n ≠ m) ∨ n = rewritten m role status t) :
      Change d d' (.updateHumanMembership claims team id role status t)
  | elsewhere {rest : Hub δ} (memberships : d'.memberships = d.memberships)
      (invitations : d'.invitations = d.invitations) : Change d d' (.elsewhere rest)

section
variable {d d' : Directory δ} {c : Call δ}

/-- A membership keeps its row, whatever is written into it; nothing is written into those of owners
    and revoked ones, nor into any by a redemption. -/
lemma Change.kept (h : Change d d' c) (hm : m ∈ d.memberships) :
    ∃ m' ∈ d'.memberships, m'.id = m.id ∧ m'.teamId = m.teamId ∧ m'.principalId = m.principalId ∧
      (m.role = .owner ∨ m.status = .revoked ∨ c.redeems = true → m' = m) := by
  by_cases still : m ∈ d'.memberships
  · exact ⟨m, still, rfl, rfl, rfl, fun _ => rfl⟩
  cases h with
  | founded _ hnone => exact (hnone m hm).elim
  | issued _ hm' | withdrawn _ hm' | elsewhere hm' => exact (still (hm' ▸ hm)).elim
  | joined i hr | accepted i hr =>
    rcases hr.memberships with hm' | ⟨n, _, _, _, _, hm'⟩
    · exact (still (hm' ▸ hm)).elim
    · exact (still ((hm' m).2 (.inl hm))).elim
  | updated n _ _ _ _ hkind hlive _ _ hmem =>
    obtain rfl : m = n := by_contra fun hne => still ((hmem m).2 (.inl ⟨hm, hne⟩))
    refine ⟨_, (hmem _).2 (.inr rfl), rfl, rfl, rfl, ?_⟩
    rintro (hw | hw | hw)
    · exact (hkind.1 hw).elim
    · exact (hlive hw).elim
    · cases hw

lemma Change.keeps (h : Change d d' c) (hm : m ∈ d.memberships)
    (hw : m.role = .owner ∨ m.status = .revoked ∨ c.redeems = true) : m ∈ d'.memberships := by
  obtain ⟨m', hm', _, _, _, same⟩ := h.kept hm
  exact same hw ▸ hm'

lemma Change.redeemed (h : Change d d' c) (hi : i ∈ d.invitations) (hr : i.redeemedAt.isSome = true) :
    i ∈ d'.invitations := by
  have other : ∀ {j : Invitation δ}, j.redeemedAt = none → i ≠ j := by
    rintro j hj rfl
    simp [hj] at hr
  cases h with
  | founded _ _ hi' | updated _ _ _ _ _ _ _ _ hi' | elsewhere _ hi' => rwa [hi']
  | issued _ _ _ _ hi' => exact (hi' i).2 (.inl hi)
  | withdrawn _ _ hopen _ hi' => exact (hi' i).2 (.inl ⟨hi, other hopen⟩)
  | joined _ hred | accepted _ hred =>
    exact (hred.invitations i).2 (.inl ⟨hi, other hred.isOpen.1⟩)

/-- An invitation that becomes redeemed does so by a redemption, with its guards. -/
lemma Change.redeems (h : Change d d' c) {i' : Invitation δ} (hi' : i' ∈ d'.invitations)
    (hr : i'.redeemedAt.isSome = true) :
    i' ∈ d.invitations ∨ ∃ p t, c.redeemer = some (p, t) ∧ ∃ i ∈ d.invitations,
      i' = redeemedRow i p t ∧ openAt t i ∧ d.IssuerActs i ∧ d'.Names i p := by
  cases h with
  | founded _ _ hi | updated _ _ _ _ _ _ _ _ hi | elsewhere _ hi => exact .inl (hi ▸ hi')
  | issued i _ hopen _ hi =>
    rcases (hi i').1 hi' with hi | rfl
    · exact .inl hi
    · simp [hopen] at hr
  | withdrawn i _ hopen _ hi =>
    rcases (hi i').1 hi' with ⟨hi, _⟩ | rfl
    · exact .inl hi
    · simp [hopen] at hr
  | joined i hred | accepted i hred =>
    rcases (hred.invitations i').1 hi' with ⟨hi, _⟩ | rfl
    · exact .inl hi
    · exact .inr ⟨_, _, rfl, i, hred.mem, rfl, hred.isOpen, hred.issuer, hred.person⟩

lemma Change.redemption (h : Change d d' c) (hc : c.redeemer = some (p, t)) :
    ∃ i ∈ d.invitations, openAt t i ∧ redeemedRow i p t ∈ d'.invitations := by
  cases h with
  | joined i hred | accepted i hred =>
    cases hc
    exact ⟨i, hred.mem, hred.isOpen, (hred.invitations _).2 (.inr rfl)⟩
  | _ => cases hc

end

section
variable {texts : Texts δ} {s s' : Hub δ} {t : Int} {status : Option Status}
  {role : Option Role}

lemma onDir_ok {f : Directory δ → Except Err (Directory δ)} (h : s.onDir f = .ok s') :
    f s.dir = .ok s'.dir := by
  obtain ⟨d, hd, h⟩ := bind_ok h
  cases h
  exact hd

lemma audit_serves (h : s.onDir (fun d => d.audit team actor t) = .ok s') : s.dir.Serves s'.dir := by
  obtain ⟨hp, hm, hi⟩ := audit_same (onDir_ok h)
  exact .of_eq hp hm hi

lemma consumeBootstrap_serves {claimId : String}
    (h : consumeBootstrap claimId p t d = .ok d') : d.Serves d' := by
  iterate 2 obtain ⟨_, _, h⟩ := bind_ok h
  cases h
  exact .of_eq rfl rfl rfl

lemma changeMembership_ok (hd : d.Joined) (hm : m ∈ d.memberships)
    (hone : role.isNone ≠ status.isNone) (h : changeMembership d m role status t = .ok d') :
    d'.principals = d.principals ∧ d'.invitations = d.invitations ∧
      d.compatible (rewritten m role status t) = true ∧
      ∀ n, n ∈ d'.memberships ↔
        (n ∈ d.memberships ∧ n ≠ m) ∨ n = rewritten m role status t := by
  cases role with
  | some r =>
    cases status with
    | some _ => exact (hone rfl).elim
    | none =>
      obtain ⟨_, _, h⟩ := bind_ok h
      exact updateMembership_ok hd hm h
  | none =>
    cases status with
    | some st => exact updateMembership_ok hd hm h
    | none => exact (hone rfl).elim

variable [DecidableEq δ] {claims : AccessClaims} {c : Call δ} {calls : List (Call δ)} {id : String}

lemma createSession_dir {label : String} {new : NewSession}
    (h : s.createSession texts p label new t = .ok s') : s'.dir = s.dir := by
  obtain ⟨_, _, h⟩ := bind_ok h
  obtain ⟨s1, h1, h2⟩ := bind_ok h
  iterate 3 obtain ⟨_, _, h1⟩ := bind_ok h1
  iterate 4 obtain ⟨_, _, h2⟩ := bind_ok h2
  cases h1
  cases h2
  rfl

section
variable (hd : s.dir.Joined) {q : BootstrapRequest}
include hd

omit [DecidableEq δ] in
/-- The founder's membership, in a directory that had none. -/
lemma bootstrapPersonalTeam_ok (hnone : ∀ n, n ∉ s.dir.memberships)
    (h : s.bootstrapPersonalTeam texts q t = .ok s') :
    s'.dir.Joined ∧ s'.dir.invitations = s.dir.invitations ∧
      ∃ m, m.role = .owner ∧ ∀ n, n ∈ s'.dir.memberships ↔ n = m := by
  iterate 2 obtain ⟨_, _, h⟩ := bind_ok h
  obtain ⟨s1, h1, h⟩ := bind_ok h
  obtain ⟨s2, h2, h3⟩ := bind_ok h
  have founder := Serves.insertPrincipal (onDir_ok h1)
  have team : s1.dir.Serves s2.dir := by
    cases h2
    exact .of_eq rfl rfl rfl
  have owner := onDir_ok h3
  obtain ⟨_, hi, hm, hc, _⟩ := insertMembership_ok owner
  have first := founder.trans team
  refine ⟨(first.joined hd).insertMembership owner, hi.trans first.invitations, _, rfl,
    fun n => ⟨fun hn => ?_, fun hn => (hm n).2 (.inr hn)⟩⟩
  rcases (hm n).1 hn with hn | rfl
  · -- nothing was there, and the founder is no service
    have bare : ∀ x, x ∉ s2.dir.memberships := by
      have h1' := (insertPrincipal_ok (onDir_ok h1)).1
      cases h2
      intro x hx
      exact hnone x (h1' ▸ hx)
    exact (bare n hn).elim
  · rfl

lemma bootstrap_change {host : Host} (h : s.bootstrap texts host q t = .ok s') :
    Change s.dir s'.dir (.bootstrap host q t) ∧ s'.dir.Joined := by
  obtain ⟨_, _, h⟩ := bind_ok h
  obtain ⟨hempty, h⟩ := refuse_ok h
  obtain ⟨claim, _, h⟩ := bind_ok h
  obtain ⟨_, _, h⟩ := bind_ok h
  obtain ⟨s1, h1, h⟩ := bind_ok h
  obtain ⟨s2, h2, h⟩ := bind_ok h
  obtain ⟨s3, h3, h⟩ := bind_ok h
  obtain ⟨s4, h4, h⟩ := bind_ok h
  obtain ⟨s5, h5, h6⟩ := bind_ok h
  have hnone : ∀ n, n ∉ s.dir.memberships := by
    simp only [globallyEmpty, Bool.not_eq_false, Bool.and_eq_true, List.isEmpty_iff] at hempty
    intro n hn
    rw [mem_def, hempty.1.2] at hn
    cases hn
  obtain ⟨hd1, hi1, m, hr, hm⟩ := bootstrapPersonalTeam_ok hd hnone h1
  have services := ((Serves.servicePrincipal (onDir_ok h2)).trans
    (Serves.servicePrincipal (onDir_ok h3))).trans (consumeBootstrap_serves (onDir_ok h4))
  have rest : s1.dir.Serves s'.dir := by
    have last := audit_serves h6
    rw [createSession_dir h5] at last
    exact services.trans last
  refine ⟨.founded m hnone (rest.invitations.trans hi1) hr (rest.old m ((hm m).2 rfl)) ?_,
    rest.joined hd1⟩
  intro n hn
  rcases rest.new n hn with hn | hn
  · exact .inl ((hm n).1 hn)
  · exact .inr hn

lemma issueInvite_change {q : IssueRequest} (h : s.issueInvite texts claims q t = .ok s') :
    Change s.dir s'.dir (.issueInvite claims q t) ∧ s'.dir.Joined := by
  obtain ⟨_, _, h⟩ := bind_ok (mapError_ok h)
  obtain ⟨s1, h1, h2⟩ := bind_ok h
  obtain ⟨_, _, h1⟩ := bind_ok (onDir_ok h1)
  obtain ⟨email, _, h1⟩ := bind_ok h1
  iterate 5 obtain ⟨_, _, h1⟩ := bind_ok h1
  obtain ⟨t, ht, h1⟩ := found_ok h1
  have hdir : s1.dir = { s.dir with invitations := t } := (Except.ok.inj h1).symm
  obtain ⟨hp, hm, hi⟩ := audit_same (onDir_ok h2)
  rw [hdir] at hp hm hi
  refine ⟨.issued _ hm rfl (insert?_eq_some ht).2 fun x => ?_, ?_⟩
  · rw [hi]
    exact mem_insert? ht
  · exact hd.of_memberships (fun _ h => hp ▸ h) hm

lemma revokeInvitation_change (h : s.revokeInvitation texts claims team id t = .ok s') :
    Change s.dir s'.dir (.revokeInvitation claims team id t) ∧ s'.dir.Joined := by
  obtain ⟨id', _, h⟩ := bind_ok h
  obtain ⟨_, _, h⟩ := bind_ok h
  obtain ⟨team', _, h⟩ := bind_ok h
  obtain ⟨s1, h1, h2⟩ := bind_ok h
  obtain ⟨rows, hrows, h1⟩ := found_ok (onDir_ok h1)
  obtain ⟨hone, h1⟩ := refuse_ok h1
  have hdir : s1.dir = { s.dir with invitations := rows } := (Except.ok.inj h1).symm
  obtain ⟨hp, hm, hi⟩ := audit_same (onDir_ok h2)
  rw [hdir] at hp hm hi
  -- the statement counted one open row with this id
  obtain ⟨i, hmem, hopen⟩ : ∃ i ∈ s.dir.invitations, (decide (i.id = id') &&
      decide (i.teamId = team') && i.redeemedAt.isNone && i.revokedAt.isNone &&
      decide (t < i.expiresAt)) = true := by
    have count := Decidable.not_not.1 hone
    exact List.countP_pos_iff.1 (by unfold Table.countWhere at count; omega)
  obtain ⟨rfl, _⟩ := update?_eq_some hrows
  refine ⟨.withdrawn i hm ?_ hmem fun x => ?_, ?_⟩
  · simp only [Bool.and_eq_true, Option.isNone_iff_eq_none] at hopen
    exact hopen.1.1.2
  · rw [hi]
    refine mem_updateWhere_key hmem hopen fun r h => ?_
    simp only [Bool.and_eq_true, decide_eq_true_eq] at h hopen
    exact h.1.1.1.1.trans hopen.1.1.1.1.symm
  · exact hd.of_memberships (fun _ h => hp ▸ h) hm

lemma redeemInvite_change {q : InviteRequest} (h : s.redeemInvite texts q t = .ok s') :
    Change s.dir s'.dir (.redeemInvite q t) ∧ s'.dir.Joined := by
  iterate 2 obtain ⟨_, _, h⟩ := bind_ok h
  obtain ⟨_, _, h⟩ := bind_ok (mapError_ok h)
  iterate 3 obtain ⟨_, _, h⟩ := bind_ok h
  obtain ⟨s1, h1, h⟩ := bind_ok h
  obtain ⟨s2, h2, h⟩ := bind_ok h
  obtain ⟨s3, h3, h4⟩ := bind_ok h
  obtain ⟨i, hr⟩ := redeemInvitation_redeems (onDir_ok h2)
  have audited := onDir_ok h4
  rw [createSession_dir h3] at audited
  have redeems := (hr.after_insertPrincipal (onDir_ok h1)).audited audited
  exact ⟨.joined i redeems, redeems.joined hd⟩

lemma acceptInvite_change {token id : String}
    (h : s.acceptInvite texts claims token id t = .ok s') :
    Change s.dir s'.dir (.acceptInvite claims token id t) ∧ s'.dir.Joined := by
  obtain ⟨_, _, h⟩ := bind_ok h
  obtain ⟨_, _, h⟩ := bind_ok (mapError_ok h)
  iterate 2 obtain ⟨_, _, h⟩ := bind_ok h
  obtain ⟨s1, h1, h2⟩ := bind_ok h
  obtain ⟨i, hr⟩ := redeemInvitation_redeems (onDir_ok h1)
  have redeems := hr.audited (onDir_ok h2)
  exact ⟨.accepted i redeems, redeems.joined hd⟩

end

lemma updateHumanMembership_change (hd : s.dir.Joined)
    (h : s.updateHumanMembership texts claims team id role status t = .ok s') :
    Change s.dir s'.dir (.updateHumanMembership claims team id role status t) ∧
      s'.dir.Joined := by
  obtain ⟨id', hid, h⟩ := found_ok h
  obtain ⟨hone, h⟩ := refuse_ok h
  iterate 2 obtain ⟨_, _, h⟩ := bind_ok h
  obtain ⟨team', hteam, h⟩ := bind_ok h
  obtain ⟨m, hfind, h⟩ := found_ok h
  obtain ⟨_, hkind, h⟩ := bind_ok h
  obtain ⟨hlive, h⟩ := refuse_ok h
  obtain ⟨s1, h1, h2⟩ := bind_ok h
  obtain ⟨hm, rfl, rfl⟩ := membership?_mem hfind
  obtain ⟨hteam, owner⟩ := requireTeamOwner_ok hteam
  replace hkind := refuseIf_ok hkind
  simp only [not_or] at hkind
  obtain ⟨hp, hi, hc, hmem⟩ := changeMembership_ok hd hm hone (onDir_ok h1)
  obtain ⟨hp', hm', hi'⟩ := audit_same (onDir_ok h2)
  refine ⟨.updated m hm hteam hid hone hkind.2.2 hlive owner
    (hi'.trans hi) (by rwa [hm']), ?_⟩
  refine hd.write hc (hp'.trans hp) fun n hn => ?_
  rcases (hmem n).1 (hm' ▸ hn) with ⟨hn, hne⟩ | rfl
  · exact .inr ⟨hn, fun hteam hid => hne (hd.one n hn m hm hteam hid)⟩
  · exact .inl rfl

/-- CALL: the one write of a call that commits, and the invariant afterwards. -/
theorem call_change (hd : s.dir.Joined) (h : s.call texts c = .ok s') :
    Change s.dir s'.dir c ∧ s'.dir.Joined := by
  cases c with
  | bootstrap host q t => exact bootstrap_change hd h
  | issueInvite claims q t => exact issueInvite_change hd h
  | revokeInvitation claims team id t => exact revokeInvitation_change hd h
  | redeemInvite q t => exact redeemInvite_change hd h
  | acceptInvite claims token id t => exact acceptInvite_change hd h
  | updateHumanMembership claims team id role status t => exact updateHumanMembership_change hd h
  | elsewhere rest =>
    cases h
    exact ⟨.elsewhere rfl rfl, ⟨hd.one, hd.compatible⟩⟩

/-- A call does nothing, or commits with its one write. -/
lemma after_cases (texts : Texts δ) (hd : s.dir.Joined) (c : Call δ) :
    ((∀ s', s.call texts c ≠ .ok s') ∧ s.after texts c = s) ∨
      (s.call texts c = .ok (s.after texts c) ∧ Change s.dir (s.after texts c).dir c) := by
  unfold after
  cases h : s.call texts c with
  | error e => exact .inl ⟨fun s' => by simp, rfl⟩
  | ok s' => exact .inr ⟨rfl, (call_change hd h).1⟩

lemma after_joined (texts : Texts δ) (hd : s.dir.Joined) (c : Call δ) :
    (s.after texts c).dir.Joined := by
  unfold after
  split
  · rename_i h
    exact (call_change hd h).2
  · exact hd

/-! ### What every call keeps -/

/-- The laws of one call, made in the state `s`. -/
structure Lawful (texts : Texts δ) (s : Hub δ) (c : Call δ) : Prop where
  /-- A revoked membership stays as it is. -/
  revoked : ∀ m ∈ s.dir.memberships, m.status = .revoked →
    m ∈ (s.after texts c).dir.memberships
  /-- So does the membership of an owner. -/
  owner : ∀ m ∈ s.dir.memberships, m.role = .owner → m ∈ (s.after texts c).dir.memberships
  /-- A principal has one membership in a team. -/
  one : ∀ m ∈ s.dir.memberships, ∀ m' ∈ s.dir.memberships, m.teamId = m'.teamId →
    m.principalId = m'.principalId → m = m'
  /-- No membership is ever deleted. -/
  kept : ∀ m ∈ s.dir.memberships, ∃ m' ∈ (s.after texts c).dir.memberships, m'.id = m.id ∧
    m'.teamId = m.teamId ∧ m'.principalId = m.principalId
  /-- A redeemed invitation stays as it is. -/
  redeemed : ∀ i ∈ s.dir.invitations, i.redeemedAt.isSome = true →
    i ∈ (s.after texts c).dir.invitations
  /-- An invitation that becomes redeemed was open at the call, its issuer could still invite, and
      the caller, who is written into it, carries the address it names. -/
  redeems : ∀ i' ∈ (s.after texts c).dir.invitations, i'.redeemedAt.isSome = true →
    i' ∈ s.dir.invitations ∨ ∃ p t, c.redeemer = some (p, t) ∧
      ∃ i ∈ s.dir.invitations, i' = redeemedRow i p t ∧ openAt t i ∧
        s.dir.IssuerActs i ∧ (s.after texts c).dir.Names i p
  /-- A redemption that commits redeems an invitation that was open, for its caller. -/
  redemption : ∀ p t, c.redeemer = some (p, t) → ∀ s', s.call texts c = .ok s' →
    ∃ i ∈ s.dir.invitations, openAt t i ∧ redeemedRow i p t ∈ s'.dir.invitations
  /-- And it leaves every membership that exists as it is. -/
  grants : c.redeems = true → ∀ m ∈ s.dir.memberships, m ∈ (s.after texts c).dir.memberships

/-- STEP: the laws hold of every call. -/
theorem after_lawful (texts : Texts δ) (hd : s.dir.Joined) (c : Call δ) : Lawful texts s c := by
  rcases after_cases texts hd c with ⟨hno, hs⟩ | ⟨hok, hch⟩
  · constructor <;> (try rw [hs])
    · exact fun m hm _ => hm
    · exact fun m hm _ => hm
    · exact hd.one
    · exact fun m hm => ⟨m, hm, rfl, rfl, rfl⟩
    · exact fun i hi _ => hi
    · exact fun i hi _ => .inl hi
    · exact fun _ _ _ s' h => (hno s' h).elim
    · exact fun _ m hm => hm
  · constructor
    · exact fun m hm hr => hch.keeps hm (.inr (.inl hr))
    · exact fun m hm hr => hch.keeps hm (.inl hr)
    · exact hd.one
    · intro m hm
      obtain ⟨m', hm', hid, hteam, hp, _⟩ := hch.kept hm
      exact ⟨m', hm', hid, hteam, hp⟩
    · exact fun i hi hr => hch.redeemed hi hr
    · exact fun i hi hr => hch.redeems hi hr
    · intro p t hc s' hs'
      rw [hok] at hs'
      cases hs'
      exact hch.redemption hc
    · exact fun hc m hm => hch.keeps hm (.inr (.inr hc))

/-! ### Where a role comes from -/

def InvitedBy (texts : Texts δ) (s : Hub δ) (c : Call δ) (m : Membership) : Prop :=
  c.redeems = true ∧ (∀ n ∈ s.dir.memberships, n.id ≠ m.id) ∧
    (∃ n ∈ (s.after texts c).dir.memberships, n.id = m.id) ∧
    ∃ i ∈ s.dir.invitations, i.redeemedAt = none ∧ i.teamId = m.teamId ∧ i.role = m.role ∧
      ∃ t, redeemedRow i m.principalId t ∈ (s.after texts c).dir.invitations

def Assigns (texts : Texts δ) (s : Hub δ) (c : Call δ) (m : Membership) (role : Role) : Prop :=
  ∃ claims team id t, c = .updateHumanMembership claims team id (some role) none t ∧
    identity? team = some m.teamId ∧ identity? id = some m.principalId ∧
    (∃ s', s.call texts c = .ok s') ∧
    ∃ o ∈ s.dir.memberships, o.teamId = m.teamId ∧ o.principalId = claims.principalId ∧
      o.role = .owner ∧ o.status = .active

def FoundedBy (texts : Texts δ) (s : Hub δ) (c : Call δ) (m : Membership) : Prop :=
  m.role = .owner ∧ ∃ host q t, c = .bootstrap host q t ∧ (∀ n, n ∉ s.dir.memberships) ∧
    ∃ n ∈ (s.after texts c).dir.memberships, n.id = m.id

/-- The role of `m` comes from a call of the run, and no role was assigned since. -/
def RoleFrom (texts : Texts δ) (source : Hub δ → Call δ → Membership → Prop) (s : Hub δ)
    (calls : List (Call δ)) (m : Membership) : Prop :=
  ∃ before c later, calls = before ++ c :: later ∧
    source (run (after texts) s before) c m ∧
    Along (after texts) (fun s c => ∀ role, ¬ Assigns texts s c m role)
      (after texts (run (after texts) s before) c) later

/-- One of the three. -/
def RoleSource (texts : Texts δ) (s : Hub δ) (c : Call δ) (m : Membership) : Prop :=
  InvitedBy texts s c m ∨ Assigns texts s c m m.role ∨ FoundedBy texts s c m

def Call.askedRole : Call δ → Option Role
  | .updateHumanMembership _ _ _ role _ _ => role
  | _ => none

/-- Only a call of `update_human_membership` assigns. -/
lemma not_assigns (h : c.askedRole = none) : ∀ role, ¬ Assigns texts s c m role := by
  rintro role ⟨claims, team, id, t, rfl, -⟩
  cases h

/-- A redemption leaves a membership alone or creates it with the role of the invitation. -/
lemma redeems_role (hc : c.redeems = true) (hr : Redeems s.dir (s.after texts c).dir i p t)
    (hm : m ∈ (s.after texts c).dir.memberships) :
    InvitedBy texts s c m ∨ m ∈ s.dir.memberships := by
  rcases hr.memberships with hm' | ⟨n, hteam, hp, hrole, hnew, hm'⟩
  · exact .inr (hm' ▸ hm)
  · rcases (hm' m).1 hm with hold | rfl
    · exact .inr hold
    · refine .inl ⟨hc, hnew, ⟨m, hm, rfl⟩, i, hr.mem, hr.isOpen.1, hteam.symm, hrole.symm, t, ?_⟩
      rw [hp]
      exact (hr.invitations _).2 (.inr rfl)

/-- STEP: the role of a membership after a call is given by the call, or it is the role the
    membership had and the call assigned none. -/
theorem after_role (hd : s.dir.Joined) (c : Call δ) (hm : m' ∈ (s.after texts c).dir.memberships)
    (hrole : m'.role ≠ .automation) :
    RoleSource texts s c m' ∨
      ∃ m ∈ s.dir.memberships, m.id = m'.id ∧ m.teamId = m'.teamId ∧
        m.principalId = m'.principalId ∧ m.role = m'.role ∧
        ∀ role, ¬ Assigns texts s c m' role := by
  by_cases same : m' ∈ s.dir.memberships ∧ ∀ role, ¬ Assigns texts s c m' role
  · exact .inr ⟨m', same.1, rfl, rfl, rfl, rfl, same.2⟩
  rcases after_cases texts hd c with ⟨hno, hs⟩ | ⟨hok, hch⟩
  · refine (same ⟨hs ▸ hm, ?_⟩).elim
    rintro role ⟨_, _, _, _, _, _, _, ⟨s', hs'⟩, _⟩
    exact hno s' hs'
  · generalize hdir : (s.after texts c).dir = d' at hch
    have hd' : m' ∈ d'.memberships := by rw [← hdir]; exact hm
    cases hch with
    | founded m hnone _ howner hmem hnew =>
      rcases hnew m' hd' with rfl | hauto
      · exact .inl (.inr (.inr ⟨howner, _, _, _, rfl, hnone, m', hm, rfl⟩))
      · exact (hrole hauto).elim
    | issued i hm' | withdrawn i hm' | elsewhere hm' =>
      exact (same ⟨hm' ▸ hd', not_assigns rfl⟩).elim
    | joined i hr | accepted i hr =>
      rw [← hdir] at hr
      rcases redeems_role rfl hr hm with h | h
      · exact .inl (.inl h)
      · exact (same ⟨h, not_assigns rfl⟩).elim
    | @updated claims team id role status t n hn hteam hid hone _ _ howner _ hmem =>
      rcases (hmem m').1 hd' with ⟨hold, hne⟩ | rfl
      · -- an assignment names one membership, and it is another one
        refine (same ⟨hold, ?_⟩).elim
        rintro r ⟨_, _, _, _, hc, hteam', hid', _⟩
        cases hc
        exact hne (hd.one m' hold n hn (by simpa [hteam'] using hteam)
          (by simpa [hid'] using hid))
      · cases role with
        | none => exact .inr ⟨n, hn, rfl, rfl, rfl, rfl, not_assigns rfl⟩
        | some r =>
          cases status with
          | some _ => exact (hone rfl).elim
          | none =>
            exact .inl (.inr (.inl ⟨claims, team, id, t, rfl, hteam, hid, ⟨_, hok⟩, howner⟩))

/-- What a source says about a membership depends on its row, team, person and role only. -/
lemma RoleFrom.congr (hid : m.id = m'.id) (hteam : m.teamId = m'.teamId)
    (hp : m.principalId = m'.principalId) (hr : m.role = m'.role)
    (h : RoleFrom texts (RoleSource texts) s calls m) :
    RoleFrom texts (RoleSource texts) s calls m' := by
  unfold RoleFrom RoleSource InvitedBy Assigns FoundedBy at h ⊢
  rwa [hid, hteam, hp, hr] at h

lemma RoleFrom.concat (h : RoleFrom texts (RoleSource texts) s calls m)
    (hno : ∀ role, ¬ Assigns texts (run (after texts) s calls) c m role) :
    RoleFrom texts (RoleSource texts) s (calls ++ [c]) m := by
  obtain ⟨before, c0, later, rfl, hsource, halong⟩ := h
  refine ⟨before, c0, later ++ [c], by simp, hsource, (along_append _ _ _).2 ⟨halong, ?_⟩⟩
  rw [run_append] at hno
  exact ⟨hno, trivial⟩

/-- RUN: in every run from a hub without memberships each role has a source. -/
theorem run_role (texts : Texts δ) (hd : s.dir.Joined) (hnone : ∀ m, m ∉ s.dir.memberships)
    (calls : List (Call δ)) :
    ∀ m ∈ (run (after texts) s calls).dir.memberships, m.role ≠ .automation →
      RoleFrom texts (RoleSource texts) s calls m := by
  induction calls using List.reverseRecOn with
  | nil => exact fun m hm _ => (hnone m hm).elim
  | append_singleton calls c ih =>
    intro m hm hrole
    rw [run_append] at hm
    have joined : (run (after texts) s calls).dir.Joined :=
      run_inv (P := fun s : Hub δ => s.dir.Joined) (fun _ c h => after_joined texts h c) calls s hd
    rcases after_role joined c hm hrole with hnew | ⟨n, hn, hid, hteam, hp, hr, hno⟩
    · exact ⟨calls, c, [], rfl, hnew, trivial⟩
    · have old := (ih n hn (hr ▸ hrole)).congr hid hteam hp hr
      exact old.concat hno

/-! ### Main result -/

/-- A hub that has its bootstrap proofs and nothing else. -/
def founding (claims : Table (BootstrapClaim δ) String BootstrapClaim.id) : Hub δ :=
  { empty with dir := { Directory.empty with bootstrapClaims := claims } }

/-- LIFECYCLE: in every run, at any clock readings and for any callers, every call is lawful, and
    every role that a person holds is the role of the invitation that created the membership, or
    the last role an active owner of the team assigned to it, or the founder's. -/
theorem human_membership_lifecycle (texts : Texts δ)
    (claims : Table (BootstrapClaim δ) String BootstrapClaim.id) (calls : List (Call δ)) :
    let s := run (after texts) (founding claims) calls
    (∀ c, Lawful texts s c) ∧
    ∀ m ∈ s.dir.memberships, (s.dir.human? m.principalId).isSome = true →
      RoleFrom texts (RoleSource texts) (founding claims) calls m := by
  intro s
  have bare : ∀ m, m ∉ (founding claims).dir.memberships := fun m hm => by cases hm
  have hd : (founding claims).dir.Joined :=
    ⟨fun m hm => (bare m hm).elim, fun m hm => (bare m hm).elim⟩
  have joined : s.dir.Joined :=
    run_inv (P := fun s : Hub δ => s.dir.Joined) (fun _ c h => after_joined texts h c) calls _ hd
  exact ⟨fun c => after_lawful texts joined c, fun m hm hperson =>
    run_role texts hd bare calls m hm (joined.role_of_human hm hperson)⟩

/-- FINAL: no later call changes the membership of an owner, or one that was revoked. -/
theorem owners_and_revoked_stay (texts : Texts δ)
    (claims : Table (BootstrapClaim δ) String BootstrapClaim.id) (calls more : List (Call δ)) :
    let s := run (after texts) (founding claims) calls
    (∀ m ∈ s.dir.memberships, m.role = .owner → m ∈ (run (after texts) s more).dir.memberships) ∧
    ∀ m ∈ s.dir.memberships, m.status = .revoked → m ∈ (run (after texts) s more).dir.memberships := by
  intro s
  have joined : s.dir.Joined := run_inv (P := fun s : Hub δ => s.dir.Joined)
    (fun _ c h => after_joined texts h c) calls _ ⟨nofun, nofun⟩
  have final (m : Membership) (hm : m ∈ s.dir.memberships) (h : m.role = .owner ∨ m.status = .revoked) :
      m ∈ (run (after texts) s more).dir.memberships := by
    refine (run_inv (P := fun s : Hub δ => s.dir.Joined ∧ m ∈ s.dir.memberships) ?_ more s ⟨joined, hm⟩).2
    intro s c ⟨hd, hm⟩
    have law := after_lawful texts hd c
    exact ⟨after_joined texts hd c, h.elim (law.owner m hm) (law.revoked m hm)⟩
  exact ⟨fun m hm h => final m hm (.inl h), fun m hm h => final m hm (.inr h)⟩

end

/-- One bootstrap proof, of the text `bootstrap.0123456789`. -/
def foundingClaims : Table (BootstrapClaim String) String BootstrapClaim.id :=
  ⟨[{ id := "claim", tokenHash := "bootstrap.0123456789", createdAt := 0, expiresAt := 900 }],
    by simp⟩

def foundingCall : Call String :=
  .bootstrap ⟨"hub", none, none⟩
    { proof := "bootstrap.0123456789", email := "a@b.c", displayName := "A", deviceLabel := "phone",
      principalId := "human-0001", teamId := "team-0001", membershipId := "m1",
      localMembershipId := "m2", managedMembershipId := "m3", new := ⟨"device", "refresh0", "refresh.0123456789"⟩ } 100

/-- The founder's role comes from no invitation and from no owner. -/
theorem founder_role_unassigned :
    let texts : Texts String := ⟨id, some, some, id⟩
    let s := run (after texts) (founding foundingClaims) [foundingCall]
    ∃ m ∈ s.dir.memberships.rows, (s.dir.human? m.principalId).isSome = true ∧
      ¬ RoleFrom texts (fun s c m => InvitedBy texts s c m ∨ Assigns texts s c m m.role)
        (founding foundingClaims) [foundingCall] m := by
  intro texts s
  have member : ∃ m ∈ s.dir.memberships.rows, (s.dir.human? m.principalId).isSome = true := by
    decide +kernel
  obtain ⟨m, hm, hp⟩ := member
  refine ⟨m, hm, hp, ?_⟩
  rintro ⟨before, c, later, hsplit, hsource, -⟩
  have hc : c = foundingCall := by
    have : c ∈ [foundingCall] := hsplit ▸ by simp
    simpa using this
  subst hc
  rcases hsource with ⟨hc, -⟩ | ⟨_, _, _, _, hc, -⟩
  · cases hc
  · cases hc

end Hub

end TeamHub
