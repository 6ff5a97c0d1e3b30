import ZenithBot.TeamHub.Messages

/-! What a reader of team messages can learn. What concerns a caller is its `view`: the messages it sent
    or that are addressed to it, with all that belongs to them. Every answer is computed from the view
    alone, but for one bit in a few calls (`hint`), so two stores with the same view answer alike exactly
    when they agree on that bit.

        get, revisions       the caller's own server cannot be resolved: is there such a message?
        get, open attachment the caller's own server cannot be resolved: is it bound to a message?
        receipt              is the message deleted? -/

namespace TeamHub.Mail
open Lib Roster List

variable {δ : Type}
variable {row : MessageRow} {owned : List Address} {e : Err}

/-! ### The rights of a caller -/

namespace Roster

variable {texts : Texts δ} {r : Roster δ} {claims : Hub.AccessClaims} {teamId : String} {now : Int}
  {m : Membership}
variable {allowed : List Role} {principalId : String} {d : Directory δ}

/-- What a caller who may read is: a member with one of the roles its kind can have. -/
lemma requireNetworkScope_ok [DecidableEq δ] {write : Bool}
    (h : r.requireNetworkScope texts claims teamId write now = .ok m) :
    r.hub.dir.requireTeamRole teamId claims.principalId
      (if automated claims.authKind then [.automation]
        else if write then [.owner, .admin, .member] else [.owner, .admin, .member, .guest]) =
          .ok m := by
  iterate 2 obtain ⟨_, _, h⟩ := bind_ok h
  exact mapError_ok h

lemma requireTeamRole_of_mem {allowed' : List Role}
    (h : d.requireTeamRole teamId principalId allowed = .ok m) (hm : m.role ∈ allowed') :
    d.requireTeamRole teamId principalId allowed' = .ok m := by
  obtain ⟨n, hn, h⟩ := bind_ok h
  obtain ⟨_, _, h⟩ := bind_ok h
  cases h
  simp only [Directory.requireTeamRole, hn, ok_bind, refuseIf_of_not (not_not.2 hm)]
  rfl

lemma requireTeamRole_role
    (h : d.requireTeamRole teamId principalId allowed = .ok m) : m.role ∈ allowed := by
  obtain ⟨n, _, h⟩ := bind_ok h
  obtain ⟨hr, h⟩ := refuse_ok h
  cases h
  exact not_not.1 hr

/-- The addresses a call computes are those of the caller in the team. -/
lemma addresses_eq [DecidableEq δ] (h : r.requireNetworkScope texts claims teamId false now = .ok m)
    (ho : r.ownedAddresses claims teamId m.role = .ok owned) :
    r.addresses claims teamId = owned := by
  have hm := requireTeamRole_of_mem (requireNetworkScope_ok h)
    (by cases m.role <;> decide : m.role ∈ [.owner, .admin, .member, .guest, .automation])
  unfold addresses
  rw [hm]
  simp [ho, Except.toOption]

/-- The errors of a caller whose own server cannot be resolved. -/
def unresolved : List Err :=
  [.hub "network_peer_required" "A bound server connection is required" 403,
    .hub "network_peer_unavailable" "Bound server identity is unavailable" 403,
    networkHostUnavailable]

lemma callerNetworkNode_error
    (hm : r.hub.dir.requireTeamRole teamId claims.principalId allowed = .ok m) (hr : claims.authKind ≠
      .securePeer → m.role ∈ if managedHost claims.authKind then [Role.automation] else [.owner, .admin,
      .member]) (h : r.callerNetworkNode claims teamId = .error e) :
    e ∈ unresolved ∧ (claims.authKind ≠ .securePeer → e = networkHostUnavailable) := by
  unfold callerNetworkNode at h
  split at h
  · rename_i hp
    refine ⟨?_, fun hne => absurd hp hne⟩
    exact bind_errors (refuseIf_errors (by decide))
      (fun _ _ => bind_errors (getOr_errors (by decide)) fun _ _ => ok_errors) e h
  · rename_i hp
    rw [requireTeamRole_of_mem hm (hr hp)] at h
    have he : e = networkHostUnavailable := bind_errors (P := (· = networkHostUnavailable))
      ok_errors (fun _ _ => bind_errors (getOr_errors rfl) fun _ _ =>
        bind_errors (getOr_errors rfl) fun _ _ => ok_errors) e h
    rw [he]
    exact ⟨by decide, fun _ => rfl⟩

/-- After the scope check `ownedAddresses` fails only for a server that cannot be resolved. -/
lemma ownedAddresses_error [DecidableEq δ]
    (h : r.requireNetworkScope texts claims teamId false now = .ok m)
    (ho : r.ownedAddresses claims teamId m.role = .error e) : e ∈ unresolved := by
  have hm := requireNetworkScope_ok h
  have hr := requireTeamRole_role hm
  unfold ownedAddresses at ho
  cases ha : automated claims.authKind with
  | true =>
    rw [if_pos ha] at ho hr
    have hnode := (bind_error ho).resolve_right fun ⟨_, _, h⟩ => nomatch h
    refine (callerNetworkNode_error hm (fun hp => ?_) hnode).1
    have hh : managedHost claims.authKind = true := by
      cases hk : claims.authKind <;> simp_all [automated, managedHost]
    rw [if_pos hh]
    exact hr
  | false =>
    have hh : managedHost claims.authKind = false ∧ claims.authKind ≠ .securePeer := by
      cases hk : claims.authKind <;> simp_all [automated, managedHost]
    simp only [ha, Bool.false_eq_true, ↓reduceIte] at ho
    split at ho
    · rename_i hrole
      split at ho
      · cases ho
      · cases ho
      · rename_i e' hno hnode
        have hunavailable := (callerNetworkNode_error hm (fun _ => ?_) hnode).2 hh.2
        · exact absurd hunavailable fun h => hno _ _ h
        · rw [if_neg (by simp [hh.1])]
          rcases hrole with h | h | h <;> rw [h] <;> decide
    · cases ho

/-- The caller may read, but its own server cannot be resolved. -/
def stranded [DecidableEq δ] (texts : Texts δ) (r : Roster δ) (claims : Hub.AccessClaims)
    (teamId : String) (now : Int) : Bool :=
  match r.requireNetworkScope texts claims teamId false now with
  | .ok m => (r.ownedAddresses claims teamId m.role).toOption.isNone
  | .error _ => false

lemma stranded_eq_true [DecidableEq δ] (h : r.stranded texts claims teamId now = true) :
    ∃ m e, r.requireNetworkScope texts claims teamId false now = .ok m ∧
      r.ownedAddresses claims teamId m.role = .error e ∧ e ∈ unresolved := by
  unfold stranded at h
  split at h
  · rename_i m hm
    cases ho : r.ownedAddresses claims teamId m.role with
    | ok owned => rw [ho] at h; cases h
    | error e => exact ⟨m, e, hm, ho, ownedAddresses_error hm ho⟩
  · cases h

lemma stranded_eq_false [DecidableEq δ] (h : r.stranded texts claims teamId now = false)
    (hm : r.requireNetworkScope texts claims teamId false now = .ok m) :
    ∃ owned, r.ownedAddresses claims teamId m.role = .ok owned := by
  simp only [stranded, hm] at h
  cases ho : r.ownedAddresses claims teamId m.role with
  | ok owned => exact ⟨owned, rfl⟩
  | error e => rw [ho] at h; cases h

end Roster

namespace Space

variable {m : Membership} {tools : Tools δ} {α : Type} {team id : String}

/-! ### The view of a caller -/

/-- A message with this id was sent by the caller or is addressed to it. -/
def concernsId (t : Space δ) (claims : Hub.AccessClaims) (teamId messageId : String) : Bool :=
  (t.messages.rows.any fun m => m.teamId = teamId && m.id = messageId && t.concerns claims m) ||
    t.recipients.rows.any fun r => r.teamId = teamId && r.messageId = messageId &&
      (r.target = .all || r.target.address.any (t.roster.addresses claims teamId).contains)

/-- The attachment is bound to no message, or to one that concerns the caller. -/
def shows (t : Space δ) (claims : Hub.AccessClaims) (a : Attachment) : Bool :=
  match a.messageId with
  | none => true
  | some id => t.concernsId claims a.teamId id

/-- The store without the messages that do not concern the caller: without their rows, recipients,
    revisions, attachments with their bytes, and deletions. -/
def view (t : Space δ) (claims : Hub.AccessClaims) : Space δ :=
  { t with
    messages := t.messages.deleteWhere fun m => !t.concerns claims m
    recipients := t.recipients.deleteWhere fun r => !t.concernsId claims r.teamId r.messageId
    revisions := t.revisions.filter fun v => t.concernsId claims v.teamId v.messageId
    attachments := t.attachments.deleteWhere fun a => !t.shows claims a
    deletions := t.deletions.filter fun d =>
      d.resourceKind = .bulletin || t.concernsId claims d.teamId d.resourceId
    content := fun key =>
      if t.attachments.rows.any fun a => t.shows claims a && a.storageKey = key then t.content key
      else none }

/-! ### The caller's messages are whole in the view -/

section View
variable {t : Space δ} {claims : Hub.AccessClaims} {m : Message}
  {p q : α → Bool} {l : List α}

lemma mem_view_messages :
    m ∈ (t.view claims).messages ↔ m ∈ t.messages ∧ t.concerns claims m = true := by
  unfold view
  rw [Table.mem_deleteWhere]
  simp

lemma view_messages_rows :
    (t.view claims).messages.rows = t.messages.rows.filter (t.concerns claims) := by
  simp [view, Table.deleteWhere]

lemma view_recipients_rows : (t.view claims).recipients.rows =
    t.recipients.rows.filter fun r => t.concernsId claims r.teamId r.messageId := by
  simp [view, Table.deleteWhere]

lemma view_attachments_rows :
    (t.view claims).attachments.rows = t.attachments.rows.filter (t.shows claims) := by
  simp [view, Table.deleteWhere]

/-- Ids are unique, so the message itself decides. -/
lemma concernsId_eq (hm : m ∈ t.messages) :
    t.concernsId claims m.teamId m.id = t.concerns claims m := by
  rw [Bool.eq_iff_iff]
  constructor
  · intro h
    rcases Bool.or_eq_true_iff.1 h with h | h
    · obtain ⟨n, hn, h⟩ := any_eq_true.1 h
      simp only [Bool.and_eq_true, decide_eq_true_eq] at h
      obtain rfl := t.messages.eq_of_key hn hm h.1.2
      exact h.2
    · exact Bool.or_eq_true_iff.2 (.inr h)
  · intro hc
    exact Bool.or_eq_true_iff.2 (.inl (any_eq_true.2 ⟨m, hm, by simp [hc]⟩))

/-- A selection inside what is kept is not touched by keeping it. -/
lemma filter_filter_of_imp (h : ∀ a ∈ l, q a = true → p a = true) :
    (l.filter p).filter q = l.filter q := by
  rw [filter_filter]
  refine filter_congr fun a ha => ?_
  cases hq : q a with
  | false => simp
  | true => simp [h a ha hq]

lemma any_filter_of_imp (h : ∀ a ∈ l, q a = true → p a = true) : (l.filter p).any q = l.any q := by
  rw [Bool.eq_iff_iff, any_eq_true, any_eq_true]
  constructor
  · rintro ⟨a, ha, hq⟩
    exact ⟨a, (mem_filter.1 ha).1, hq⟩
  · rintro ⟨a, ha, hq⟩
    exact ⟨a, mem_filter.2 ⟨ha, h a ha hq⟩, hq⟩

section
variable (h : t.concernsId claims team id = true)
include h

lemma concernsId_of_key {team' id' : String} (hk : (team' = team && id' = id) = true) :
    t.concernsId claims team' id' = true := by
  simp only [Bool.and_eq_true, decide_eq_true_eq] at hk
  rw [hk.1, hk.2, h]

lemma view_recipientsOf :
    (t.view claims).recipients.rows.filter (fun r => r.teamId = team && r.messageId = id) =
      t.recipients.rows.filter fun r => r.teamId = team && r.messageId = id := by
  rw [view_recipients_rows, filter_filter_of_imp fun r _ => concernsId_of_key h]

lemma view_teamMessageRecipients :
    (t.view claims).teamMessageRecipients team id =
      t.teamMessageRecipients team id := by
  unfold teamMessageRecipients
  rw [view_recipientsOf h]

lemma view_revisionsOf :
    (t.view claims).revisionsOf team id = t.revisionsOf team id :=
  filter_filter_of_imp fun _ _ => concernsId_of_key h

lemma view_attachmentsOf :
    (t.view claims).attachmentsOf team id = t.attachmentsOf team id := by
  unfold attachmentsOf
  rw [view_attachments_rows, filter_filter_of_imp]
  intro a _ ha
  simp only [Bool.and_eq_true, decide_eq_true_eq] at ha
  simp [shows, ha.1, ha.2, h]

lemma view_deleted : (t.view claims).deleted team id = t.deleted team id := by
  refine any_filter_of_imp fun d _ hd => ?_
  simp only [Bool.and_eq_true, decide_eq_true_eq] at hd
  rw [hd.1.1, hd.2, h]
  simp

lemma view_ownRecipients (owned : List Address) :
    (t.view claims).ownRecipients team id owned =
      t.ownRecipients team id owned := by
  unfold ownRecipients
  rw [view_teamMessageRecipients h]

end

section
variable (h : t.concernsId claims m.teamId m.id = true)
include h

lemma view_messageRow : (t.view claims).messageRow m = t.messageRow m := by
  unfold messageRow latestRevision
  rw [view_revisionsOf h]
  rfl

lemma view_teamMessageWasVisible (owned : List Address) :
    (t.view claims).teamMessageWasVisible claims m owned =
      t.teamMessageWasVisible claims m owned := by
  unfold teamMessageWasVisible
  rw [view_recipients_rows, any_filter_of_imp]
  exact fun r _ hr => concernsId_of_key h (Bool.and_eq_true_iff.1 hr).1

lemma view_teamMessageVisible (owned : List Address) :
    (t.view claims).teamMessageVisible claims m owned = t.teamMessageVisible claims m owned := by
  unfold teamMessageVisible
  rw [view_deleted h, view_teamMessageWasVisible h]

lemma view_delivery (owned : List Address) (address : Option Address) :
    (t.view claims).delivery m owned address = t.delivery m owned address := by
  unfold delivery
  rw [view_ownRecipients h]
  rfl

end

lemma view_messagePublic (tools : Tools δ)
    (h : t.concernsId claims row.message.teamId row.message.id = true) (body revision : Bool)
    (owned : Option (List Address)) (address : Option Address) :
    (t.view claims).messagePublic tools row body revision owned address =
      t.messagePublic tools row body revision owned address := by
  simp only [messagePublic, view_teamMessageRecipients h, view_attachmentsOf h, view_delivery h]
  rfl

end View

/-! ### Lists -/

/-- What contributes nothing can be left out before a selection. -/
lemma flatMap_filter_of_silent {β : Type} {c s s' : α → Bool} {f f' : α → List β} :
    ∀ {l : List α}, (∀ a ∈ l, c a = true → s' a = s a) → (∀ a ∈ l, c a = true → f' a = f a) →
    (∀ a ∈ l, c a = false → s a = true → f a = []) →
    ((l.filter c).filter s').flatMap f' = (l.filter s).flatMap f
  | [], _, _, _ => rfl
  | a :: l, hs, hf, h0 => by
    have ih := flatMap_filter_of_silent (fun x hx => hs x (.tail _ hx))
      (fun x hx => hf x (.tail _ hx)) fun x hx => h0 x (.tail _ hx)
    cases hc : c a <;> cases ha : s a <;> simp_all

/-- A row that is unique among those selected is found in a part exactly when it lies in it. -/
lemma find?_filter_of_unique {p q : α → Bool} : ∀ {l : List α},
    (∀ a ∈ l, ∀ b ∈ l, q a = true → q b = true → a = b) →
    (l.filter p).find? q = (l.find? q).filter p
  | [], _ => rfl
  | a :: l, h => by
    have ih := find?_filter_of_unique (p := p) fun x hx y hy => h x (.tail _ hx) y (.tail _ hy)
    cases hq : q a with
    | false => cases hp : p a <;> simp [hq, hp, ih]
    | true =>
      cases hp : p a with
      | true => simp [hq, hp, Option.filter]
      | false =>
        simp only [filter_cons, hp, find?_cons, hq, Option.filter]
        simp only [Bool.false_eq_true, ↓reduceIte, find?_eq_none]
        intro b hb hqb
        obtain ⟨hb, hpb⟩ := mem_filter.1 hb
        rw [h b (.tail _ hb) a (.head _) hqb hq, hp] at hpb
        cases hpb

section Lists
variable {t : Space δ} {claims : Hub.AccessClaims} {q : ListQuery}
  {since : Option Int} {owned : List Address} {address : Option Address} {m : Message}

lemma listedAddress_mem (h : (if q.box = "inbox" then some <$> inboxAddress q owned else .ok none :
    Except Err (Option Address)) = .ok address) : ∀ a, address = some a → a ∈ owned := by
  rintro a rfl
  split at h
  · cases hi : inboxAddress q owned with
    | error e => rw [hi] at h; cases h
    | ok b =>
      rw [hi] at h
      cases h
      exact mem_of_find?_eq_some (getOr_ok hi)
  · cases h

lemma view_selected (h : t.concernsId claims m.teamId m.id = true) :
    (t.view claims).selected team q since m = t.selected team q since m := by
  unfold selected
  rw [view_deleted h]

lemma view_boxRows (h : t.concernsId claims m.teamId m.id = true) :
    (t.view claims).boxRows claims q owned address m = t.boxRows claims q owned address m := by
  unfold boxRows
  rw [view_recipients_rows]
  split
  · rw [filter_filter_of_imp]
    exact fun r _ hr => concernsId_of_key h (Bool.and_eq_true_iff.1 hr).1
  · cases address with
    | none => rfl
    | some a =>
      simp only
      rw [filter_filter_of_imp]
      intro r _ hr
      simp only [inInbox, Bool.and_eq_true, decide_eq_true_eq] at hr
      rw [hr.1.1.1, hr.1.1.2, h]
  · rfl

section
variable (howned : t.roster.addresses claims m.teamId = owned)
include howned

/-- A message was sent by the caller when the sender columns say so. -/
lemma concerns_of_sender (h : sentByHuman claims.principalId m = true ∨ ∃ a ∈ owned, a.1 = .server ∧
      sentByServer a.2 m = true) : t.concerns claims m = true := by
  refine Bool.or_eq_true_iff.2 (.inl ?_)
  rw [howned]
  rcases h with h | ⟨⟨k, id⟩, ha, rfl, h⟩
  · rw [of_decide_eq_true h]
    simp
  · unfold sentByServer at h
    cases hs : m.sender with
    | human id => simp [hs] at h
    | server p node =>
      rw [hs] at h
      obtain rfl := of_decide_eq_true h
      exact contains_iff_mem.2 ha

lemma concerns_of_recipient {r : Recipient} (hr : r ∈ t.recipients.rows)
    (hm : r.teamId = m.teamId ∧ r.messageId = m.id)
    (h : r.target = .all ∨ ∃ a ∈ owned, r.target.address = some a) : t.concerns claims m = true := by
  refine Bool.or_eq_true_iff.2 (.inr (any_eq_true.2 ⟨r, hr, ?_⟩))
  rw [howned]
  rcases h with h | ⟨a, ha, h⟩
  · simp [hm, h]
  · simp [hm, h, ha]

/-- STEP: a box holds only messages that concern the caller. -/
theorem boxRows_concerned {n : Message} (ha : ∀ a, address = some a → a ∈ owned)
    (h : n ∈ t.boxRows claims q owned address m) : n = m ∧ t.concerns claims m = true := by
  unfold boxRows at h
  split at h
  · obtain ⟨r, hr, rfl⟩ := mem_map.1 h
    obtain ⟨hr, hall⟩ := mem_filter.1 hr
    simp only [Bool.and_eq_true, decide_eq_true_eq] at hall
    exact ⟨rfl, concerns_of_recipient howned hr hall.1 (.inl hall.2)⟩
  · split at h
    · rename_i a
      obtain ⟨r, hr, rfl⟩ := mem_map.1 h
      obtain ⟨hr, hin⟩ := mem_filter.1 hr
      simp only [inInbox, Bool.and_eq_true, decide_eq_true_eq] at hin
      exact ⟨rfl, concerns_of_recipient howned hr hin.1.1 (.inr ⟨a, ha a rfl, hin.1.2⟩)⟩
    · cases h
  · split at h
    · split at h
      · rename_i a hf
        obtain ⟨hs, rfl⟩ := mem_ite_nil_right.1 h |>.imp_right mem_singleton.1
        have hk := find?_some hf
        simp only [decide_eq_true_eq] at hk
        exact ⟨rfl, concerns_of_sender howned (.inr ⟨a, mem_of_find?_eq_some hf, hk, hs⟩)⟩
      · cases h
    · obtain ⟨hs, rfl⟩ := mem_ite_nil_right.1 h |>.imp_right mem_singleton.1
      exact ⟨rfl, concerns_of_sender howned (.inl hs)⟩

end

lemma messageRow_message (h : t.messageRow m = some row) : row.message = m := by
  obtain ⟨_, _, h⟩ := Option.bind_eq_some_iff.1 h
  cases h
  rfl

section
variable (howned : t.roster.addresses claims team = owned) (ha : ∀ a, address = some a → a ∈ owned)
include howned ha

/-- What a page is made of: rows of messages that concern the caller and are not deleted. -/
lemma mem_listRows (h : row ∈ t.listRows claims team q since owned address) :
    row.message ∈ t.messages ∧ t.concerns claims row.message = true ∧
      t.selected team q since row.message = true := by
  obtain ⟨n, hn, hrow⟩ := mem_filterMap.1 (mem_of_mem_take h)
  obtain ⟨m, hm, hbox⟩ := mem_flatMap.1 ((mem_insertionSort _).1 hn)
  obtain ⟨hm, hsel⟩ := mem_filter.1 hm
  have hteam : m.teamId = team := by
    simp only [selected, Bool.and_eq_true, decide_eq_true_eq] at hsel
    exact hsel.1.1.1.1
  obtain ⟨rfl, hc⟩ := boxRows_concerned (by rw [hteam]; exact howned) ha hbox
  rw [messageRow_message hrow]
  exact ⟨hm, hc, hsel⟩

lemma view_listRows :
    (t.view claims).listRows claims team q since owned address =
      t.listRows claims team q since owned address := by
  have silent : ∀ m ∈ t.messages.rows, t.concerns claims m = false →
      t.selected team q since m = true → t.boxRows claims q owned address m = [] := by
    intro m hm hc hs
    simp only [selected, Bool.and_eq_true, decide_eq_true_eq] at hs
    refine eq_nil_iff_forall_not_mem.2 fun n hn => ?_
    have := (boxRows_concerned (by rw [hs.1.1.1.1]; exact howned) ha hn).2
    rw [hc] at this
    cases this
  unfold listRows
  rw [view_messages_rows, flatMap_filter_of_silent
    (fun m hm hc => view_selected (by rw [concernsId_eq hm, hc]))
    (fun m hm hc => view_boxRows (by rw [concernsId_eq hm, hc])) silent]
  congr 1
  refine filterMap_congr fun n hn => ?_
  obtain ⟨m, hm, hbox⟩ := mem_flatMap.1 ((mem_insertionSort _).1 hn)
  obtain ⟨hm, hs⟩ := mem_filter.1 hm
  simp only [selected, Bool.and_eq_true, decide_eq_true_eq] at hs
  obtain ⟨rfl, hc⟩ := boxRows_concerned (by rw [hs.1.1.1.1]; exact howned) ha hbox
  exact view_messageRow (by rw [concernsId_eq hm, hc])

end

lemma view_listTeamMessages [DecidableEq δ] (tools : Tools δ) (now : Int) :
    (t.view claims).listTeamMessages tools claims now team q =
      t.listTeamMessages tools claims now team q := by
  refine bind_congr_ok fun since _ => bind_congr_ok fun m hm => bind_congr_ok fun owned ho =>
    bind_congr_ok fun address haddress => ?_
  have howned := addresses_eq (r := t.roster) hm ho
  have ha := listedAddress_mem haddress
  simp only [view_listRows howned ha]
  have hin : ∀ row ∈ (t.listRows claims team q since owned address).take q.limit.toNat,
      t.concernsId claims row.message.teamId row.message.id = true := by
    intro row hrow
    obtain ⟨hm, hc, _⟩ := mem_listRows howned ha (mem_of_mem_take hrow)
    rw [concernsId_eq hm, hc]
  rw [map_congr_left fun row hrow => view_messagePublic tools (hin row hrow) _ _ _ _]

end Lists

/-! ### Single messages -/

section Messages
variable {t : Space δ} {claims : Hub.AccessClaims}

lemma selectMessage_eq_some (h : t.selectMessage team id = some row) :
    row.message ∈ t.messages ∧ row.message.teamId = team ∧ row.message.id = id := by
  obtain ⟨m, hm, hrow⟩ := Option.bind_eq_some_iff.1 h
  rw [messageRow_message hrow]
  have hk := find?_some hm
  simp only [Bool.and_eq_true, decide_eq_true_eq] at hk
  exact ⟨mem_of_find?_eq_some hm, hk⟩

lemma view_selectMessage : (t.view claims).selectMessage team id =
    if t.concernsId claims team id then t.selectMessage team id else none := by
  unfold selectMessage
  rw [view_messages_rows, find?_filter_of_unique]
  · cases hf : t.messages.rows.find? fun m => m.teamId = team && m.id = id with
    | none => simp
    | some m =>
      have hk := find?_some hf
      simp only [Bool.and_eq_true, decide_eq_true_eq] at hk
      obtain ⟨rfl, rfl⟩ := hk
      have hc : t.concernsId claims m.teamId m.id = t.concerns claims m :=
        concernsId_eq (mem_of_find?_eq_some hf)
      rw [hc]
      cases hcm : t.concerns claims m with
      | false => simp [hcm]
      | true => simpa [Option.filter, hcm] using view_messageRow (hc.trans hcm)
  · intro m hm n hn h h'
    simp only [Bool.and_eq_true, decide_eq_true_eq] at h h'
    exact t.messages.eq_of_key hm hn (h.2.trans h'.2.symm)

lemma not_visible (howned : t.roster.addresses claims team = owned)
    (h : t.selectMessage team id = some row)
    (hc : t.concernsId claims team id = false) :
    t.teamMessageVisible claims row.message owned = false := by
  obtain ⟨hm, rfl, rfl⟩ := selectMessage_eq_some h
  rw [concernsId_eq hm, concerns, howned] at hc
  simp [teamMessageVisible, hc]

lemma view_revisionRows (hc : t.concernsId claims team id = true) :
    (t.view claims).revisionRows team id = t.revisionRows team id := by
  unfold revisionRows
  rw [view_revisionsOf hc, view_messages_rows, filter_filter_of_imp]
  exact fun m hm hk => concernsId_eq hm ▸ concernsId_of_key hc hk

variable [DecidableEq δ] {tools : Tools δ} {now : Int}

lemma readable_ok (h : t.readable tools claims now team id = .ok (row, owned)) :
    t.selectMessage team id = some row ∧ t.concernsId claims team id = true ∧
      t.deleted team id = false := by
  obtain ⟨m, hm, h⟩ := bind_ok h
  obtain ⟨row', hrow, h⟩ := bind_ok h
  obtain ⟨owned', ho, h⟩ := bind_ok h
  obtain ⟨hv, h⟩ := refuse_ok h
  cases h
  have hrow := getOr_ok hrow
  obtain ⟨hsel, hd⟩ := Option.filter_eq_some_iff.1 hrow
  refine ⟨hsel, ?_, by simpa using hd⟩
  by_contra hc
  exact hv (not_visible (addresses_eq hm ho) hsel (by simpa using hc))

lemma view_readable (hs : t.roster.stranded tools.texts claims team now = false) :
    (t.view claims).readable tools claims now team id =
      t.readable tools claims now team id := by
  refine bind_congr_ok fun m hm => ?_
  obtain ⟨owned, ho⟩ := stranded_eq_false hs hm
  rw [view_selectMessage]
  cases hc : t.concernsId claims team id with
  | true =>
    rw [view_deleted hc]
    refine bind_congr_ok fun row hrow => bind_congr_ok fun owned _ => ?_
    obtain ⟨_, rfl, rfl⟩ := selectMessage_eq_some (Option.filter_eq_some_iff.1 (getOr_ok hrow)).1
    rw [view_teamMessageVisible hc]
  | false =>
    cases hf : (t.selectMessage team id).filter fun _ => !t.deleted team id with
    | none => rfl
    | some row =>
      have howned := addresses_eq (r := t.roster) hm ho
      have hv := not_visible howned (Option.filter_eq_some_iff.1 hf).1 hc
      simp only [getOr, ok_bind, ho, hv]
      rfl

def standing (t : Space δ) (team id : String) : Bool :=
  (t.selectMessage team id).isSome && !t.deleted team id

lemma readable_stranded
    (hm : t.roster.requireNetworkScope tools.texts claims team false now = .ok m)
    (ho : t.roster.ownedAddresses claims team m.role = .error e) :
    t.readable tools claims now team id =
      .error (if t.standing team id then e else resourceNotFound) := by
  unfold readable standing
  rw [hm, ok_bind]
  cases hsel : t.selectMessage team id with
  | none => rfl
  | some row =>
    cases hd : t.deleted team id with
    | true => rfl
    | false =>
      simp only [ho]
      rfl

lemma view_getTeamMessage (includeRevision : Bool)
    (hs : t.roster.stranded tools.texts claims team now = false) :
    (t.view claims).getTeamMessage tools claims now team id includeRevision =
      t.getTeamMessage tools claims now team id includeRevision := by
  unfold getTeamMessage
  rw [view_readable hs]
  refine bind_congr_ok fun p hp => ?_
  obtain ⟨hsel, hc, _⟩ := readable_ok hp
  obtain ⟨_, rfl, rfl⟩ := selectMessage_eq_some hsel
  simp only [view_messagePublic tools hc]

lemma view_listTeamMessageRevisions
    (hs : t.roster.stranded tools.texts claims team now = false) :
    (t.view claims).listTeamMessageRevisions tools claims now team id =
      t.listTeamMessageRevisions tools claims now team id := by
  unfold listTeamMessageRevisions
  rw [view_readable hs]
  refine bind_congr_ok fun p hp => ?_
  rw [view_revisionRows (readable_ok hp).2.1]
  rfl

end Messages

/-! ### Attachments -/

section Attachments
variable {t : Space δ} {claims : Hub.AccessClaims} {attachmentId : String} {a : Attachment}

lemma attachment?_eq_some (h : t.attachment? team attachmentId = some a) :
    a ∈ t.attachments ∧ a.teamId = team := by
  have hk := find?_some h
  simp only [Bool.and_eq_true, decide_eq_true_eq] at hk
  exact ⟨mem_of_find?_eq_some h, hk.1⟩

lemma view_attachment? : (t.view claims).attachment? team attachmentId =
    (t.attachment? team attachmentId).filter (t.shows claims) := by
  unfold attachment?
  rw [view_attachments_rows, find?_filter_of_unique]
  intro x hx y hy h h'
  simp only [Bool.and_eq_true, decide_eq_true_eq] at h h'
  exact t.attachments.eq_of_key hx hy (h.2.trans h'.2.symm)

def attached (t : Space δ) (team attachmentId : String) : Bool :=
  (t.attachment? team attachmentId).any fun a =>
    a.messageId.any fun id => (t.selectMessage team id).isSome

lemma view_teamAttachmentRowVisible (ha : a.teamId = team) (hs : t.shows claims a = true)
    (role : Role) (own : Int) :
    (t.view claims).teamAttachmentRowVisible claims team a role own =
      t.teamAttachmentRowVisible claims team a role own := by
  unfold teamAttachmentRowVisible
  cases hb : a.messageId with
  | none => rfl
  | some id =>
    simp only [shows, hb, ha] at hs
    simp only [view_selectMessage, hs, ↓reduceIte]
    cases hsel : t.selectMessage team id with
    | none => rfl
    | some row =>
      obtain ⟨_, rfl, rfl⟩ := selectMessage_eq_some hsel
      simp only [view_teamMessageVisible hs]
      rfl

/-- Without a message of theirs, attachments are looked up without the caller's addresses. -/
lemma teamAttachmentRowVisible_unattached {role : Role} {own : Int}
    (ha : t.attachment? team attachmentId = some a)
    (hn : t.attached team attachmentId = false) :
    t.teamAttachmentRowVisible claims team a role own =
      .ok (a.messageId.isNone && a.uploadedBy = claims.principalId && own < a.expiresAt) := by
  unfold teamAttachmentRowVisible
  cases hb : a.messageId with
  | none => simp
  | some id =>
    simp only [attached, ha, Option.any_some, hb, Option.isSome_eq_false_iff,
      Option.isNone_iff_eq_none] at hn
    simp [hn]

lemma view_verifiedBlob (ha : a ∈ t.attachments) (hs : t.shows claims a = true) (tools : Tools δ)
    (size : Nat) :
    (t.view claims).verifiedBlob tools a.storageKey size = t.verifiedBlob tools a.storageKey size := by
  have hkey : (t.attachments.rows.any fun b => t.shows claims b && b.storageKey = a.storageKey) =
      true := any_eq_true.2 ⟨a, ha, by simp [hs]⟩
  simp only [verifiedBlob, view, hkey, ↓reduceIte]

lemma openVisible_error (a : Attachment) :
    ∀ e, t.openVisible tools a = .error e → e ∉ Roster.unresolved :=
  bind_errors (refuseIf_errors (by decide)) fun _ _ => bind_errors (getOr_errors (by decide))
    fun _ _ => nofun

variable [DecidableEq δ] {tools : Tools δ} {now own : Int}

/-- An attachment outside the view is not found, whatever it is. -/
lemma readableAttachment_hidden (ha : t.attachment? team attachmentId = some a)
    (hs : t.shows claims a = false)
    (hm : t.roster.requireNetworkScope tools.texts claims team false now = .ok m) (hn :
      t.roster.stranded tools.texts claims team now = false ∨ t.attached team attachmentId = false) :
    t.teamAttachmentRowVisible claims team a m.role own = .ok false := by
  obtain ⟨_, hteam⟩ := attachment?_eq_some ha
  cases hb : a.messageId with
  | none => simp [shows, hb] at hs
  | some id =>
    simp only [shows, hb, hteam] at hs
    rcases hn with hn | hn
    · obtain ⟨owned, ho⟩ := stranded_eq_false hn hm
      unfold teamAttachmentRowVisible
      cases hsel : t.selectMessage team id with
      | none => simp [hb, hsel]
      | some row =>
        simp only [hb, hsel, ho, ok_bind, not_visible (addresses_eq hm ho) hsel hs]
        rfl
    · rw [teamAttachmentRowVisible_unattached ha hn, hb]
      rfl

lemma view_readableAttachment
    (hn : t.roster.stranded tools.texts claims team now = false ∨
      t.attached team attachmentId = false) :
    (t.view claims).readableAttachment tools claims now own team attachmentId =
      t.readableAttachment tools claims now own team attachmentId := by
  refine bind_congr_ok fun m hm => ?_
  rw [view_attachment?]
  cases ha : t.attachment? team attachmentId with
  | none => rfl
  | some a =>
    cases hs : t.shows claims a with
    | true =>
      simp only [Option.filter, hs, ↓reduceIte, getOr, ok_bind,
        view_teamAttachmentRowVisible (attachment?_eq_some ha).2 hs]
    | false =>
      simp only [Option.filter, hs, getOr, ok_bind, readableAttachment_hidden ha hs hm hn]
      rfl

section
variable (hm : t.roster.requireNetworkScope tools.texts claims team false now = .ok m)
include hm

lemma readableAttachment_stranded (ho : t.roster.ownedAddresses claims team m.role = .error e)
    (h : t.attached team attachmentId = true) :
    t.readableAttachment tools claims now own team attachmentId = .error e := by
  unfold readableAttachment
  rw [hm]
  cases ha : t.attachment? team attachmentId with
  | none => simp [attached, ha] at h
  | some a =>
    cases hb : a.messageId with
    | none => simp [attached, ha, hb] at h
    | some id =>
      cases hsel : t.selectMessage team id with
      | none => simp [attached, ha, hb, hsel] at h
      | some row =>
        simp only [getOr, ok_bind, teamAttachmentRowVisible, hb, hsel, ho]
        rfl

lemma readableAttachment_unattached (h : t.attached team attachmentId = false) (e : Err)
    (he : t.readableAttachment tools claims now own team attachmentId = .error e) :
    e = resourceNotFound := by
  unfold readableAttachment at he
  rw [hm] at he
  refine bind_errors (P := (· = resourceNotFound)) (getOr_errors rfl) (fun a ha => ?_) e he
  rw [teamAttachmentRowVisible_unattached (getOr_ok ha) h, ok_bind]
  exact bind_errors (refuseIf_errors rfl) fun _ _ => ok_errors

end

/-- What a call that reads an attachment has checked: it is the caller's own and not bound, or bound
    to a message that the caller may read. -/
lemma readableAttachment_ok (h : t.readableAttachment tools claims now own team attachmentId =
    .ok a) : t.attachment? team attachmentId = some a ∧
      (a.messageId = none ∧ a.uploadedBy = claims.principalId ∨
        ∃ id p, a.messageId = some id ∧ t.readable tools claims now team id = .ok p) := by
  obtain ⟨m, hm, h⟩ := bind_ok h
  obtain ⟨a', ha, h⟩ := found_ok h
  obtain ⟨visible, hv, h⟩ := bind_ok h
  obtain ⟨ht, h⟩ := refuse_ok h
  cases h
  have htrue : visible = true := by simpa using ht
  subst htrue
  refine ⟨ha, ?_⟩
  unfold teamAttachmentRowVisible at hv
  cases hb : a.messageId with
  | none =>
    simp only [hb, Except.ok.injEq, Bool.and_eq_true, decide_eq_true_eq] at hv
    exact .inl ⟨rfl, hv.1⟩
  | some id =>
    simp only [hb] at hv
    cases hsel : t.selectMessage team id with
    | none => simp [hsel] at hv
    | some row =>
      simp only [hsel] at hv
      obtain ⟨owned, ho, hv⟩ := bind_ok hv
      have hvis : t.teamMessageVisible claims row.message owned = true := Except.ok.inj hv
      have hlive : t.deleted team id = false := by
        obtain ⟨_, rfl, rfl⟩ := selectMessage_eq_some hsel
        simpa using (Bool.and_eq_true_iff.1 hvis).1
      refine .inr ⟨id, (row, owned), rfl, ?_⟩
      simp only [readable, hm, ok_bind, hsel, hlive, Bool.not_false, Option.filter_some, ↓reduceIte,
        getOr, ho, hvis]
      rfl

lemma readableAttachment_shows (h : t.readableAttachment tools claims now own team attachmentId =
    .ok a) : a ∈ t.attachments ∧ t.shows claims a = true := by
  obtain ⟨ha, h⟩ := readableAttachment_ok h
  obtain ⟨hmem, hteam⟩ := attachment?_eq_some ha
  refine ⟨hmem, ?_⟩
  rcases h with ⟨hb, _⟩ | ⟨id, p, hb, hp⟩
  · simp [shows, hb]
  · simp [shows, hb, hteam, (readable_ok hp).2.1]

section
variable (hn : t.roster.stranded tools.texts claims team now = false ∨ t.attached team attachmentId = false)
include hn

lemma view_getTeamAttachment :
    (t.view claims).getTeamAttachment tools claims now own team attachmentId =
      t.getTeamAttachment tools claims now own team attachmentId := by
  unfold getTeamAttachment
  rw [view_readableAttachment hn]

lemma view_openTeamAttachment :
    (t.view claims).openTeamAttachment tools claims now own team attachmentId =
      t.openTeamAttachment tools claims now own team attachmentId := by
  unfold openTeamAttachment
  rw [view_readableAttachment hn]
  refine bind_congr_ok fun a ha => bind_congr_ok fun _ _ => ?_
  obtain ⟨ha, hs⟩ := readableAttachment_shows ha
  rw [view_verifiedBlob ha hs]

end

end Attachments

/-! ### The deletion journal -/

section Deletions
variable {t : Space δ} {claims : Hub.AccessClaims} {owned : List Address}
  {d : Deletion}

/-- The hand-written filter of the journal selects only what concerns the caller. -/
lemma deletionConcerns_concernsId (howned : t.roster.addresses claims d.teamId = owned)
    (h : t.deletionConcerns claims owned d = true) :
    t.concernsId claims d.teamId d.resourceId = true := by
  simp only [deletionConcerns, Bool.and_eq_true, any_eq_true, Bool.or_eq_true,
    mem_filter, decide_eq_true_eq] at h
  obtain ⟨_, m, hm, ⟨⟨ht, hid⟩, _⟩, h⟩ := h
  rw [← ht, ← hid, concernsId_eq hm]
  rw [← ht] at howned
  rcases h with (h | ⟨a, ⟨ha, hk⟩, h⟩) | ⟨r, hr, hrm, h⟩
  · exact concerns_of_sender howned (.inl h)
  · exact concerns_of_sender howned (.inr ⟨a, ha, hk, h⟩)
  · refine concerns_of_recipient howned hr hrm ?_
    rcases h with (h | ⟨⟨k, id⟩, ⟨ha, hk⟩, h⟩) | ⟨⟨k, id⟩, ⟨ha, hk⟩, h⟩
    · exact .inl h
    · cases hk
      exact .inr ⟨_, ha, by rw [h]; rfl⟩
    · cases hk
      exact .inr ⟨_, ha, by rw [h]; rfl⟩

lemma view_deletionConcerns (hc : t.concernsId claims d.teamId d.resourceId = true) :
    (t.view claims).deletionConcerns claims owned d = t.deletionConcerns claims owned d := by
  unfold deletionConcerns
  rw [view_messages_rows, any_filter_of_imp]
  · congr 2
    funext m
    by_cases hk : m.teamId = d.teamId ∧ m.id = d.resourceId
    · rw [view_recipients_rows, any_filter_of_imp (l := t.recipients.rows)]
      intro r _ hr
      simp only [Bool.and_eq_true, decide_eq_true_eq] at hr
      rw [hr.1.1, hr.1.2, hk.1, hk.2, hc]
    · have hk' : (decide (m.teamId = d.teamId) && decide (m.id = d.resourceId)) = false := by
        simpa using hk
      simp only [hk', Bool.false_and]
  · intro m hm hk
    simp only [Bool.and_eq_true, decide_eq_true_eq] at hk
    rw [← concernsId_eq hm, hk.1.1.1, hk.1.1.2, hc]

lemma view_deletionRows (howned : t.roster.addresses claims team = owned)
    (afterSequence limit : Int) :
    (t.view claims).deletionRows claims owned team afterSequence limit =
      t.deletionRows claims owned team afterSequence limit := by
  unfold deletionRows
  congr 2
  refine (filter_filter ..).trans (filter_congr fun d _ => ?_)
  by_cases hteam : d.teamId = team
  · subst hteam
    cases hc : t.concernsId claims d.teamId d.resourceId with
    | true =>
      rw [view_deletionConcerns hc]
      simp only [Bool.or_true, Bool.and_true]
      rfl
    | false =>
      have hhere : t.deletionConcerns claims owned d = false :=
        Bool.eq_false_iff.2 fun h => by simp [deletionConcerns_concernsId howned h] at hc
      have hthere : (t.view claims).deletionConcerns claims owned d = false :=
        Bool.eq_false_iff.2 fun h => by
          obtain ⟨m, hm, hk⟩ := any_eq_true.1 (Bool.and_eq_true_iff.1 h).2
          obtain ⟨hm, hcm⟩ := mem_view_messages.1 hm
          simp only [Bool.and_eq_true, decide_eq_true_eq] at hk
          rw [← hk.1.1.1, ← hk.1.1.2, concernsId_eq hm, hcm] at hc
          cases hc
      rw [hhere, hthere]
      cases d.resourceKind <;> simp [view]
  · simp [hteam]

lemma view_listNetworkContentDeletions [DecidableEq δ] (tools : Tools δ) (now : Int)
    (afterSequence limit : Int) :
    (t.view claims).listNetworkContentDeletions tools claims now team afterSequence limit =
      t.listNetworkContentDeletions tools claims now team afterSequence limit := by
  refine bind_congr_ok fun _ _ => bind_congr_ok fun _ _ => bind_congr_ok fun m hm =>
    bind_congr_ok fun owned ho => ?_
  have howned := addresses_eq (r := t.roster) hm ho
  rw [view_deletionRows howned]

end Deletions

/-! ### Receipts -/

section Receipts
variable {t : Space δ} {claims : Hub.AccessClaims}

lemma ownRecipients_hidden (howned : t.roster.addresses claims team = owned)
    (hc : t.concernsId claims team id = false) :
    t.ownRecipients team id owned = [] := by
  refine filter_eq_nil_iff.2 fun r hr hreach => ?_
  have hr := mem_filter.1 ((mem_insertionSort _).1 hr)
  have := Bool.or_eq_false_iff.1 hc |>.2
  rw [any_eq_false] at this
  refine this r hr.1 ?_
  rw [hr.2, howned, hreach]
  simp

lemma view_ownRecipients_hidden (hc : t.concernsId claims team id = false) :
    (t.view claims).ownRecipients team id owned = [] := by
  refine filter_eq_nil_iff.2 fun r hr _ => ?_
  obtain ⟨hr, hk⟩ := mem_filter.1 ((mem_insertionSort _).1 hr)
  rw [view_recipients_rows] at hr
  simp only [Bool.and_eq_true, decide_eq_true_eq] at hk
  have hkeep := (mem_filter.1 hr).2
  rw [hk.1, hk.2, hc] at hkeep
  cases hkeep

/-- A receipt changes neither the team nor the message of a row. -/
lemma receive_message (state : String) (own : Int) (r : Recipient) :
    (receive state own r).teamId = r.teamId ∧ (receive state own r).messageId = r.messageId := by
  unfold receive
  split
  · exact ⟨rfl, rfl⟩
  · split <;> exact ⟨rfl, rfl⟩

lemma teamMessageRecipients_received (p : Recipient → Bool) (state : String) (own : Int)
    (hf : ∀ r, (receive state own r).id = r.id) :
    ({ t with recipients := t.recipients.updateWhere p (receive state own) hf } :
      Space δ).teamMessageRecipients team id =
      ((t.recipients.rows.filter fun r => r.teamId = team && r.messageId = id).map
        fun r => if p r then receive state own r else r).insertionSort fun r s => r.before s = true := by
  unfold teamMessageRecipients Table.updateWhere
  rw [filter_map]
  congr 2
  refine filter_congr fun r _ => ?_
  obtain ⟨ht, hm⟩ := receive_message state own r
  cases hp : p r <;> simp [hp, ht, hm]

variable {own : Int} {q : ReceiptRequest} {role : Role}

lemma receiptBody_ok {p : Space δ × Response}
    (h : t.receiptBody claims own team id q role = .ok p) :
    ∃ id recipients, p.2 = .receipt id recipients := by
  obtain ⟨cached, hl, h⟩ := bind_ok h
  cases cached with
  | some response =>
    cases h
    unfold receiptLookup at hl
    split at hl
    · cases hl
    · obtain ⟨_, _, hl⟩ := bind_ok hl
      cases hl
      exact ⟨_, _, rfl⟩
  | none =>
    iterate 3 obtain ⟨_, _, h⟩ := bind_ok h
    cases h
    exact ⟨_, _, rfl⟩

variable [DecidableEq δ] {now : Int}
  (hm : t.roster.requireNetworkScope tools.texts claims team false now = .ok m)
include hm

/-- The answer to a receipt, without the store it leaves. -/
lemma view_receiptBody :
    ((t.view claims).receiptBody claims own team id q m.role >>= fun p => pure p.2) =
      (t.receiptBody claims own team id q m.role >>= fun p => pure p.2) := by
  unfold receiptBody
  simp only [bind_assoc]
  refine bind_congr_ok fun cached _ => ?_
  cases cached with
  | some response => rfl
  | none =>
    simp only [bind_assoc]
    refine bind_congr_ok fun owned ho => ?_
    have howned := addresses_eq hm ho
    cases hc : t.concernsId claims team id with
    | true =>
      simp only [view_ownRecipients hc, teamMessageRecipients_received, view_recipientsOf hc]
      rfl
    | false =>
      simp only [view_ownRecipients_hidden hc, ownRecipients_hidden howned hc]
      rfl

/-- After the scope check nothing but the journal makes a receipt fail as if there were no
    message. -/
lemma receiptBody_error :
    ∀ e, t.receiptBody claims own team id q m.role = .error e → e ≠ resourceNotFound := by
  refine bind_errors (fun e h => ?_) fun cached _ => ?_
  · unfold receiptLookup at h
    split at h
    · cases h
    · exact bind_errors (P := (· ≠ resourceNotFound)) (refuseIf_errors (by decide))
        (fun _ _ => ok_errors) e h
  · cases cached with
    | some response => exact nofun
    | none =>
      refine bind_errors (fun e h => ?_) fun owned _ => bind_errors (refuseIf_errors (by decide))
        fun _ _ => bind_errors (bind_errors (bind_errors (refuseIf_errors (by decide)) fun _ _ =>
          bind_errors (refuseIf_errors (by decide)) fun _ _ =>
            bind_errors (getOr_errors (by decide)) fun _ _ => nofun) fun _ _ => nofun) fun _ _ => nofun
      have hu := ownedAddresses_error hm h
      rintro rfl
      exact absurd hu (by decide)

end Receipts

/-! ### Two stores -/

/-- The one bit outside the view that an answer can depend on. -/
def hint [DecidableEq δ] (tools : Tools δ) (t : Space δ) (claims : Hub.AccessClaims) (now : Int) :
    Query → Option Bool
  | .getTeamMessage team id _ | .listTeamMessageRevisions team id =>
    if t.roster.stranded tools.texts claims team now then some (t.standing team id) else none
  | .getTeamAttachment team id | .openTeamAttachment team id =>
    if t.roster.stranded tools.texts claims team now then some (t.attached team id) else none
  | .recordTeamMessageReceipt team id q =>
    match q.check, t.roster.requireNetworkScope tools.texts claims team false now with
    | .ok _, .ok _ => some (t.deleted team id)
    | _, _ => none
  | .listTeamMessages .. | .listNetworkContentDeletions .. => none

section TwoStores
variable [DecidableEq δ] {tools : Tools δ} {A B : Space δ} {claims : Hub.AccessClaims} {now own : Int}
  {x y : Except Err Response}

omit [DecidableEq δ] in
lemma roster_eq (h : A.view claims = B.view claims) : A.roster = B.roster :=
  congrArg (fun t => t.roster) h

omit [DecidableEq δ] in
/-- A bit that decides whether an answer is one fixed error is told by the answer. -/
lemma answers_eq_iff {a b : Bool} (hx : a = true → x = .error e)
    (hx' : a = false → x ≠ .error e) (hy : b = true → y = .error e) (hy' : b = false → y ≠ .error e)
    (h : a = false → b = false → x = y) : x = y ↔ some a = some b := by
  cases a <;> cases b
  · simp [h rfl rfl]
  · rw [hy rfl]
    simp [hx' rfl]
  · rw [hx rfl]
    simp [(hy' rfl).symm]
  · rw [hx rfl, hy rfl]
    simp

/-- A call that begins with `readable`, for a stranded caller. -/
lemma readable_bind_eq_iff {f g : MessageRow × List Address → Except Err Response}
    (h : A.roster = B.roster) (hs : A.roster.stranded tools.texts claims team now = true) :
    (A.readable tools claims now team id >>= f) = (B.readable tools claims now team id >>= g) ↔
      some (A.standing team id) = some (B.standing team id) := by
  obtain ⟨m, e, hm, ho, he⟩ := stranded_eq_true hs
  have hne : resourceNotFound ≠ e := by
    rintro rfl
    exact absurd he (by decide)
  rw [readable_stranded hm ho, readable_stranded (h ▸ hm) (h ▸ ho)]
  refine answers_eq_iff (e := e) (fun ha => ?_) (fun ha => ?_) (fun hb => ?_) (fun hb => ?_)
    fun ha hb => ?_
  · rw [ha]; rfl
  · rw [ha]; exact fun h => hne (Except.error.inj h)
  · rw [hb]; rfl
  · rw [hb]; exact fun h => hne (Except.error.inj h)
  · rw [ha, hb]; rfl

/-- A call that begins with `readableAttachment`, for a stranded caller. -/
lemma readableAttachment_bind_eq_iff {f g : Attachment → Except Err Response}
    (h : A.roster = B.roster) (hs : A.roster.stranded tools.texts claims team now = true)
    (hf : ∀ a e, f a = .error e → e ∉ Roster.unresolved)
    (hg : ∀ a e, g a = .error e → e ∉ Roster.unresolved)
    (hfg : A.attached team id = false → B.attached team id = false →
      (A.readableAttachment tools claims now own team id >>= f) =
        (B.readableAttachment tools claims now own team id >>= g)) :
    (A.readableAttachment tools claims now own team id >>= f) =
      (B.readableAttachment tools claims now own team id >>= g) ↔
      some (A.attached team id) = some (B.attached team id) := by
  obtain ⟨m, e, hm, ho, he⟩ := stranded_eq_true hs
  have unresolved : ∀ {t : Space δ} {k : Attachment → Except Err Response},
      t.roster.requireNetworkScope tools.texts claims team false now = .ok m →
      (∀ a e, k a = .error e → e ∉ Roster.unresolved) → t.attached team id = false →
      (t.readableAttachment tools claims now own team id >>= k) ≠ .error e := by
    intro t k hm hk hn h
    rcases bind_error h with h | ⟨a, _, h⟩
    · rw [readableAttachment_unattached hm hn _ h] at he
      exact absurd he (by decide)
    · exact hk a e h he
  refine answers_eq_iff (fun ha => ?_) (unresolved hm hf) (fun hb => ?_)
    (unresolved (h ▸ hm) hg) hfg
  · rw [readableAttachment_stranded hm ho ha]; rfl
  · rw [readableAttachment_stranded (h ▸ hm) (h ▸ ho) hb]; rfl

lemma recordTeamMessageReceipt_eq_iff (h : A.view claims = B.view claims) (team id : String)
    (q : ReceiptRequest) :
    A.respond tools claims now own (.recordTeamMessageReceipt team id q) =
      B.respond tools claims now own (.recordTeamMessageReceipt team id q) ↔
    A.hint tools claims now (.recordTeamMessageReceipt team id q) =
      B.hint tools claims now (.recordTeamMessageReceipt team id q) := by
  have hr := roster_eq h
  simp only [respond, hint, recordTeamMessageReceipt, ← hr]
  cases hq : q.check with
  | error e => exact iff_of_true rfl rfl
  | ok _ =>
    cases hm : A.roster.requireNetworkScope tools.texts claims team false now with
    | error e => exact iff_of_true rfl rfl
    | ok m =>
      have hB := hm
      rw [hr] at hB
      have found : ∀ {t : Space δ},
          t.roster.requireNetworkScope tools.texts claims team false now = .ok m →
          (t.receiptBody claims own team id q m.role >>= fun p => pure p.2) ≠
            .error resourceNotFound := by
        intro t hm h
        rcases bind_error h with h | ⟨_, _, h⟩
        · exact receiptBody_error hm _ h rfl
        · cases h
      refine answers_eq_iff (e := resourceNotFound) (fun ha => ?_) (fun ha => ?_) (fun hb => ?_)
        (fun hb => ?_) fun ha hb => ?_
      · rw [ha]; rfl
      · rw [ha]; exact found hm
      · rw [hb]; rfl
      · rw [hb]; exact found hB
      · rw [ha, hb]
        exact (view_receiptBody hm).symm.trans (h ▸ view_receiptBody hB)

/-- The bit counts for stranded callers only. -/
lemma iff_hint {s a b : Bool} (ht : s = true → (x = y ↔ some a = some b)) (hf : s = false → x = y) :
    x = y ↔ (if s then some a else none) = if s then some b else none := by
  cases s with
  | true => exact ht rfl
  | false => exact iff_of_true (hf rfl) rfl

/-- RUN: two stores with the same view answer alike exactly when the hints agree. -/
theorem respond_eq_iff (h : A.view claims = B.view claims) (q : Query) :
    A.respond tools claims now own q = B.respond tools claims now own q ↔
      A.hint tools claims now q = B.hint tools claims now q := by
  have hr := roster_eq h
  cases q with
  | listTeamMessages team q =>
    refine iff_of_true ?_ rfl
    exact (view_listTeamMessages tools now).symm.trans (h ▸ view_listTeamMessages tools now)
  | listNetworkContentDeletions team start limit =>
    refine iff_of_true ?_ rfl
    exact (view_listNetworkContentDeletions tools now start limit).symm.trans
      (h ▸ view_listNetworkContentDeletions tools now start limit)
  | recordTeamMessageReceipt team id q => exact recordTeamMessageReceipt_eq_iff h team id q
  | getTeamMessage team id rev =>
    simp only [hint, ← hr]
    refine iff_hint (readable_bind_eq_iff hr) fun hs => ?_
    exact (view_getTeamMessage rev hs).symm.trans (h ▸ view_getTeamMessage rev (hr ▸ hs))
  | listTeamMessageRevisions team id =>
    simp only [hint, ← hr]
    refine iff_hint (readable_bind_eq_iff hr) fun hs => ?_
    exact (view_listTeamMessageRevisions hs).symm.trans
      (h ▸ view_listTeamMessageRevisions (hr ▸ hs))
  | getTeamAttachment team id =>
    simp only [hint, ← hr]
    refine iff_hint (fun hs => readableAttachment_bind_eq_iff hr hs (fun _ _ => nofun)
      (fun _ _ => nofun) fun ha hb => ?_) fun hs => ?_
    · exact (view_getTeamAttachment (.inr ha)).symm.trans (h ▸ view_getTeamAttachment (.inr hb))
    · exact (view_getTeamAttachment (.inl hs)).symm.trans
        (h ▸ view_getTeamAttachment (.inl (hr ▸ hs)))
  | openTeamAttachment team id =>
    simp only [hint, ← hr]
    refine iff_hint (fun hs => readableAttachment_bind_eq_iff hr hs openVisible_error
      openVisible_error fun ha hb => ?_) fun hs => ?_
    · exact (view_openTeamAttachment (.inr ha)).symm.trans (h ▸ view_openTeamAttachment (.inr hb))
    · exact (view_openTeamAttachment (.inl hs)).symm.trans
        (h ▸ view_openTeamAttachment (.inl (hr ▸ hs)))

end TwoStores

/-! ### Deleted messages -/

end Space

def MessagePublic.reveals (item : MessagePublic) (messageId : String) : Bool :=
  item.id = messageId || item.attachments.any fun a => a.messageId = some messageId

/-- The answer shows the title, the body or a part of it, or an attachment of the message. -/
def Response.reveals (messageId : String) : Response → Bool
  | .page _ _ items _ _ => items.any fun item => item.reveals messageId
  | .message item => item.reveals messageId
  | .revisions id _ => id = messageId
  | .attachment item | .opened item _ => item.messageId = some messageId
  | .deletions .. | .receipt .. => false

namespace Space

section Deleted
variable {t : Space δ} {m : Message}

lemma messagePublic_reveals (tools : Tools δ) (row : MessageRow) (body revision : Bool)
    (owned : Option (List Address)) (address : Option Address) {id : String}
    (h : row.message.id ≠ id) :
    (t.messagePublic tools row body revision owned address).reveals id = false := by
  simp only [MessagePublic.reveals, messagePublic, h, decide_false, Bool.false_or, any_map,
    any_eq_false]
  intro a ha hid
  obtain ⟨_, hk⟩ := mem_filter.1 ((mem_insertionSort _).1 ha)
  simp only [Bool.and_eq_true, decide_eq_true_eq] at hk
  have hid : a.messageId = some id := of_decide_eq_true hid
  rw [hk.2] at hid
  exact h (Option.some.inj hid)

lemma selectMessage_unique {teamId messageId : String} (hm : m ∈ t.messages)
    (h : t.selectMessage teamId messageId = some row) (hid : messageId = m.id) : teamId = m.teamId := by
  obtain ⟨hrow, ht, hi⟩ := selectMessage_eq_some h
  rw [← t.messages.eq_of_key hrow hm (hi.trans hid), ht]

variable [DecidableEq δ] {tools : Tools δ} {claims : Hub.AccessClaims} {now own : Int}

lemma readableAttachment_deleted (hm : m ∈ t.messages) (hd : t.deleted m.teamId m.id = true)
    {teamId attachmentId : String} {a : Attachment}
    (h : t.readableAttachment tools claims now own teamId attachmentId = .ok a) :
    a.messageId ≠ some m.id := by
  intro hid
  rcases (readableAttachment_ok h).2 with ⟨hb, _⟩ | ⟨id, p, hb, hp⟩
  · rw [hid] at hb
    cases hb
  · obtain rfl := Option.some.inj (hid.symm.trans hb)
    obtain ⟨hsel, _, hlive⟩ := readable_ok hp
    rw [selectMessage_unique hm hsel rfl, hd] at hlive
    cases hlive

/-- RUN: no answer shows a deleted message. -/
theorem respond_reveals (hm : m ∈ t.messages) (hd : t.deleted m.teamId m.id = true) {q : Query}
    {r : Response} (h : t.respond tools claims now own q = .ok r) : r.reveals m.id = false := by
  cases q with
  | listTeamMessages team q =>
    obtain ⟨since, _, h⟩ := bind_ok h
    obtain ⟨_, hscope, h⟩ := bind_ok h
    obtain ⟨owned, ho, h⟩ := bind_ok h
    obtain ⟨address, haddress, h⟩ := bind_ok h
    obtain ⟨_, _, h⟩ := bind_ok h
    cases h
    simp only [Response.reveals, any_map, any_eq_false]
    intro row hrow
    obtain ⟨hmem, _, hsel⟩ := mem_listRows (addresses_eq hscope ho)
      (listedAddress_mem haddress) (mem_of_mem_take hrow)
    refine Bool.eq_false_iff.1 (messagePublic_reveals tools row _ _ _ _ fun hid => ?_)
    rw [t.messages.eq_of_key hmem hm hid] at hsel
    simp [selected, hd] at hsel
  | getTeamMessage team id rev =>
    obtain ⟨⟨row, owned⟩, hrow, h⟩ := bind_ok h
    cases h
    obtain ⟨hsel, _, hlive⟩ := readable_ok hrow
    refine messagePublic_reveals tools row _ _ _ _ fun hid => ?_
    have hi := (selectMessage_eq_some hsel).2.2.symm.trans hid
    rw [selectMessage_unique hm hsel hi, hi, hd] at hlive
    cases hlive
  | listTeamMessageRevisions team id =>
    obtain ⟨⟨row, owned⟩, hrow, h⟩ := bind_ok h
    cases h
    obtain ⟨hsel, _, hlive⟩ := readable_ok hrow
    refine decide_eq_false fun hid => ?_
    rw [selectMessage_unique hm hsel hid, hid, hd] at hlive
    cases hlive
  | getTeamAttachment team id =>
    obtain ⟨a, ha, h⟩ := bind_ok h
    cases h
    exact decide_eq_false (readableAttachment_deleted hm hd ha)
  | openTeamAttachment team id =>
    obtain ⟨a, ha, h⟩ := bind_ok h
    obtain ⟨_, _, h⟩ := bind_ok h
    obtain ⟨bytes, _, h⟩ := bind_ok h
    cases h
    exact decide_eq_false (readableAttachment_deleted hm hd ha)
  | listNetworkContentDeletions team start limit =>
    iterate 4 obtain ⟨_, _, h⟩ := bind_ok h
    cases h
    rfl
  | recordTeamMessageReceipt team id q =>
    obtain ⟨p, hp, h⟩ := bind_ok h
    iterate 3 obtain ⟨_, _, hp⟩ := bind_ok hp
    obtain ⟨id, recipients, hr⟩ := receiptBody_ok hp
    rw [hr] at h
    cases h
    rfl

end Deleted

/-! ### The result -/

/-- A caller learns nothing of messages that do not concern it, but for the hint of a call; a
    deleted message is shown to nobody. -/
theorem hidden_messages_unseen [DecidableEq δ] (tools : Tools δ) (A B : Space δ)
    (claims : Hub.AccessClaims) (h : A.view claims = B.view claims) (now own : Int) (q : Query) :
    (A.respond tools claims now own q = B.respond tools claims now own q ↔
      A.hint tools claims now q = B.hint tools claims now q) ∧
    ∀ m ∈ A.messages, A.deleted m.teamId m.id = true →
      ∀ r, A.respond tools claims now own q = .ok r → r.reveals m.id = false :=
  ⟨respond_eq_iff h q, fun _ hm hd _ hr => respond_reveals hm hd hr⟩

/-- Three members of a team; the first one is signed in. -/
def threeMembers : Roster String where
  hub := { Hub.empty with
    dir := { Directory.empty with
      principals := ⟨[⟨"u1", .human "a@b.c", "A", .active, 0, 0⟩,
        ⟨"u2", .human "b@b.c", "B", .active, 0, 0⟩, ⟨"u3", .human "c@b.c", "C", .active, 0, 0⟩],
        by decide⟩
      teams := ["t"]
      memberships := ⟨[⟨"m1", "t", "u1", .member, .active, none, 0, 0⟩,
        ⟨"m2", "t", "u2", .member, .active, none, 0, 0⟩,
        ⟨"m3", "t", "u3", .member, .active, none, 0, 0⟩], by decide⟩ }
    sessions := ⟨[⟨"s1", "u1", "phone", 0, 0, 0, 900, none⟩], by decide⟩ }
  nodePrincipal := id
  nodeDisplayName := id
  peerBindings := []
  managedHostIdentity := none
  skillSlug := fun _ _ => none
  boardReadable := fun _ _ => false

/-- The second member wrote to the third; then the message was deleted, or not. -/
def letter (deletions : List Deletion) : Space String where
  roster := threeMembers
  messages := ⟨[⟨"msg", 1, "t", .message, none, "markdown", "secret", "d", .human "u2", "", none, none,
    none, 100⟩], by decide⟩
  recipients := ⟨[⟨"r", "t", "msg", .human "u3", .available, none, none⟩], by decide⟩
  revisions := []
  attachments := .empty
  deletions := deletions
  receipts := []
  content := fun _ => none

def reader : Hub.AccessClaims := ⟨"u1", "s1", "jti", 900, .human, none, [], none⟩

def plainTools : Tools String := ⟨⟨id, some, some, id⟩, fun _ => "", fun _ => [], fun _ => 0⟩

def letterDeleted : Space String := letter [⟨1, "t", .message, "msg", 200⟩]

lemma letter_view : letterDeleted.view reader = (letter []).view reader := rfl

/-- The first member gets the same answer in both stores when it asks for the letter. -/
theorem hidden_letter_unseen :
    letterDeleted.respond plainTools reader 300 300 (.getTeamMessage "t" "msg" true) =
      (letter []).respond plainTools reader 300 300 (.getTeamMessage "t" "msg" true) ∧
    ∀ r, letterDeleted.respond plainTools reader 300 300 (.getTeamMessage "t" "msg" true) = .ok r →
      r.reveals "msg" = false := by
  have h := hidden_messages_unseen plainTools letterDeleted (letter []) reader letter_view 300 300
    (.getTeamMessage "t" "msg" true)
  exact ⟨h.1.2 (by decide +kernel), h.2 _ (.head _) (by decide +kernel)⟩

/-- The answer to a receipt of the first member tells whether the letter was deleted. -/
theorem receipt_tells_deletion :
    letterDeleted.view reader = (letter []).view reader ∧
    letterDeleted.respond plainTools reader 300 300
      (.recordTeamMessageReceipt "t" "msg" ⟨"read", "12345678"⟩) = .error resourceNotFound ∧
    (letter []).respond plainTools reader 300 300
      (.recordTeamMessageReceipt "t" "msg" ⟨"read", "12345678"⟩) =
        .error (.hub "forbidden" "This message is not addressed to the caller" 403) :=
  ⟨letter_view, by decide +kernel, by decide +kernel⟩

end Space

end TeamHub.Mail
