import ZenithBot.SecurePeer.Chain

/-! Leases and receipts. A claim hands envelopes out under a token and stores the token's digest in
    the rows; a receipt is taken from whoever presents a token with that digest. What one call does to
    one row is said once (`RowMove`), and the invariant is that a claimed row holds the digest of the
    token of the last claim that returned it, and that a settled envelope never becomes live again.
    Nothing here looks at the clock of an earlier call: timestamps may come in any order. -/

namespace SecurePeer
open Lib Table List

variable {δ : Type}
variable {e e' : Envelope δ} {token : String} {rows : List (Envelope δ)} {call : Call} {r : Receipt}
  {out : List (Handout δ)} {w : World δ} {h : Host δ}

/-! ### Rows -/

/-- What a call that handed out `out` can do to a row. -/
inductive RowMove (h : Host δ) (out : List (Handout δ)) : Envelope δ → Envelope δ → Prop where
  | same {e : Envelope δ} (hn : ∀ a ∈ out, ¬a.returns e.id) : RowMove h out e e
  | expire {e : Envelope δ} (hs : e.status.live = true) : RowMove h out e e.expire
  | requeue {e e' : Envelope δ} (hs : e.status = .claimed) (hs' : e'.status = .queued)
      (hl : e'.toLetter = e.toLetter) : RowMove h out e e'
  | lease {e e' : Envelope δ} {a : Handout δ} (hs : e.status.live = true) (hs' : e'.status = .claimed)
      (hl : e'.toLetter = e.toLetter) (ha : out = [a]) (hr : a.returns e.id)
      (ht : e'.leaseTokenHash = some (h.sha256 a.token)) : RowMove h out e e'
  | settle {e e' : Envelope δ} (outcome : Outcome) (hs : e.status = .claimed)
      (hs' : e'.status = outcome.status) (hl : e'.toLetter = e.toLetter) : RowMove h out e e'

/-- The changes of status. -/
inductive StatusMove : EnvelopeStatus → EnvelopeStatus → Prop where
  | lease : StatusMove .queued .claimed
  | requeue : StatusMove .claimed .queued
  | settle (outcome : Outcome) : StatusMove .claimed outcome.status
  | expire {status : EnvelopeStatus} (hs : status.live = true) : StatusMove status .expired

namespace RowMove
variable {h : Host δ} {out : List (Handout δ)} {e e' : Envelope δ}

lemma letter (hm : RowMove h out e e') : e'.toLetter = e.toLetter := by
  cases hm with
  | same | expire => rfl
  | requeue _ _ hl | lease _ _ hl | settle _ _ _ hl => exact hl

lemma dead (hm : RowMove h out e e') (hd : e.status.live = false) : e' = e := by
  cases hm with
  | same => rfl
  | expire hs | lease hs => rw [hd] at hs; cases hs
  | requeue hs | settle _ hs => rw [hs] at hd; cases hd

lemma status (hm : RowMove h out e e') : e'.status = e.status ∨ StatusMove e.status e'.status := by
  cases hm with
  | same => exact .inl rfl
  | expire hs => exact .inr (.expire hs)
  | requeue hs hs' => rw [hs, hs']; exact .inr .requeue
  | lease hs hs' =>
    rw [hs']
    cases he : e.status with
    | queued => exact .inr .lease
    | claimed => exact .inl rfl
    | delivered | failed | expired => rw [he] at hs; cases hs
  | settle outcome hs hs' => rw [hs, hs']; exact .inr (.settle outcome)

end RowMove

/-! ### What a call does to the rows -/

section Rows
variable {h : Host δ} {s s' : Store δ} {t : Nat}

lemma Fades.move (hf : Fades s s') (he' : e' ∈ s'.envelopes) :
    ∃ e ∈ s.envelopes, RowMove h [] e e' := by
  obtain ⟨e, he, rfl | ⟨hl, rfl⟩⟩ := hf.envelopes e' he'
  · exact ⟨e', he, .same nofun⟩
  · exact ⟨e, he, .expire hl⟩

lemma prune_move (he' : e' ∈ (s.pruneRelayState t).envelopes) :
    ∃ e ∈ s.envelopes, RowMove h [] e e' := by
  obtain ⟨e, he, ⟨hl, _, rfl⟩ | ⟨rfl, _⟩⟩ := prune_envelope he'
  · exact ⟨e, he, .expire hl⟩
  · exact ⟨e', he, .same nofun⟩

/-- A queued row a claim selects from was live before, and has not run out. -/
lemma claimBase_queued (he : e ∈ (claimBase s t).envelopes) (hq : e.status = .queued) :
    ∃ e0 ∈ s.envelopes, e0.status.live = true ∧ e.toLetter = e0.toLetter ∧ t < e.expiresAt := by
  obtain ⟨e1, he1, hbase⟩ := claimBase_envelope he
  have hlive : e1.status.live = true := by
    rcases hbase with rfl | ⟨hc, _⟩
    · rw [hq]; rfl
    · rw [hc]; rfl
  have hl : e.toLetter = e1.toLetter := by
    rcases hbase with rfl | ⟨_, _, hl⟩
    · rfl
    · exact hl
  have hexp : e.expiresAt = e1.expiresAt := congrArg Letter.expiresAt hl
  obtain ⟨e0, he0, ⟨_, _, rfl⟩ | ⟨rfl, hlt⟩⟩ := prune_envelope he1
  · cases hlive
  · exact ⟨e1, he0, hlive, hl, hexp ▸ hlt hlive⟩

/-- A row a claim leaves alone was left alone, expired or requeued. -/
lemma claimBase_move (he : e ∈ (claimBase s t).envelopes) (hn : ∀ a ∈ out, ¬a.returns e.id) :
    ∃ e0 ∈ s.envelopes, RowMove h out e0 e := by
  obtain ⟨e1, he1, hbase⟩ := claimBase_envelope he
  obtain ⟨e0, he0, hprune⟩ := prune_envelope he1
  refine ⟨e0, he0, ?_⟩
  rcases hprune with ⟨hl, _, rfl⟩ | ⟨rfl, _⟩ <;> rcases hbase with rfl | ⟨hc, hq, hlet⟩
  · exact .expire hl
  · cases hc
  · exact .same hn
  · exact .requeue hc hq hlet

lemma Claimed.move {reply : ClaimReply δ} (hc : Claimed s s' call (h.sha256 token) rows)
    (hrows : reply.envelopes = rows.map Envelope.toLetter)
    (hl : reply.leaseToken = some token ∨ (reply.leaseToken = none ∧ rows = []))
    (he' : e' ∈ s'.envelopes) :
    ∃ e ∈ s.envelopes, RowMove h ((Reply.claimed reply).handout call.timestamp) e e' := by
  obtain ⟨e, he, ⟨hout, rfl⟩ | ⟨hin, hlet, hst, hhash⟩⟩ := hc.envelope e' he'
  · refine claimBase_move he fun a ha hr => hout ?_
    -- a row with the identifier of a returned letter is the row that was returned
    obtain ⟨_, _, rfl⟩ := mem_map.1 ha
    obtain ⟨l, hmem, hid⟩ := hr
    rw [hrows] at hmem
    obtain ⟨r, hr, rfl⟩ := mem_map.1 hmem
    exact (claimBase s call.timestamp).envelopes.eq_of_key (hc.queued r hr).1 he hid ▸ hr
  · obtain ⟨e0, he0, hlive, hlet0, _⟩ := claimBase_queued (hc.queued e hin).1 (hc.queued e hin).2
    rcases hl with hl | ⟨_, rfl⟩
    · refine ⟨e0, he0, .lease hlive hst (hlet.trans hlet0) (a := ⟨token, call.timestamp,
        reply.envelopes⟩) ?_ ⟨e.toLetter, ?_, congrArg Letter.id hlet0⟩ hhash⟩
      · simp [Reply.handout, hl]
      · rw [hrows]; exact mem_map_of_mem hin
    · cases hin

lemma settleEnvelope_move {outcome : Outcome} (he : e ∈ s.envelopes) (hs : e.status = .claimed)
    (he' : e' ∈ (s.settleEnvelope e.id outcome).envelopes) :
    ∃ e ∈ s.envelopes, RowMove h [] e e' := by
  obtain ⟨e0, he0, hl, ⟨hid, hs'⟩ | ⟨_, rfl⟩⟩ := settleEnvelope_cases he'
  · obtain rfl := s.envelopes.eq_of_key he0 he hid
    exact ⟨e0, he0, .settle outcome hs hs' hl⟩
  · exact ⟨e', he0, .same nofun⟩

end Rows

/-! ### The last token -/

section LastToken
variable {handouts out : List (Handout δ)} {id : Uuid}

lemma lastToken_append_other (hn : ∀ a ∈ out, ¬a.returns id) :
    lastToken (handouts ++ out) id = lastToken handouts id := by
  unfold lastToken
  rw [reverse_append, find?_append, find?_eq_none.2 ?_, Option.none_or]
  intro a ha
  simpa using hn a (mem_reverse.1 ha)

lemma lastToken_append_returns {a : Handout δ} (hr : a.returns id) :
    lastToken (handouts ++ [a]) id = some a.token := by
  simp [lastToken, hr]

lemma lastToken_some (h : lastToken handouts id = some token) :
    ∃ a ∈ handouts, a.returns id ∧ a.token = token := by
  obtain ⟨a, ha, rfl⟩ := Option.map_eq_some_iff.1 h
  exact ⟨a, mem_reverse.1 (mem_of_find?_eq_some ha), by simpa using find?_some ha, rfl⟩

end LastToken

/-! ### The invariant -/

/-- Leases and receipts agree with the history. -/
structure LeaseOk (h : Host δ) (s : Store δ) (created : List (Created δ)) (handouts : List (Handout δ))
    (settlements : List Settlement) : Prop where
  letters : ∀ e ∈ s.envelopes, ∃ c ∈ created, c.letter = e.toLetter
  leased : ∀ e ∈ s.envelopes, e.status = .claimed → ∃ token, lastToken handouts e.id = some token ∧
    e.leaseTokenHash = some (h.sha256 token)
  tokens : (handouts.map Handout.token).Nodup
  known : ∀ x ∈ settlements, ∃ c ∈ created, c.letter.id = x.envelopeId
  once : (settlements.map Settlement.envelopeId).Nodup
  holder : ∀ x ∈ settlements, ∃ token, x.token = some token ∧
    lastToken handouts x.envelopeId = some token
  fate : ∀ x ∈ settlements, ∀ e ∈ s.envelopes, e.id = x.envelopeId → e.status = x.outcome.status
  receipts : ∀ r ∈ s.receipts, ∃ x ∈ settlements, x.envelopeId = r.envelopeId ∧ x.outcome = r.outcome

lemma Outcome.status_dead (outcome : Outcome) : outcome.status.live = false := by
  cases outcome <;> rfl

/-- What a call that records no receipt and accepts no letter does. -/
structure Handled (h : Host δ) (s s' : Store δ) (out : List (Handout δ)) : Prop where
  rows : ∀ e' ∈ s'.envelopes, ∃ e ∈ s.envelopes, RowMove h out e e'
  receipts : ∀ r ∈ s'.receipts, r ∈ s.receipts
  live : ∀ a ∈ out, ∀ l ∈ a.letters, ∃ e ∈ s.envelopes, e.toLetter = l ∧ e.status.live = true
  single : out.length ≤ 1

section Invariant
variable {h : Host δ} {s s' : Store δ} {created : List (Created δ)} {handouts : List (Handout δ)}
  {settlements : List Settlement}

section
variable (hok : LeaseOk h s created handouts settlements)
include hok

lemma LeaseOk.unsettled (he : e ∈ s.envelopes) (hl : e.status.live = true) :
    ∀ x ∈ settlements, x.envelopeId ≠ e.id := by
  intro x hx hid
  have hdead := x.outcome.status_dead
  rw [← hok.fate x hx e he hid.symm, hl] at hdead
  cases hdead

/-- FRAME: moving rows and handing out live ones under new tokens keeps the invariant. -/
theorem LeaseOk.frame (hh : Handled h s s' out)
    (hfresh : ∀ a ∈ out, ∀ b ∈ handouts, b.token ≠ a.token) :
    LeaseOk h s' created (handouts ++ out) settlements where
  letters := by
    intro e' he'
    obtain ⟨e, he, hm⟩ := hh.rows e' he'
    rw [hm.letter]
    exact hok.letters e he
  leased := by
    intro e' he' hs'
    obtain ⟨e, he, hm⟩ := hh.rows e' he'
    cases hm with
    | same hn => rw [lastToken_append_other hn]; exact hok.leased e' he hs'
    | expire => cases hs'
    | requeue _ hq => rw [hq] at hs'; cases hs'
    | lease _ _ hl ha hr ht =>
      have hid : e'.id = e.id := congrArg Letter.id hl
      exact ⟨_, by rw [ha, hid, lastToken_append_returns hr], ht⟩
    | settle outcome _ ho =>
      have hdead := outcome.status_dead
      rw [← ho, hs'] at hdead
      cases hdead
  tokens := by
    rw [map_append, nodup_append]
    refine ⟨hok.tokens, ?_, ?_⟩
    · match out, hh.single with
      | [], _ => exact nodup_nil
      | [a], _ => exact nodup_singleton _
    · intro x hx y hy
      obtain ⟨b, hb, rfl⟩ := mem_map.1 hx
      obtain ⟨a, ha, rfl⟩ := mem_map.1 hy
      exact hfresh a ha b hb
  known := hok.known
  once := hok.once
  holder := by
    intro x hx
    rw [lastToken_append_other]
    · exact hok.holder x hx
    · rintro a ha ⟨l, hl, hid⟩
      obtain ⟨e, he, rfl, hlive⟩ := hh.live a ha l hl
      exact hok.unsettled he hlive x hx hid.symm
  fate := by
    intro x hx e' he' hid
    obtain ⟨e, he, hm⟩ := hh.rows e' he'
    have hfate := hok.fate x hx e he ((congrArg Letter.id hm.letter).symm.trans hid)
    rw [hm.dead (by rw [hfate]; exact x.outcome.status_dead), hfate]
  receipts := fun r hr => hok.receipts r (hh.receipts r hr)

lemma LeaseOk.accept {payload : EnvelopePayload} {envelopeId exchangeId : Uuid} {x : Exchange}
    {c : Created δ} (hnew : ∀ c ∈ created, c.letter.id ≠ envelopeId)
    (ha : Accepted s s' call payload envelopeId exchangeId x c.letter) :
    LeaseOk h s' (created ++ [c]) handouts settlements := by
  have hmem {e' : Envelope δ} (he' : e' ∈ s'.envelopes) :
      e' ∈ s.envelopes ∨ (e'.toLetter = c.letter ∧ e'.status = .queued) := by
    rw [mem_def, ha.envelopes, mem_append, mem_singleton] at he'
    rcases he' with he' | rfl
    · exact .inl he'
    · exact .inr ⟨rfl, rfl⟩
  refine ⟨?_, ?_, hok.tokens, ?_, hok.once, hok.holder, ?_, ?_⟩
  · intro e' he'
    rcases hmem he' with he' | ⟨hl, _⟩
    · obtain ⟨d, hd, hl⟩ := hok.letters e' he'
      exact ⟨d, mem_append_left _ hd, hl⟩
    · exact ⟨c, mem_append_right _ (mem_singleton_self c), hl.symm⟩
  · intro e' he' hs'
    rcases hmem he' with he' | ⟨_, hq⟩
    · exact hok.leased e' he' hs'
    · rw [hq] at hs'; cases hs'
  · intro y hy
    obtain ⟨d, hd, hid⟩ := hok.known y hy
    exact ⟨d, mem_append_left _ hd, hid⟩
  · intro y hy e' he' hid
    rcases hmem he' with he' | ⟨hl, _⟩
    · exact hok.fate y hy e' he' hid
    · obtain ⟨d, hd, hdid⟩ := hok.known y hy
      have hc : e'.id = envelopeId := (congrArg Letter.id hl).trans ha.id
      exact absurd (hdid.trans (hid.symm.trans hc)) (hnew d hd)
  · rw [ha.receipts]; exact hok.receipts

lemma LeaseOk.settle {t : Table Receipt Uuid Receipt.envelopeId} (he : e ∈ s.envelopes)
    (hs : e.status = .claimed) (htoken : lastToken handouts e.id = some token)
    (hid : r.envelopeId = e.id) (ht : s.receipts.insert? r = some t) :
    LeaseOk h { s.settleEnvelope e.id r.outcome with receipts := t } created handouts
      (settlements ++ [⟨r.envelopeId, some token, r.outcome⟩]) := by
  have hh : Handled h s (s.settleEnvelope e.id r.outcome) [] :=
    ⟨fun _ he' => settleEnvelope_move he hs he', fun _ hr => hr, nofun, Nat.zero_le 1⟩
  have hframe := hok.frame hh nofun
  rw [append_nil] at hframe
  have hnew := hok.unsettled he (by rw [hs]; rfl)
  refine ⟨hframe.letters, hframe.leased, hok.tokens, ?_, ?_, ?_, ?_, ?_⟩
  · refine forall_mem_append.2 ⟨hok.known, forall_mem_singleton.2 ?_⟩
    obtain ⟨c, hc, hl⟩ := hok.letters e he
    exact ⟨c, hc, (congrArg Letter.id hl).trans hid.symm⟩
  · rw [map_append, nodup_append]
    refine ⟨hok.once, nodup_singleton _, ?_⟩
    intro i hi j hj
    obtain ⟨x, hx, rfl⟩ := mem_map.1 hi
    rw [map_singleton, mem_singleton] at hj
    rw [hj, hid]
    exact hnew x hx
  · refine forall_mem_append.2 ⟨hok.holder, forall_mem_singleton.2 ?_⟩
    exact ⟨token, rfl, by rw [hid]; exact htoken⟩
  · refine forall_mem_append.2 ⟨hframe.fate, forall_mem_singleton.2 fun e' he' hxid => ?_⟩
    obtain ⟨e0, _, hl, ⟨_, hs'⟩ | ⟨hne, rfl⟩⟩ := settleEnvelope_cases he'
    · exact hs'
    · exact absurd (hxid.trans hid) hne
  · intro y hy
    rcases (mem_insert? ht).1 hy with hy | rfl
    · obtain ⟨x, hx, hxy⟩ := hok.receipts y hy
      exact ⟨x, mem_append_left _ hx, hxy⟩
    · exact ⟨_, mem_append_right _ (mem_singleton_self _), rfl, rfl⟩

end

end Invariant

/-! ### Every call -/

section Calls
variable {h : Host δ} {s s' : Store δ} {op : Op δ} {reply : Reply δ}

/-- What a claim answers: rows that were live, have not run out, and whose routes are current. -/
lemma Claimed.answer {hash : δ} (hc : Claimed s s' call hash rows) {l : Letter δ}
    (hl : l ∈ rows.map Envelope.toLetter) :
    (∃ e ∈ s.envelopes, e.toLetter = l ∧ e.status.live = true) ∧ call.timestamp < l.expiresAt ∧
      ∃ source ∈ s.routes, ∃ target ∈ s.routes, source.id = l.sourceRouteId ∧
        target.id = l.targetRouteId ∧ source.status = .active ∧ target.status = .active ∧
        source.revision = l.sourceRouteRevision ∧ target.revision = l.targetRouteRevision := by
  obtain ⟨e, he, rfl⟩ := mem_map.1 hl
  obtain ⟨e0, he0, hlive, hlet, hlt⟩ := claimBase_queued (hc.queued e he).1 (hc.queued e he).2
  exact ⟨⟨e0, he0, hlet.symm, hlive⟩, hlt, hc.current e he⟩

lemma Claimed.handled {answer : ClaimReply δ} (hc : Claimed s s' call (h.sha256 token) rows)
    (hrows : answer.envelopes = rows.map Envelope.toLetter)
    (hl : answer.leaseToken = some token ∨ (answer.leaseToken = none ∧ rows = [])) :
    Handled h s s' ((Reply.claimed answer).handout call.timestamp) where
  rows := fun _ he' => hc.move hrows hl he'
  receipts := fun r hr => prune_receipt (hc.receipts ▸ hr)
  live := by
    intro a ha l hmem
    obtain ⟨_, _, rfl⟩ := mem_map.1 ha
    rw [hrows] at hmem
    exact (hc.answer hmem).1
  single := by
    cases ht : answer.leaseToken <;> simp [Reply.handout]

lemma Fades.handled (hf : Fades s s') : Handled h s s' [] where
  rows := fun _ he' => hf.move he'
  receipts := fun _ hr => hf.receipts ▸ hr
  live := nofun
  single := Nat.zero_le 1

lemma prune_handled (s : Store δ) (t : Nat) : Handled h s (s.pruneRelayState t) [] where
  rows := fun _ he' => prune_move he'
  receipts := fun _ hr => prune_receipt hr
  live := nofun
  single := Nat.zero_le 1

lemma Reply.Plain.handout (hr : reply.Plain) (t : Nat) : reply.handout t = [] := by
  cases hr <;> rfl

/-- What a receipt that is not a replay writes. -/
structure Settled (h : Host δ) (s s' : Store δ) (op : Op δ) (reply : Reply δ) (e : Envelope δ)
    (r : Receipt) (token : String) : Prop where
  presented : op.action.presentedToken? = some token
  mem : e ∈ s.envelopes
  claimed : e.status = .claimed
  held : e.leaseTokenHash = some (h.sha256 token)
  id : r.envelopeId = e.id
  store : ∃ t, s.receipts.insert? r = some t ∧
    s' = { s.settleEnvelope e.id r.outcome with receipts := t }
  answer : reply = .receipted ⟨r.envelopeId, r.outcome, r.receivedAt⟩

/-- A call moves rows and hands some out, or accepts a letter, or records a receipt. -/
lemma Performed.lease_cases (hp : Performed h s op s' reply) :
    (Handled h s s' (reply.handout op.call.timestamp) ∧
      ∀ a ∈ reply.handout op.call.timestamp, op.action.leaseToken? = some a.token) ∨
    (reply.handout op.call.timestamp = [] ∧ ∃ payload envelopeId exchangeId x l,
      op.action.payload? = some payload ∧ op.action.drawn? = some (envelopeId, exchangeId) ∧
      Accepted (s.pruneRelayState op.call.timestamp) s' op.call payload envelopeId exchangeId x l) ∨
    ∃ e r token, Settled h s s' op reply e r token := by
  cases hp with
  | refused => exact .inl ⟨(Fades.refl s).handled, nofun⟩
  | changed hc hr =>
    rw [hr.handout]
    exact .inl ⟨hc.fades.handled, nofun⟩
  | replayed => exact .inl ⟨prune_handled s _, nofun⟩
  | accepted _ hp hd ha => exact .inr (.inl ⟨rfl, _, _, _, _, _, hp, hd, ha⟩)
  | claimed answer ht hc he hl =>
    refine .inl ⟨hc.handled he hl, fun a ha => ?_⟩
    obtain ⟨t, hmem, rfl⟩ := mem_map.1 ha
    rw [Option.mem_toList] at hmem
    rcases hl with hl | ⟨hl, _⟩
    · rw [ht, ← hl]; exact hmem
    · rw [hl] at hmem; cases hmem
  | receipted ht hc =>
    cases hc with
    | replay => exact .inl ⟨(Fades.refl s).handled, nofun⟩
    | expire =>
      refine .inl ⟨Fades.handled ?_, nofun⟩
      exact (Fades.expireEnvelopes s _).trans (.expireExchanges _ _)
    | settle he hs hl hid ho hins =>
      subst ho
      exact .inr (.inr ⟨_, _, _, ht, he, hs, hl, hid, ⟨_, hins, rfl⟩, rfl⟩)

lemma newReceipts_nil (hr : ∀ r ∈ s'.receipts, r ∈ s.receipts) : newReceipts s s' = [] := by
  unfold newReceipts
  rw [filter_eq_nil_iff]
  intro r hmem hnone
  exact find?_eq_none.1 (Option.isNone_iff_eq_none.1 hnone) r (hr r hmem) rfl

lemma newReceipts_insert (hr : s'.receipts.rows = s.receipts.rows ++ [r])
    (hnew : ∀ y ∈ s.receipts, y.envelopeId ≠ r.envelopeId) : newReceipts s s' = [r] := by
  unfold newReceipts
  rw [hr, filter_append]
  have hold : newReceipts s s = [] := newReceipts_nil fun _ hr => hr
  unfold newReceipts at hold
  have hone : (s.receipts.find? r.envelopeId).isNone = true :=
    Option.isNone_iff_eq_none.2 (find?_eq_none.2 hnew)
  rw [hold]
  simp [hone]

end Calls

/-! ### Runs -/

/-- What is drawn at random is new, and the presented token has the digest of no other token that was
    handed out. -/
def Fair (h : Host δ) (w : World δ) (op : Op δ) : Prop :=
  (∀ d ∈ op.action.drawn?, ∀ c ∈ w.created, c.letter.id ≠ d.1) ∧
  (∀ token ∈ op.action.leaseToken?, ∀ a ∈ w.handouts, a.token ≠ token) ∧
  ∀ token ∈ op.action.presentedToken?, ∀ a ∈ w.handouts,
    h.sha256 token = h.sha256 a.token → token = a.token

instance [DecidableEq δ] (h : Host δ) (w : World δ) (op : Op δ) : Decidable (Fair h w op) :=
  inferInstanceAs (Decidable (_ ∧ _ ∧ _))

def World.LeaseOk (h : Host δ) (w : World δ) : Prop :=
  SecurePeer.LeaseOk h w.store w.created w.handouts w.settlements

lemma new_leaseOk (h : Host δ) (available : Bool) : (World.new available).LeaseOk h where
  letters := fun e he => absurd he (not_mem_empty e)
  leased := fun e he => absurd he (not_mem_empty e)
  tokens := nodup_nil
  known := nofun
  once := nodup_nil
  holder := nofun
  fate := nofun
  receipts := fun r hr => absurd hr (not_mem_empty r)

/-- The presented token is the one the row was leased under. -/
lemma World.LeaseOk.presented {op : Op δ} (hw : w.LeaseOk h)
    (hf : Fair h w op) {s' : Store δ} {reply : Reply δ} (hs : Settled h w.store s' op reply e r token) :
    lastToken w.handouts e.id = some token := by
  obtain ⟨last, hlast, hhash⟩ := hw.leased e hs.mem hs.claimed
  obtain ⟨a, ha, _, rfl⟩ := lastToken_some hlast
  have hdigest : h.sha256 token = h.sha256 a.token := Option.some.inj (hs.held.symm.trans hhash)
  rw [hf.2.2 token hs.presented a ha hdigest]
  exact hlast

section Run
variable [DecidableEq δ] (h : Host δ)

/-- STEP: a fair call keeps leases and receipts right. -/
theorem step_leaseOk (w : World δ) (op : Op δ) (hf : Fair h w op) (hw : w.LeaseOk h) :
    (step h w op).LeaseOk h := by
  unfold World.LeaseOk
  rcases (perform_performed h w.store op).lease_cases with ⟨hh, htoken⟩ | ⟨hout, hacc⟩ | hset
  · have hcr : newEnvelopes w.store (perform h w.store op).1 = [] := by
      refine newEnvelopes_nil fun e' he' => ?_
      obtain ⟨e, he, hm⟩ := hh.rows e' he'
      exact ⟨e, he, hm.letter⟩
    have hst := newReceipts_nil hh.receipts
    simp only [step, hcr, hst, map_nil, append_nil]
    exact LeaseOk.frame hw hh fun a ha => hf.2.1 a.token (htoken a ha)
  · obtain ⟨payload, envelopeId, exchangeId, x, l, hp, hd, ha⟩ := hacc
    have hnew := hf.1 _ hd
    have hst : newReceipts w.store (perform h w.store op).1 = [] :=
      newReceipts_nil fun r hr => prune_receipt (ha.receipts ▸ hr)
    rw [step_created_accepted h hw.letters hnew hp ha]
    simp only [step, hout, hst, map_nil, append_nil]
    have hpruned := LeaseOk.frame hw (prune_handled w.store op.call.timestamp) fun a ha => by cases ha
    rw [append_nil] at hpruned
    exact hpruned.accept hnew ha
  · obtain ⟨e, r, token, hs⟩ := hset
    have htoken := hw.presented hf hs
    obtain ⟨t, hins, hstore⟩ := hs.store
    obtain ⟨hrows, hnone⟩ := insert?_eq_some hins
    have hcr : newEnvelopes w.store (perform h w.store op).1 = [] := by
      rw [hstore]
      refine newEnvelopes_nil fun e' he' => ?_
      obtain ⟨e0, he0, hl, _⟩ := settleEnvelope_cases he'
      exact ⟨e0, he0, hl⟩
    have hst : newReceipts w.store (perform h w.store op).1 = [r] := by
      rw [hstore]
      exact newReceipts_insert hrows hnone
    simp only [step, hcr, hst, hs.answer, Reply.handout, hs.presented, map_nil,
      append_nil]
    rw [hstore]
    exact LeaseOk.settle hw hs.mem hs.claimed htoken hs.id hins

lemma run_leaseOk (available : Bool) (ops : List (Op δ))
    (hf : Along (step h) (Fair h) (World.new available) ops) :
    (run (step h) (World.new available) ops).LeaseOk h :=
  run_inv_along (step_leaseOk h) ops _ hf (new_leaseOk h available)

end Run

/-! ### The protocol -/

/-- What receipts and handouts look like in a world. -/
structure ReceiptsOnce (w : World δ) : Prop where
  once : (w.settlements.map Settlement.envelopeId).Nodup
  recorded : ∀ r ∈ w.store.receipts, ∃ x ∈ w.settlements, x.envelopeId = r.envelopeId ∧
    x.outcome = r.outcome
  settler : ∀ x ∈ w.settlements, ∃ a ∈ w.handouts, a.returns x.envelopeId ∧
    x.token = some a.token ∧ lastToken w.handouts x.envelopeId = some a.token ∧
    ∀ b ∈ w.handouts, x.token = some b.token → b = a

/-- What one more call may do. -/
structure CallSafe [DecidableEq δ] (h : Host δ) (w : World δ) (op : Op δ) : Prop where
  claim : ∀ answer, (perform h w.store op).2 = .claimed answer → ∀ l ∈ answer.envelopes,
    (∃ c ∈ w.created, c.letter = l) ∧ (∀ x ∈ w.settlements, x.envelopeId ≠ l.id) ∧
    op.call.timestamp < l.expiresAt ∧
    ∃ source ∈ w.store.routes, ∃ target ∈ w.store.routes, source.id = l.sourceRouteId ∧
      target.id = l.targetRouteId ∧ source.status = .active ∧ target.status = .active ∧
      source.revision = l.sourceRouteRevision ∧ target.revision = l.targetRouteRevision
  submission : ∀ l ∈ newEnvelopes w.store (perform h w.store op).1,
    (∃ source ∈ w.store.routes, source.id = l.sourceRouteId ∧ source.status = .active ∧
      source.revision = l.sourceRouteRevision) ∧
    ∃ target ∈ w.store.routes, target.id = l.targetRouteId ∧ target.status = .active ∧
      target.revision = l.targetRouteRevision
  receipt : ∀ answer, (perform h w.store op).2 = .receipted answer →
    ((perform h w.store op).1 = w.store ∧ ∃ r ∈ w.store.receipts,
      answer = ⟨r.envelopeId, r.outcome, r.receivedAt⟩) ∨
    ((∀ x ∈ w.settlements, x.envelopeId ≠ answer.envelopeId) ∧ ∃ token,
      op.action.presentedToken? = some token ∧
      lastToken w.handouts answer.envelopeId = some token)
  moves : ∀ e ∈ w.store.envelopes, ∀ e' ∈ (perform h w.store op).1.envelopes, e'.id = e.id →
    e'.status = e.status ∨ StatusMove e.status e'.status

lemma World.LeaseOk.receiptsOnce (hw : w.LeaseOk h) : ReceiptsOnce w where
  once := hw.once
  recorded := hw.receipts
  settler := by
    intro x hx
    obtain ⟨token, htoken, hlast⟩ := hw.holder x hx
    obtain ⟨a, ha, hr, rfl⟩ := lastToken_some hlast
    refine ⟨a, ha, hr, htoken, hlast, fun b hb hbt => ?_⟩
    exact inj_on_of_nodup_map hw.tokens hb ha (Option.some.inj (hbt.symm.trans htoken))

section CallSafe
variable {h : Host δ} {w : World δ} {op : Op δ} {s' : Store δ} {reply : Reply δ} {s : Store δ}

lemma Performed.of_claimed {answer : ClaimReply δ} (hp : Performed h s op s' reply)
    (hr : reply = .claimed answer) :
    ∃ hash rows, Claimed s s' op.call hash rows ∧ answer.envelopes = rows.map Envelope.toLetter := by
  cases hp with
  | refused | replayed | accepted => cases hr
  | changed _ hplain => subst hr; cases hplain
  | claimed _ _ hc he => cases hr; exact ⟨_, _, hc, he⟩
  | @receipted _ answer' => cases answer' <;> cases hr

lemma Performed.of_receipted {answer : ReceiptReply}
    (hp : Performed h s op s' reply) (hr : reply = .receipted answer) :
    (s' = s ∧ ∃ r ∈ s.receipts, answer = ⟨r.envelopeId, r.outcome, r.receivedAt⟩) ∨
      ∃ e r token, Settled h s s' op reply e r token := by
  cases hp with
  | refused | replayed | accepted | claimed => cases hr
  | changed _ hplain => subst hr; cases hplain
  | receipted ht hc =>
    cases hc with
    | replay hmem => cases hr; exact .inl ⟨rfl, _, hmem, rfl⟩
    | expire => cases hr
    | settle he hs hl hid ho hins =>
      subst ho
      exact .inr ⟨_, _, _, ht, he, hs, hl, hid, ⟨_, hins, rfl⟩, rfl⟩

lemma World.LeaseOk.move (hw : w.LeaseOk h) (hf : Fair h w op) (hp : Performed h w.store op s' reply)
    (he : e ∈ w.store.envelopes) (he' : e' ∈ s'.envelopes) (hid : e'.id = e.id) :
    ∃ out, RowMove h out e e' := by
  have hrow {out : List (Handout δ)} (hm : ∃ e0 ∈ w.store.envelopes, RowMove h out e0 e') :
      ∃ out, RowMove h out e e' := by
    obtain ⟨e0, he0, hm⟩ := hm
    have hkey : e0.id = e.id := (congrArg Letter.id hm.letter).symm.trans hid
    obtain rfl := w.store.envelopes.eq_of_key he0 he hkey
    exact ⟨out, hm⟩
  rcases hp.lease_cases with ⟨hh, _⟩ | ⟨_, _, _, _, _, l, _, hd, ha⟩ | ⟨_, _, _, hs⟩
  · exact hrow (hh.rows e' he')
  · rw [mem_def, ha.envelopes, mem_append, mem_singleton] at he'
    rcases he' with he' | rfl
    · exact hrow (prune_move he')
    · obtain ⟨c, hc, hl⟩ := hw.letters e he
      exact absurd ((congrArg Letter.id hl).trans (hid.symm.trans ha.id)) (hf.1 _ hd c hc)
  · obtain ⟨t, _, rfl⟩ := hs.store
    exact hrow (settleEnvelope_move hs.mem hs.claimed he')

lemma World.LeaseOk.callSafe [DecidableEq δ] (hw : w.LeaseOk h) (hf : Fair h w op) :
    CallSafe h w op where
  claim := by
    intro answer hr l hl
    obtain ⟨hash, rows, hc, he⟩ := (perform_performed h w.store op).of_claimed hr
    obtain ⟨⟨e, hmem, rfl, hlive⟩, hlt, hroutes⟩ := hc.answer (he ▸ hl)
    exact ⟨hw.letters e hmem, hw.unsettled hmem hlive, hlt, hroutes⟩
  submission := by
    intro l hl
    rcases perform_letters h w.store op with hk | ⟨_, _, _, _, l', _, hd, ha⟩
    · rw [newEnvelopes_nil hk.letters] at hl
      cases hl
    · rw [newEnvelopes_accepted ?_ ha, mem_singleton] at hl
      · exact hl ▸ ⟨ha.sourceActive, ha.targetActive⟩
      · intro e he heq
        obtain ⟨c, hc, hcl⟩ := hw.letters e he
        exact hf.1 _ hd c hc ((congrArg Letter.id hcl).trans heq)
  receipt := by
    intro answer hr
    rcases (perform_performed h w.store op).of_receipted hr with hreplay | ⟨e, r, token, hs⟩
    · exact .inl hreplay
    · have hanswer : answer.envelopeId = e.id := by
        cases hr.symm.trans hs.answer
        exact hs.id
      rw [hanswer]
      refine .inr ⟨hw.unsettled hs.mem ?_, token, hs.presented, hw.presented hf hs⟩
      rw [hs.claimed]; rfl
  moves := by
    intro e he e' he' hid
    obtain ⟨out, hm⟩ := hw.move hf (perform_performed h w.store op) he he' hid
    exact hm.status

end CallSafe

/-- LEASES: along every fair run, whatever its timestamps, an envelope gets at most one receipt, from
    the last claim that returned it; no claim returns an envelope that was settled, ran out or lost
    one of its routes; and a row changes its status in the ways listed only. -/
theorem relay_lease [DecidableEq δ] (h : Host δ) (available : Bool) (ops : List (Op δ))
    (hf : Along (step h) (Fair h) (World.new available) ops) :
    ReceiptsOnce (run (step h) (World.new available) ops) ∧
      ∀ op, Fair h (run (step h) (World.new available) ops) op →
        CallSafe h (run (step h) (World.new available) ops) op := by
  have hok := run_leaseOk h available ops hf
  exact ⟨hok.receiptsOnce, fun _ hop => hok.callSafe hop⟩

/-- The rule at a question that was handed out and settled. -/
theorem relay_lease_delivered :
    Along (step Sample.host) (Fair Sample.host) (World.new true) Sample.delivered ∧
      (run (step Sample.host) (World.new true) Sample.delivered).settlements ≠ [] ∧
      ReceiptsOnce (run (step Sample.host) (World.new true) Sample.delivered) :=
  have hf : Along (step Sample.host) (Fair Sample.host) (World.new true) Sample.delivered := by
    decide +kernel
  ⟨hf, by decide +kernel, (relay_lease Sample.host true Sample.delivered hf).1⟩

end SecurePeer
