import ZenithBot.CrossChat.Safety

/-! When an awaited reply is committed. Three checks of `commit_exchange_response` could refuse the
    reply to the active leg of an exchange, and the chain answers each of them:

      the participants   leg `k` goes between the two chats of the exchange, in either direction
      the first answer   the active leg is the last of the chain, so it has no child yet
      the budget         a leg that asks for a reply was only stored with a slot left for it

    What remains is the unique indexes of the legs. Under a live lease a run id is stored with the
    ordinal appended; once the lease is gone the bare run id is stored, which that run may already have
    used. -/

namespace CrossChat
open Table List

variable {sha256 : String → String}
variable {s s' : Store} {e : Exchange}

/-! ### A slot for the reply -/

/-- A leg beyond the first that asks for a reply leaves room for it, and an exchange has two sides. -/
structure Spare (s : Store) : Prop where
  apart : ∀ e ∈ s.exchanges, e.requesterSessionId ≠ e.responderSessionId
  slot : ∀ e ∈ s.exchanges, ∀ l ∈ s.legs, l.Of e → l.expectsReply = true → l.ordinal ≠ 1 →
    l.ordinal < e.maxLegs

lemma spare_empty : Spare .empty :=
  ⟨fun e he => absurd he (not_mem_empty e), fun e he => absurd he (not_mem_empty e)⟩

lemma Spare.congr (hs : Spare s) (he : s'.exchanges = s.exchanges) (hl : s'.legs = s.legs) :
    Spare s' := by
  obtain ⟨hapart, hslot⟩ := hs
  refine ⟨?_, ?_⟩
  · rw [he]; exact hapart
  · rw [he, hl]; exact hslot

lemma Spare.updateExchanges (hs : Spare s) {p : Exchange → Bool} {f : Exchange → Exchange}
    {hf : ∀ e, (f e).id = e.id} (hsame : ∀ e, (f e).requesterSessionId = e.requesterSessionId ∧
      (f e).responderSessionId = e.responderSessionId ∧ (f e).maxLegs = e.maxLegs) :
    Spare (s.updateExchanges p f hf) := by
  refine ⟨fun e' he' => ?_, fun e' he' l hl hof hx ho => ?_⟩
  · obtain ⟨e, he, ⟨-, rfl⟩ | ⟨-, rfl⟩⟩ := updateWhere_cases he'
    · rw [(hsame e).1, (hsame e).2.1]; exact hs.apart e he
    · exact hs.apart _ he
  · obtain ⟨e, he, ⟨-, rfl⟩ | ⟨-, rfl⟩⟩ := updateWhere_cases he'
    · rw [(hsame e).2.2]; exact hs.slot e he l hl ⟨hof.1.trans (hf e), hof.2⟩ hx ho
    · exact hs.slot _ he l hl hof hx ho

lemma Quiet.spare (h : Quiet s s') (hs : Spare s) : Spare s' := by
  refine ⟨fun e' he' => ?_, fun e' he' l' hl' hof hx ho => ?_⟩
  · obtain ⟨e, he, hsame, -⟩ := h.exchange e' he'
    rw [hsame.requester, hsame.responder]; exact hs.apart e he
  · obtain ⟨e, he, hsame, -⟩ := h.exchange e' he'
    obtain ⟨l, hl, hleg, -⟩ := h.leg l' hl'
    rw [hsame.maxLegs, hleg.ordinal]
    exact hs.slot e he l hl ((hleg.of hsame).1 hof) (hleg.expects ▸ hx) (hleg.ordinal ▸ ho)

lemma Spare.insertExchange (hs : Spare s) (hk : Keys s) (h : insertExchange s e = .ok s') :
    Spare s' := by
  obtain ⟨⟨-, -, hne⟩, t, ht, rfl⟩ := insertExchange_ok h
  refine ⟨fun x hx => ?_, fun x hx l hl hof => ?_⟩
  · rcases (mem_insert? ht).1 hx with hx | rfl
    · exact hs.apart x hx
    · exact hne
  · rcases (mem_insert? ht).1 hx with hx | rfl
    · exact hs.slot x hx l hl hof
    · exact absurd hof.1 (no_legs_of_new hk (insert?_eq_some ht).2 l hl)

lemma Spare.insertLeg {l : Leg} (hs : Spare s) (h : insertLeg s l = .ok s')
    (hl : ∀ e ∈ s.exchanges, l.Of e → l.expectsReply = true → l.ordinal ≠ 1 → l.ordinal < e.maxLegs) :
    Spare s' := by
  obtain ⟨-, t, ht, rfl⟩ := insertLeg_ok h
  refine ⟨hs.apart, fun e he x hx => ?_⟩
  rcases (mem_insert? ht).1 hx with hx | rfl
  · exact hs.slot e he x hx
  · exact hl e he

/-- A response that asks for another one is only stored with two slots left. -/
lemma recordResponse_spare {exchange : Exchange} {inbound : Leg} {c d e f l t : String}
    {rr auto : Bool} (hs : Spare s) (hmem : exchange ∈ s.exchanges)
    (hroom : exchange.usedLegs + requiredSlots rr ≤ exchange.maxLegs)
    (h : recordResponse sha256 s exchange inbound c d e rr f auto l t = .ok s') : Spare s' := by
  unfold recordResponse at h
  dsimp only at h
  split at h
  · cases h
  rename_i s2 hleg
  cases h
  have hs1 : Spare (s.updateLegs (fun x => x.id = inbound.id && x.responseState = .opened)
      (Leg.answered auto t) fun _ => rfl) := by
    refine ⟨hs.apart, fun e he l' hl' hof => ?_⟩
    obtain ⟨l, hl, ⟨-, rfl⟩ | ⟨-, rfl⟩⟩ := updateWhere_cases hl'
    · exact hs.slot e he l hl hof
    · exact hs.slot e he _ hl hof
  refine (hs1.insertLeg hleg ?_).updateExchanges fun _ => ⟨rfl, rfl, rfl⟩
  intro x hx hof hrr _
  have hxe : x = exchange := s.exchanges.eq_of_key hx hmem hof.1.symm
  have hrr : rr = true := hrr
  rw [hxe]
  simp only [hrr, requiredSlots, if_true] at hroom
  simp only [responseLeg]; omega

/-- STEP: every move keeps the slot for an awaited reply. -/
theorem Move.spare (h : Move sha256 s s') (hok : StoreOk s) (hs : Spare s) : Spare s' := by
  cases h with
  | quiet h => exact h.spare hs
  | obligation hins => exact hs.insertExchange hok.keys hins
  | request hx hl hex hleg first =>
    refine ((hs.congr hx hl).insertExchange (hok.congr hx hl).keys hex).insertLeg hleg ?_
    exact fun _ _ _ _ hord => absurd first.ordinal hord
  | initial hmem hwait hleg hp first hsame =>
    exact (hs.insertLeg hleg fun _ _ _ _ hord => absurd first.ordinal hord).updateExchanges hsame
  | response hmem hact hi hix hopen hroom hrec => exact recordResponse_spare hs hmem hroom hrec
  | notice hleg hk => exact hs.insertLeg hleg fun _ _ hof => absurd hk hof.2

/-- RUN: every reachable store has its chains and its spare slots. -/
theorem storeAfter_ok (ops : List Op) (hops : Lib.Along (step sha256) CallerShape Store.empty ops) :
    StoreOk (storeAfter sha256 ops) ∧ Spare (storeAfter sha256 ops) := by
  refine Lib.run_inv_along (P := fun s => StoreOk s ∧ Spare s) ?_ ops Store.empty hops
    ⟨storeOk_empty, spare_empty⟩
  rintro s o hshape ⟨hok, hs⟩
  have hmove : Move sha256 s (step sha256 s o) := step_move hshape hok
  exact ⟨hmove.ok hok, hmove.spare hok hs⟩

/-! ### What the chain says about its last leg -/

/-- Every leg of the chain goes between the two chats of the exchange. -/
lemma Chain.participants (hc : Chain s e) :
    ∀ (k : Nat) (l : Leg), l ∈ s.legs → l.Of e → l.ordinal = k + 1 →
      (l.sourceSessionId = e.requesterSessionId ∧ l.targetSessionId = e.responderSessionId) ∨
      (l.sourceSessionId = e.responderSessionId ∧ l.targetSessionId = e.requesterSessionId) := by
  intro k
  -- along the ordinals: leg `k + 1` answers leg `k` in the opposite direction
  induction k with
  | zero =>
    intro l hl hof ho
    exact .inl (hc.first l hl hof ho).2
  | succ k ih =>
    intro l hl hof ho
    have hk := (hc.ordinals l.ordinal).1 ⟨l, hl, hof, rfl⟩
    obtain ⟨p, hp, hofp, hop⟩ := (hc.ordinals (k + 1)).2 (by omega)
    obtain ⟨-, hsrc, htgt⟩ := hc.next p hp hofp l hl hof (by omega)
    rw [hsrc, htgt]
    rcases ih p hp hofp hop with ⟨h1, h2⟩ | ⟨h1, h2⟩
    · exact .inr ⟨h2, h1⟩
    · exact .inl ⟨h2, h1⟩

/-- The last leg of a chain has no answer yet. -/
lemma StoreOk.no_child (hs : StoreOk s) (he : e ∈ s.exchanges) {l : Leg} (hl : l ∈ s.legs)
    (hof : l.Of e) (hord : l.ordinal = e.usedLegs) : ∀ c ∈ s.legs, c.parentLegId ≠ some l.id := by
  intro c hcm hparent
  obtain ⟨x, hx, hid⟩ := hs.keys.owner c hcm
  have hcx : c.Of x := by
    refine ⟨hid.symm, fun hk => ?_⟩
    rw [(hs.keys.notice c hcm hk).2.1] at hparent; cases hparent
  have hch := hs.chain x hx
  have hk := (hch.ordinals c.ordinal).1 ⟨c, hcm, hcx, rfl⟩
  by_cases h1 : c.ordinal = 1
  · rw [(hch.first c hcm hcx h1).1] at hparent; cases hparent
  -- the leg before `c` is its parent, so it is `l`, and `c` would come after the last leg
  obtain ⟨p, hp, hofp, hop⟩ := (hch.ordinals (c.ordinal - 1)).2 (by omega)
  have hpp := (hch.next p hp hofp c hcm hcx (by omega)).1
  rw [hparent, Option.some.injEq] at hpp
  have hpl : p = l := s.legs.eq_of_key hp hl hpp.symm
  have hxe : x = e := s.exchanges.eq_of_key hx he (by rw [← hofp.1, hpl, hof.1])
  subst hxe hpl
  omega

/-! ### The reply -/

/-- The active leg `l` of `e` was delivered to run `run` of chat `session`, asks for a reply and has
    none; an empty run id names no run. -/
structure AwaitsReply (s : Store) (e : Exchange) (l : Leg) (session run timestamp : String) :
    Prop where
  exchange : e ∈ s.exchanges
  leg : l ∈ s.legs
  budget : 2 ≤ e.maxLegs
  active : e.status = .active
  unexpired : e.liveResponseRequested = true ∨ ¬ e.expiresAt ≤ timestamp
  current : e.activeLegId = some l.id
  delivered : l.status = .running ∨ l.status = .delivered
  chat : l.targetSessionId = session
  bound : l.targetRunId = some run
  named : run ≠ ""
  opened : l.responseState = .opened
  expects : l.expectsReply = true

/-- No leg of the exchange is stored under the run id of the reply (`run:live:k` under a live lease,
    else `run`) or under its key. -/
def Vacant (s : Store) (e : Exchange) (run key : String) : Prop :=
  ∀ x ∈ s.legs, x.exchangeId = e.id →
    x.sourceRunId ≠ (if e.liveResponseLease then run ++ ":live:" ++ toString (e.usedLegs + 1)
      else run) ∧ x.idempotencyKey ≠ key

instance (s : Store) (e : Exchange) (run key : String) : Decidable (Vacant s e run key) :=
  inferInstanceAs (Decidable (∀ x ∈ s.legs.rows, _ → _))

/-- The reply is committed as the one child of `l`, and the same call again returns that leg,
    whatever its clock and its generated leg id. -/
def Commits (sha256 : String → String) (s : Store) (e : Exchange) (l : Leg) (session run body
    key : String) (automatic : Bool) (legId timestamp : String) : Prop :=
  ∃ (s' : Store) (e' : Exchange) (c : Leg),
    commitExchangeResponse sha256 s e.id l.id session run body false key automatic legId timestamp =
      (s', .ok (some e', some c, true)) ∧
    (∀ x ∈ s.legs, x.parentLegId ≠ some l.id) ∧
    (∀ x, x ∈ s'.legs ∧ x.parentLegId = some l.id ↔ x = c) ∧
    s'.legs.rows.length = s.legs.rows.length + 1 ∧
    (c.sourceSessionId = session ∧ c.targetSessionId = l.sourceSessionId ∧ c.body = body) ∧
    ∀ legId' timestamp',
      commitExchangeResponse sha256 s' e.id l.id session run body false key automatic legId'
        timestamp' = (s', .ok (some e', some c, false))

section Reply
variable {s : Store} {e : Exchange} {l : Leg} {session run body key legId t : String}
  {automatic : Bool}

section
variable (h : AwaitsReply s e l session run t) (hok : StoreOk s)
include h hok

lemma AwaitsReply.of : l.Of e :=
  active_leg_of (hok.chain e h.exchange) h.leg h.current

lemma AwaitsReply.last : l.ordinal = e.usedLegs :=
  ((hok.chain e h.exchange).active l h.leg (h.of hok)).1 h.current

/-- The slot a leg that asks for a reply has left. -/
lemma AwaitsReply.room (hs : Spare s) : e.usedLegs < e.maxLegs := by
  have hlast := h.last hok
  have hbudget := h.budget
  by_cases h1 : l.ordinal = 1
  · omega
  · have := hs.slot e h.exchange l h.leg (h.of hok) h.expects h1
    omega

lemma AwaitsReply.no_child : ∀ c ∈ s.legs, c.parentLegId ≠ some l.id :=
  hok.no_child h.exchange h.leg (h.of hok) (h.last hok)

/-- The two chats of the exchange, seen from the leg. -/
lemma AwaitsReply.pair (hs : Spare s) :
    ((session = e.requesterSessionId ∧ l.sourceSessionId = e.responderSessionId) ∨
      (session = e.responderSessionId ∧ l.sourceSessionId = e.requesterSessionId)) ∧
    l.sourceSessionId ≠ session := by
  have hapart := hs.apart e h.exchange
  have hone := (hok.chain e h.exchange).started h.active
  have hlast := h.last hok
  rcases (hok.chain e h.exchange).participants (l.ordinal - 1) l h.leg (h.of hok) (by omega) with
    ⟨hsrc, htgt⟩ | ⟨hsrc, htgt⟩
  · rw [h.chat] at htgt
    refine ⟨.inr ⟨htgt, hsrc⟩, ?_⟩
    rw [hsrc, htgt]; exact hapart
  · rw [h.chat] at htgt
    refine ⟨.inl ⟨htgt, hsrc⟩, ?_⟩
    rw [hsrc, htgt]; exact hapart.symm

/-- Every check of `commit_exchange_response` passes; the writes decide. -/
lemma AwaitsReply.commit_eq (hs : Spare s) :
    commitExchangeResponse sha256 s e.id l.id session run body false key automatic legId t =
      match recordResponse sha256 s e l session run body false key automatic legId t with
      | .error err => (s, .error err)
      | .ok s' => (s', .ok (s'.exchanges.find? e.id, s'.legs.find? legId, true)) := by
  have hex : s.exchanges.find? e.id = some e := find?_eq_some.2 ⟨h.exchange, rfl⟩
  have hin : (s.legs.find? l.id).filter (·.exchangeId = e.id) = some l := by
    rw [find?_eq_some.2 ⟨h.leg, rfl⟩]
    simp [(h.of hok).1]
  have hnone : s.legs.rows.find? (fun x => x.parentLegId = some l.id) = none := by
    rw [find?_eq_none]
    intro x hx
    simpa using h.no_child hok x hx
  have hexp : ¬ (e.expiresAt ≤ t ∧ (!e.liveResponseRequested) = true) := by
    rintro ⟨hle, hlive⟩
    rcases h.unexpired with hu | hu
    · rw [hu] at hlive; cases hlive
    · exact hu hle
  have hauto : ¬ ((automatic && !l.expectsReply) = true) := by simp [h.expects]
  have hbound : ¬ (l.targetSessionId ≠ session ∨ l.targetRunId ≠ some run ∨
      l.status ∉ [LegStatus.running, LegStatus.delivered]) := by
    rintro (hb | hb | hb)
    · exact hb h.chat
    · exact hb h.bound
    · rcases h.delivered with hd | hd <;> simp [hd] at hb
  obtain ⟨hpair, hne⟩ := h.pair hok hs
  have hpairs : ¬ (¬ ((session = e.requesterSessionId ∧ l.sourceSessionId = e.responderSessionId) ∨
      (session = e.responderSessionId ∧ l.sourceSessionId = e.requesterSessionId)) ∨
      l.sourceSessionId = session) := by
    rintro (hb | hb)
    · exact hb hpair
    · exact hne hb
  have hroom : ¬ e.maxLegs < e.usedLegs + requiredSlots false := by
    have := h.room hok hs
    simp only [requiredSlots, Bool.false_eq_true, if_false]; omega
  unfold commitExchangeResponse
  rw [hex, hin]
  rw [hnone]
  dsimp only
  rw [if_neg (not_not.2 h.active), if_neg hexp, if_neg (not_not.2 h.opened), if_neg hauto,
    if_neg hbound, if_neg hpairs]
  exact if_neg hroom

end

lemma Leg.clashes_iff (x c : Leg) : x.clashes c = true ↔
    (x.exchangeId = c.exchangeId ∧ ((x.ordinal = c.ordinal ∨ x.sourceRunId = c.sourceRunId) ∨
      x.idempotencyKey = c.idempotencyKey)) ∨
    (x.parentLegId.isSome = true ∧ x.parentLegId = c.parentLegId) := by
  simp [Leg.clashes]

/-- The response clashes with the legs of its exchange that carry its run id or its key. -/
lemma AwaitsReply.clashes_iff (h : AwaitsReply s e l session run t) (hok : StoreOk s) {x : Leg}
    (hx : x ∈ s.legs) :
    x.clashes (responseLeg sha256 e l session run body false key legId t) = true ↔
      x.exchangeId = e.id ∧
        (x.sourceRunId = durableSourceRunId e run ∨ x.idempotencyKey = key) := by
  have hchild := h.no_child hok x hx
  have hord : x.exchangeId = e.id → x.ordinal ≠ e.usedLegs + 1 := by
    intro hxe ho
    by_cases hk : x.kind = .status
    · have := (hok.keys.notice x hx hk).1
      omega
    · have := ((hok.chain e h.exchange).ordinals x.ordinal).1 ⟨x, hx, ⟨hxe, hk⟩, rfl⟩
      omega
  rw [Leg.clashes_iff]
  constructor
  · rintro (⟨hxe, (ho | hr) | hk⟩ | ⟨-, hp⟩)
    · exact absurd ho (hord hxe)
    · exact ⟨hxe, .inl hr⟩
    · exact ⟨hxe, .inr hk⟩
    · exact absurd hp hchild
  · rintro ⟨hxe, hr | hk⟩
    · exact .inl ⟨hxe, .inl (.inr hr)⟩
    · exact .inl ⟨hxe, .inr hk⟩

/-- Answering a leg leaves the columns of the unique indexes alone. -/
lemma clashes_answered (b : Bool) (x c : Leg) :
    (if b then x.answered automatic t else x).clashes c = x.clashes c := by
  cases b <;> rfl

lemma AwaitsReply.record_ok (h : AwaitsReply s e l session run t) (hok : StoreOk s)
    (hs : Spare s) (sha256 : String → String) (body : String) (automatic : Bool)
    (hfresh : ∀ x ∈ s.legs, x.id ≠ legId) (hv : Vacant s e run key) :
    ∃ s', recordResponse sha256 s e l session run body false key automatic legId t = .ok s' ∧
      s'.legs.rows = (s.legs.rows.map fun x =>
          if x.id = l.id && x.responseState = .opened then x.answered automatic t else x) ++
        [responseLeg sha256 e l session run body false key legId t] ∧
      (s'.exchanges.find? e.id).isSome = true := by
  have hne := (h.pair hok hs).2
  let s1 := s.updateLegs (fun x => x.id = l.id && x.responseState = .opened)
    (Leg.answered automatic t) fun _ => rfl
  obtain ⟨t2, ht2⟩ : ∃ t2, s1.legs.insert?
      (responseLeg sha256 e l session run body false key legId t) = some t2 := by
    refine insert?_of_new fun x' hx' => ?_
    obtain ⟨x, hx, ⟨-, rfl⟩ | ⟨-, rfl⟩⟩ := updateWhere_cases hx'
    · exact hfresh x hx
    · exact hfresh _ hx
  let c := responseLeg sha256 e l session run body false key legId t
  have hguard : (s1.exchanges.find? c.exchangeId).isSome ∧ c.sourceSessionId ≠ c.targetSessionId ∧
      ∀ x' ∈ s1.legs.rows, ¬ x'.clashes c := by
    refine ⟨?_, hne.symm, fun x' hx' => ?_⟩
    · have hfind : s1.exchanges.find? c.exchangeId = some e :=
        find?_eq_some.2 ⟨h.exchange, rfl⟩
      rw [hfind]; rfl
    · obtain ⟨x, hx, rfl⟩ := mem_map.1 hx'
      rw [clashes_answered, h.clashes_iff hok hx]
      rintro ⟨hxe, hr | hk⟩
      · exact (hv x hx hxe).1 hr
      · exact (hv x hx hxe).2 hk
  have hins : insertLeg s1 (responseLeg sha256 e l session run body false key legId t) =
      .ok { s1 with legs := t2 } := by
    unfold insertLeg
    rw [if_pos hguard, ht2]
  have hrec : ∃ s', recordResponse sha256 s e l session run body false key automatic legId t =
      .ok s' ∧ s'.legs = t2 ∧ (s'.exchanges.find? e.id).isSome = true := by
    unfold recordResponse
    dsimp only
    rw [hins]
    refine ⟨_, rfl, rfl, ?_⟩
    have hfind : s.exchanges.find? e.id = some e := find?_eq_some.2 ⟨h.exchange, rfl⟩
    simp only [Store.updateExchanges, find?_updateWhere]
    rw [show s1.exchanges.find? e.id = some e from hfind]
    rfl
  obtain ⟨s', hrec, hlegs, hfind⟩ := hrec
  refine ⟨s', hrec, ?_, hfind⟩
  rw [hlegs]; exact (insert?_eq_some ht2).1

/-- A leg of the exchange that already carries the run id or the key refuses the reply. -/
lemma AwaitsReply.vacant_of_record (h : AwaitsReply s e l session run t) (hok : StoreOk s)
    (hrec : recordResponse sha256 s e l session run body false key automatic legId t = .ok s') :
    Vacant s e run key := by
  unfold recordResponse at hrec
  dsimp only at hrec
  split at hrec
  · cases hrec
  rename_i s2 hleg
  obtain ⟨⟨-, -, hclash⟩, -⟩ := insertLeg_ok hleg
  intro x hx hxe
  have hfree := hclash _ (mem_updateLegs.2 ⟨x, hx, rfl⟩)
  rw [clashes_answered] at hfree
  have hnot := fun hc => Bool.false_ne_true (hfree.symm.trans ((h.clashes_iff hok hx).2 hc))
  exact ⟨fun hr => hnot ⟨hxe, .inl hr⟩, fun hk => hnot ⟨hxe, .inr hk⟩⟩

/-- Of the rows after the writes, only the response answers `l`. -/
lemma answered_child {p : Leg → Bool} {c : Leg} (hnone : ∀ x ∈ s.legs, x.parentLegId ≠ some l.id)
    (hc : c.parentLegId = some l.id)
    (hrows : s'.legs.rows = (s.legs.rows.map fun x => if p x then x.answered automatic t else x) ++ [c])
    (x : Leg) : x ∈ s'.legs ∧ x.parentLegId = some l.id ↔ x = c := by
  rw [mem_def, hrows, mem_append, mem_singleton]
  constructor
  · rintro ⟨hx | rfl, hp⟩
    · obtain ⟨y, hy, ⟨-, rfl⟩ | ⟨-, rfl⟩⟩ := updateWhere_cases hx
      · exact absurd hp (hnone y hy)
      · exact absurd hp (hnone _ hy)
    · rfl
  · rintro rfl
    exact ⟨.inr rfl, hc⟩

lemma commit_again {e' : Exchange} {c : Leg} {legId' t' : String}
    (hfe : s'.exchanges.find? e.id = some e') (hl : ∃ i ∈ s'.legs, i.id = l.id ∧ i.exchangeId = e.id)
    (hc : ∀ x, x ∈ s'.legs ∧ x.parentLegId = some l.id ↔ x = c) (howner : c.ownerRunId = run)
    (hsrc : c.sourceSessionId = session) (hbody : c.body = body) (hkind : c.kind = .reply)
    (hkey : c.idempotencyKey = key) :
    commitExchangeResponse sha256 s' e.id l.id session run body false key automatic legId' t' =
      (s', .ok (some e', some c, false)) := by
  obtain ⟨i, hi, hid, hix⟩ := hl
  have hin : (s'.legs.find? l.id).filter (·.exchangeId = e.id) = some i := by
    rw [find?_eq_some.2 ⟨hi, hid⟩]
    simp [hix]
  have hex : s'.legs.rows.find? (fun x => x.parentLegId = some l.id) = some c := by
    cases hf : s'.legs.rows.find? (fun x => x.parentLegId = some l.id) with
    | none =>
      have hnone := find?_eq_none.1 hf c ((hc c).2 rfl).1
      exact absurd (decide_eq_true ((hc c).2 rfl).2) hnone
    | some x =>
      have hx : x ∈ s'.legs := mem_of_find?_eq_some hf
      rw [(hc x).1 ⟨hx, by simpa using find?_some hf⟩]
  unfold commitExchangeResponse
  rw [hfe, hin]
  rw [hex]
  dsimp only
  rw [if_pos ⟨howner, hsrc, hbody, hkind, hkey⟩]

end Reply

/-- REPLY: in every reachable store, a reply to the active leg by the run it was delivered to is
    committed as its one child, and repeating the call returns the same leg, exactly when the run id and the
    key it is stored under are free in the exchange. -/
theorem awaited_reply_commits_iff (sha256 : String → String) (ops : List Op)
    (hops : Lib.Along (step sha256) CallerShape Store.empty ops) (e : Exchange) (l : Leg)
    (session run body key : String) (automatic : Bool) (legId t : String)
    (h : AwaitsReply (storeAfter sha256 ops) e l session run t)
    (hfresh : ∀ x ∈ (storeAfter sha256 ops).legs, x.id ≠ legId) :
    Commits sha256 (storeAfter sha256 ops) e l session run body key automatic legId t ↔
      Vacant (storeAfter sha256 ops) e run key := by
  obtain ⟨hok, hs⟩ := storeAfter_ok ops hops
  constructor
  · rintro ⟨s', e', c, hcommit, -⟩
    rw [h.commit_eq hok hs] at hcommit
    split at hcommit
    · cases hcommit
    · rename_i s₂ hrec
      exact h.vacant_of_record hok hrec
  · intro hv
    obtain ⟨s', hrec, hrows, hfind⟩ := h.record_ok hok hs sha256 body automatic hfresh hv
    obtain ⟨e', he'⟩ := Option.isSome_iff_exists.1 hfind
    have hchild := answered_child (h.no_child hok) rfl hrows
    have hleg : s'.legs.find? legId = some
        (responseLeg sha256 e l session run body false key legId t) :=
      Table.find?_eq_some.2 ⟨((hchild _).2 rfl).1, rfl⟩
    refine ⟨s', e', responseLeg sha256 e l session run body false key legId t, ?_,
      h.no_child hok, hchild, ?_, ⟨rfl, rfl, rfl⟩, fun legId' t' => ?_⟩
    · rw [h.commit_eq hok hs, hrec]
      dsimp only
      rw [he', hleg]
    · rw [hrows]; simp
    · refine commit_again he' ⟨l.answered automatic t, ?_, rfl, (h.of hok).1⟩ hchild
        (if_neg h.named) rfl rfl rfl rfl
      rw [Table.mem_def, hrows]
      refine mem_append_left _ (mem_map.2 ⟨l, h.leg, ?_⟩)
      simp [h.opened]

/-- A live request whose recipient asks back: the counter-request is handed to the waiting run. -/
def askedBack : List Op :=
  [.createRouteExchangeRequest "x" "l1" "a" "run1" "b" "question" "key00001" 6 "2026-02-01"
      "route_00000000000000000000000000000000" "request_reply" "" true "server" 0 "2026-01-01",
    .updateExchangeLeg "l1" [] { status := some .running, targetRunId := some (some "run2") }
      "2026-01-02",
    .commitExchangeResponse "x" "l1" "b" "run2" "which one?" true "key00002" false "l2" "2026-01-03",
    .updateExchangeLeg "l2" [] { status := some .delivered, targetRunId := some (some "run1") }
      "2026-01-04"]

/-- The exchange of `askedBack` and its active leg. -/
def askedExchange (lease : Bool) (instanceId updatedAt : String) : Exchange := {
  id := "x", requesterSessionId := "a", responderSessionId := "b",
  authorizationSourceRunId := "run1", authorizationKind := "configured_route",
  authorizationRouteId := some "route_00000000000000000000000000000000",
  sourceUserInstruction := "", status := .active, maxLegs := 6, usedLegs := 2,
  activeLegId := some "l2", expiresAt := "2026-02-01", liveResponseRequested := true,
  liveResponseLease := lease, liveResponseInstanceId := instanceId, createdAt := "2026-01-01",
  updatedAt := updatedAt }

def askedLeg : Leg := {
  id := "l2", exchangeId := "x", parentLegId := some "l1", ordinal := 2, sourceSessionId := "b",
  sourceRunId := "run2:live:2", sourceOwnerRunId := "run2", targetSessionId := "a",
  kind := .request, expectsReply := true, responseState := .opened, body := "which one?",
  bodyChars := 10, bodySha256 := "which one?", idempotencyKey := "key00002",
  status := .delivered, targetRunId := some "run1", createdAt := "2026-01-03",
  updatedAt := "2026-01-04" }

lemma awaitsReply_askedBack :
    AwaitsReply (storeAfter id askedBack) (askedExchange true "server" "2026-01-03") askedLeg "a"
      "run1" "2026-01-05" :=
  ⟨mem_of_find?_eq_some (p := fun e => e.id = "x") (by decide),
    mem_of_find?_eq_some (p := fun l => l.id = "l2") (by decide), by decide, rfl, .inl rfl, rfl,
    .inr rfl, rfl, rfl, by decide, rfl, rfl⟩

theorem awaited_reply_commits_live :
    Commits id (storeAfter id askedBack) (askedExchange true "server" "2026-01-03") askedLeg "a"
      "run1" "this one" "key00003" false "l3" "2026-01-05" :=
  (awaited_reply_commits_iff id askedBack (by decide) _ _ _ _ _ _ _ _ _ awaitsReply_askedBack
    (by decide)).2 (by decide)

/-- Once the lease is lost, the waiting run cannot answer: its bare run id is that of the request. -/
theorem awaited_reply_refused_after_downgrade :
    let ops := askedBack ++ [.downgradeLiveExchange "x" "l2" "server" "2026-01-05"]
    Lib.Along (step id) CallerShape Store.empty ops ∧
    AwaitsReply (storeAfter id ops) (askedExchange false "" "2026-01-05") askedLeg "a" "run1"
      "2026-01-06" ∧
    (commitExchangeResponse id (storeAfter id ops) "x" "l2" "a" "run1" "this one" false "key00003"
      false "l3" "2026-01-06").2 = .error .integrity := by
  refine ⟨by decide, ⟨?_, ?_, by decide, rfl, .inl rfl, rfl, .inr rfl, rfl, rfl, by decide, rfl, rfl⟩,
    by decide⟩
  · exact mem_of_find?_eq_some (p := fun e => e.id = "x") (by decide)
  · exact mem_of_find?_eq_some (p := fun l => l.id = "l2") (by decide)

end CrossChat
