import ZenithBot.Lib.Thread
import ZenithBot.SecurePeer.Traffic

/-! The chain of a relay exchange, and at-most-once submission. The history of a world says which
    letters were ever created; the invariant `ChainOk` ties it to the store. Every exchange is a
    thread, the exchange row is about the last letter of its thread, and a created letter is still in
    the table or has run out. The last point is where the two constants meet: an envelope lives at
    most 72 hours and is deleted only after 7 days, so with a clock that does not go back a payload
    whose envelope was deleted is refused as expired. -/

namespace SecurePeer
open Lib Table List

variable {δ : Type}
variable {created : List (Created δ)} {w : World δ} {id : Uuid} {l : Letter δ} {x : Exchange}
  {s : Store δ} {s' : Store δ} {envelopeId exchangeId : Uuid} {payload : EnvelopePayload}
  {last : Letter δ} {p : Envelope δ} {call : Call}

/-- A letter as a message of a thread between two routes. -/
def letterView : View (Letter δ) Uuid Uuid where
  id := Letter.id
  parent := Letter.parentEnvelopeId
  number := Letter.usedLegs
  source := Letter.sourceRouteId
  target := Letter.targetRouteId

/-- The letters of one exchange. -/
structure Conversation (ls : List (Letter δ)) : Prop where
  thread : Thread letterView ls
  bounded : ls.length ≤ maxRelayLegs
  expiry : ∀ a ∈ ls, ∀ b ∈ ls, a.expiresAt = b.expiresAt

structure AboutLast (x : Exchange) (ls : List (Letter δ)) (l : Letter δ) : Prop where
  last : ls.getLast? = some l
  lastId : x.lastEnvelopeId = some l.id
  usedLegs : x.usedLegs = ls.length
  expiresAt : x.expiresAt = l.expiresAt
  complete : x.status = .complete → l.kind = .instruction ∨ l.kind = .response
  opened : x.status = .opened → l.kind = .requestReply ∧ ls.length < maxRelayLegs

/-- The store, at the time `clock`, agrees with the letters created so far. -/
structure ChainOk (s : Store δ) (clock : Nat) (created : List (Created δ)) : Prop where
  letters : ∀ e ∈ s.envelopes, ∃ c ∈ created, c.letter = e.toLetter
  kept : ∀ c ∈ created, (∃ e ∈ s.envelopes, e.toLetter = c.letter) ∨ c.letter.expiresAt < clock
  ids : (created.map fun c => c.letter.id).Nodup
  bounded : ∀ c ∈ created, c.letter.expiresAt ≤ c.letter.createdAt + maxRelayTtlSeconds
  payload : ∀ c ∈ created, ∃ p, c.payload = some p ∧ c.letter.requestId.text = p.requestId ∧
    c.letter.sourceRouteId.text = p.sourceRouteId ∧ c.letter.expiresAt = p.expiresAt
  once : (created.map Created.payload).Nodup
  conversation : ∀ id, Conversation (legs created id)
  rows : ∀ x ∈ s.exchanges, ∃ last, AboutLast x (legs created x.id) last

lemma AboutLast.expire {ls : List (Letter δ)} (h : AboutLast x ls last) :
    AboutLast x.expire ls last :=
  { h with complete := nofun, opened := nofun }

/-- No letter and no exchange is new, and only letters older than the retention are gone. -/
structure LettersKept (s s' : Store δ) (t : Nat) : Prop where
  exchanges : ∀ x' ∈ s'.exchanges, ∃ x ∈ s.exchanges,
    x' = x ∨ (x.status = .opened ∧ x' = x.expire)
  letters : ∀ e' ∈ s'.envelopes, ∃ e ∈ s.envelopes, e'.toLetter = e.toLetter
  kept : ∀ e ∈ s.envelopes, (∃ e' ∈ s'.envelopes, e'.toLetter = e.toLetter) ∨
    e.createdAt + relayTerminalRetentionSeconds < t

/-- FRAME: what neither creates nor rewrites letters keeps the invariant. -/
theorem ChainOk.frame {clock t : Nat} (h : ChainOk s clock created) (hclock : clock ≤ t)
    (hk : LettersKept s s' t) : ChainOk s' t created := by
  refine { h with letters := fun e' he' => ?_, kept := fun c hc => ?_, rows := fun x' hx' => ?_ }
  · obtain ⟨e, hmem, hl⟩ := hk.letters e' he'
    obtain ⟨c, hc, hcl⟩ := h.letters e hmem
    exact ⟨c, hc, hcl.trans hl.symm⟩
  · rcases h.kept c hc with ⟨e, hmem, hl⟩ | hlate
    · rcases hk.kept e hmem with ⟨e', he', hl'⟩ | hold
      · exact .inl ⟨e', he', hl'.trans hl⟩
      · have hb := h.bounded c hc
        have hcreated : e.createdAt = c.letter.createdAt := congrArg Letter.createdAt hl
        unfold relayTerminalRetentionSeconds at hold
        unfold maxRelayTtlSeconds at hb
        omega
    · exact .inr (by omega)
  · obtain ⟨x, hmem, hxx⟩ := hk.exchanges x' hx'
    obtain ⟨last, hl⟩ := h.rows x hmem
    rcases hxx with rfl | ⟨_, rfl⟩
    · exact ⟨last, hl⟩
    · exact ⟨last, hl.expire⟩

namespace LettersKept
variable {s s' : Store δ} {t : Nat} {hash : δ}

lemma of_prune (s : Store δ) (t : Nat) : LettersKept s (s.pruneRelayState t) t where
  exchanges := by
    intro x' hx'
    obtain ⟨x, hx, ⟨ho, _, rfl⟩ | ⟨rfl, _⟩⟩ := prune_exchange hx'
    · exact ⟨x, hx, .inr ⟨ho, rfl⟩⟩
    · exact ⟨x', hx, .inl rfl⟩
  letters := by
    intro e' he'
    obtain ⟨e, he, ⟨_, _, rfl⟩ | ⟨rfl, _⟩⟩ := prune_envelope he'
    · exact ⟨e, he, rfl⟩
    · exact ⟨e', he, rfl⟩
  kept := fun _ => prune_kept

lemma of_fades (hf : Fades s s') (t : Nat) : LettersKept s s' t where
  exchanges := hf.exchanges
  letters := by
    intro e' he'
    obtain ⟨e, he, rfl | ⟨_, rfl⟩⟩ := hf.envelopes e' he'
    · exact ⟨e', he, rfl⟩
    · exact ⟨e, he, rfl⟩
  kept := fun e he => .inl (hf.kept e he)

/-- The same exchanges, and the same letters in other states. -/
lemma of_same {s1 : Store δ} (h : LettersKept s s1 t) (hx : s'.exchanges = s1.exchanges)
    (he : ∀ e' ∈ s'.envelopes, ∃ e ∈ s1.envelopes, e'.toLetter = e.toLetter)
    (hk : ∀ e ∈ s1.envelopes, ∃ e' ∈ s'.envelopes, e'.toLetter = e.toLetter) :
    LettersKept s s' t where
  exchanges := hx ▸ h.exchanges
  letters := by
    intro e'' he''
    obtain ⟨e', he', hl'⟩ := he e'' he''
    obtain ⟨e, hmem, hl⟩ := h.letters e' he'
    exact ⟨e, hmem, hl'.trans hl⟩
  kept := by
    intro e hmem
    rcases h.kept e hmem with ⟨e', he', hl⟩ | hold
    · obtain ⟨e'', he'', hl'⟩ := hk e' he'
      exact .inl ⟨e'', he'', hl'.trans hl⟩
    · exact .inr hold

lemma of_claimed {rows : List (Envelope δ)}
    (hc : Claimed s s' call hash rows) : LettersKept s s' call.timestamp := by
  refine (of_prune s call.timestamp).of_same hc.exchanges (fun e' he' => ?_) fun e he => ?_
  · obtain ⟨e, he, hcase⟩ := hc.envelope e' he'
    obtain ⟨e0, he0, hbase⟩ := claimBase_envelope he
    have hl : e'.toLetter = e.toLetter := by
      rcases hcase with ⟨_, rfl⟩ | ⟨_, hl, _⟩
      · rfl
      · exact hl
    have hl0 : e.toLetter = e0.toLetter := by
      rcases hbase with rfl | ⟨_, _, hl0⟩
      · rfl
      · exact hl0
    exact ⟨e0, he0, hl.trans hl0⟩
  · obtain ⟨e1, he1, hl1⟩ := claimBase_kept he
    obtain ⟨e2, he2, hl2⟩ := hc.kept e1 he1
    exact ⟨e2, he2, hl2.trans hl1⟩

lemma of_receipted {outcome : Outcome} {answer : Except Err ReceiptReply}
    (hr : Receipted s hash outcome s' answer) (t : Nat) : LettersKept s s' t := by
  cases hr with
  | replay => exact of_fades (.refl s) t
  | expire => exact of_fades ((Fades.expireEnvelopes _ _).trans (.expireExchanges _ _)) t
  | settle he =>
    refine (of_fades (.refl s) t).of_same rfl (fun e' he' => ?_) fun e he => settleEnvelope_kept he
    obtain ⟨e, he, hl, _⟩ := settleEnvelope_cases he'
    exact ⟨e, he, hl⟩

end LettersKept

/-! ### An accepted letter -/

lemma legs_append (created : List (Created δ)) (c : Created δ) (id : Uuid) :
    legs (created ++ [c]) id =
      if c.letter.exchangeId = id then legs created id ++ [c.letter] else legs created id := by
  unfold legs
  by_cases hc : c.letter.exchangeId = id <;> simp [hc]

lemma mem_legs : l ∈ legs created id ↔ (∃ c ∈ created, c.letter = l) ∧ l.exchangeId = id := by
  simp [legs]

/-- The letter a world calls last is the parent a continuation names. -/
lemma ChainOk.last_eq {clock : Nat} (h : ChainOk s clock created)
    (hlast : (legs created id).getLast? = some last) (hp : p ∈ s.envelopes) (hid : last.id = p.id) :
    last = p.toLetter := by
  obtain ⟨⟨c, hc, rfl⟩, -⟩ := mem_legs.1 (mem_of_getLast? hlast)
  obtain ⟨d, hd, hdl⟩ := h.letters p hp
  have hcd : c = d := inj_on_of_nodup_map h.ids hc hd (hid.trans (congrArg Letter.id hdl).symm)
  rw [hcd, hdl]

section Accept
variable {s s' : Store δ} {clock : Nat} {created : List (Created δ)} {call : Call}
  {payload : EnvelopePayload} {envelopeId exchangeId : Uuid} {x : Exchange} {l : Letter δ}

lemma ChainOk.next_leg (h : ChainOk s clock created) (ha : x.id = l.exchangeId)
    (hexp : x.expiresAt = l.expiresAt) (hn : NextLeg s x p l) :
    Conversation (legs created l.exchangeId ++ [l]) ∧
      l.usedLegs = (legs created l.exchangeId).length + 1 := by
  obtain ⟨last, hl⟩ := h.rows x hn.exchange
  rw [ha] at hl
  have hid : last.id = p.id := by
    have := hl.lastId.symm.trans hn.last
    simpa using this
  have hconv := h.conversation l.exchangeId
  have heq := h.last_eq hl.last hn.parent hid
  have hlegs : l.usedLegs = (legs created l.exchangeId).length + 1 := by
    rw [hn.usedLegs, hl.usedLegs]
  refine ⟨⟨hconv.thread.snoc hl.last ⟨?_, ?_, ?_, ?_⟩, ?_, ?_⟩, hlegs⟩
  · exact hn.parentId.trans (congrArg some hid.symm)
  · have hnum := hconv.thread.last_number hl.last
    exact hlegs.trans (congrArg (· + 1) hnum.symm)
  · exact heq ▸ hn.source.symm
  · exact heq ▸ hn.target.symm
  · rw [length_append, length_singleton, ← hlegs]; exact hn.budget
  · have hmem := mem_of_getLast? hl.last
    have hall : ∀ a ∈ legs created l.exchangeId ++ [l], a.expiresAt = last.expiresAt := by
      intro a ha'
      rcases mem_append.1 ha' with ha' | ha'
      · exact hconv.expiry a ha' last hmem
      · rw [mem_singleton.1 ha', ← hl.expiresAt, hexp]
    intro a ha' b hb'
    rw [hall a ha', hall b hb']

lemma ChainOk.first_leg (hfresh : ∀ c ∈ created, c.letter.exchangeId ≠ exchangeId)
    (hf : FirstLeg s exchangeId x l) : legs created l.exchangeId = [] ∧ Conversation [l] := by
  refine ⟨?_, .single hf.usedLegs hf.parent, by simp [maxRelayLegs], ?_⟩
  · refine eq_nil_iff_forall_not_mem.2 fun a ha => ?_
    obtain ⟨⟨c, hc, rfl⟩, hid⟩ := mem_legs.1 ha
    exact hfresh c hc (hid.trans hf.exchangeId)
  · intro a ha b hb
    rw [mem_singleton.1 ha, mem_singleton.1 hb]

/-- The place of an accepted letter in its conversation, for either kind of leg. -/
lemma ChainOk.placed (h : ChainOk s clock created)
    (hfresh : ∀ c ∈ created, c.letter.id ≠ envelopeId ∧ c.letter.exchangeId ≠ exchangeId)
    (ha : Accepted s s' call payload envelopeId exchangeId x l) :
    Conversation (legs created l.exchangeId ++ [l]) ∧
      l.usedLegs = (legs created l.exchangeId).length + 1 ∧
      (l.kind = .requestReply → l.usedLegs < maxRelayLegs) := by
  rcases ha.place with hf | ⟨p, hn⟩
  · obtain ⟨hnil, hconv⟩ := ChainOk.first_leg (fun c hc => (hfresh c hc).2) hf
    rw [hnil]
    exact ⟨hconv, hf.usedLegs, fun _ => by rw [hf.usedLegs]; decide⟩
  · obtain ⟨hconv, hlegs⟩ := h.next_leg ha.exchange.1 ha.exchange.2 hn
    exact ⟨hconv, hlegs, hn.room⟩

lemma ChainOk.payload_new (h : ChainOk s clock created) (ht : call.timestamp = clock)
    (ha : Accepted s s' call payload envelopeId exchangeId x l) :
    some payload ∉ created.map Created.payload := by
  intro hmem
  obtain ⟨c, hc, hcp⟩ := mem_map.1 hmem
  obtain ⟨q, hq, hreq, hroute, hexp⟩ := h.payload c hc
  obtain rfl : q = payload := by simpa using hq.symm.trans hcp
  rcases h.kept c hc with ⟨e, he, hl⟩ | hlate
  · refine ha.newRequest e he ⟨?_, ?_⟩
    · exact Uuid.ext_text ((congrArg (·.sourceRouteId.text) hl).trans
        (hroute.trans ha.sourceRouteId.symm))
    · exact Uuid.ext_text ((congrArg (·.requestId.text) hl).trans (hreq.trans ha.requestId.symm))
  · have := ha.pending
    rw [ha.expiresAt] at this
    omega

/-- STEP: an accepted letter keeps the invariant. -/
theorem ChainOk.accept (h : ChainOk s clock created) (ht : call.timestamp = clock)
    (hfresh : ∀ c ∈ created, c.letter.id ≠ envelopeId ∧ c.letter.exchangeId ≠ exchangeId)
    (ha : Accepted s s' call payload envelopeId exchangeId x l) :
    ChainOk s' clock (created ++ [⟨some payload, l⟩]) := by
  obtain ⟨hconv, hlegs, hroom⟩ := h.placed hfresh ha
  have hmem : ∀ e, e ∈ s'.envelopes ↔ e ∈ s.envelopes ∨ e = { l with status := .queued } := by
    intro e
    rw [mem_def, ha.envelopes, mem_append, mem_singleton, mem_def]
  constructor
  case letters =>
    intro e he
    rcases (hmem e).1 he with he | rfl
    · obtain ⟨c, hc, hl⟩ := h.letters e he
      exact ⟨c, mem_append_left _ hc, hl⟩
    · exact ⟨⟨some payload, l⟩, by simp, rfl⟩
  case kept =>
    intro c hc
    rcases mem_append.1 hc with hc | hc
    · rcases h.kept c hc with ⟨e, he, hl⟩ | hlate
      · exact .inl ⟨e, (hmem e).2 (.inl he), hl⟩
      · exact .inr hlate
    · rw [mem_singleton.1 hc]
      exact .inl ⟨_, (hmem _).2 (.inr rfl), rfl⟩
  case ids =>
    rw [map_append, nodup_append]
    refine ⟨h.ids, by simp, ?_⟩
    rintro a ha' b hb rfl
    obtain ⟨c, hc, rfl⟩ := mem_map.1 ha'
    exact (hfresh c hc).1 ((mem_singleton.1 hb).trans ha.id)
  case bounded => exact forall_mem_append.2 ⟨h.bounded, forall_mem_singleton.2 ha.bounded⟩
  case payload =>
    refine forall_mem_append.2 ⟨h.payload, forall_mem_singleton.2 ?_⟩
    exact ⟨payload, rfl, ha.requestId, ha.sourceRouteId, ha.expiresAt⟩
  case once =>
    rw [map_append, nodup_append]
    refine ⟨h.once, by simp, ?_⟩
    rintro a ha' b hb rfl
    obtain rfl : a = some payload := mem_singleton.1 hb
    exact h.payload_new ht ha ha'
  case conversation =>
    intro id
    rw [legs_append]
    split
    · rename_i hid; exact hid ▸ hconv
    · exact h.conversation id
  case rows =>
    intro y hy
    rcases (ha.exchanges y).1 hy with ⟨hy, hne⟩ | rfl
    · rw [legs_append, if_neg (Ne.symm hne)]
      exact h.rows y hy
    · have hid : (x.advance l).id = l.exchangeId := ha.exchange.1
      rw [hid, legs_append, if_pos rfl]
      have hlen : (legs created l.exchangeId ++ [l]).length = l.usedLegs := by
        rw [length_append, length_singleton, hlegs]
      refine ⟨l, getLast?_concat, rfl, hlen.symm, ha.exchange.2, ?_, ?_⟩
      · intro hs
        cases hk : l.kind <;> simp [Exchange.advance, RelayKind.terminal, hk] at hs ⊢
      · intro hs
        have hk : l.kind = .requestReply := by
          cases hk : l.kind <;> simp [Exchange.advance, RelayKind.terminal, hk] at hs ⊢
        exact ⟨hk, hlen ▸ hroom hk⟩

end Accept

/-! ### Runs -/

/-- The clock does not go back, and the identifiers a submission draws are new. -/
def Orderly (w : World δ) (op : Op δ) : Prop :=
  w.clock ≤ op.call.timestamp ∧ ∀ d ∈ op.action.drawn?, ∀ c ∈ w.created,
    c.letter.id ≠ d.1 ∧ c.letter.exchangeId ≠ d.2

instance (w : World δ) (op : Op δ) : Decidable (Orderly w op) := inferInstanceAs (Decidable (_ ∧ _))

/-- The history of a world is right. -/
def World.ChainOk (w : World δ) : Prop := SecurePeer.ChainOk w.store w.clock w.created

lemma newEnvelopes_nil (h : ∀ e' ∈ s'.envelopes, ∃ e ∈ s.envelopes, e'.toLetter = e.toLetter) :
    newEnvelopes s s' = [] := by
  unfold newEnvelopes
  rw [map_eq_nil_iff, filter_eq_nil_iff]
  intro e' he' hnone
  obtain ⟨e, he, hl⟩ := h e' he'
  have := Table.find?_eq_none.1 (Option.isNone_iff_eq_none.1 hnone) e he
  exact this (congrArg Letter.id hl).symm

lemma newEnvelopes_accepted {t : Nat} (hfresh : ∀ e ∈ s.envelopes, e.id ≠ envelopeId)
    (ha : Accepted (s.pruneRelayState t) s' call payload envelopeId exchangeId x l) :
    newEnvelopes s s' = [l] := by
  unfold newEnvelopes
  rw [ha.envelopes, filter_append]
  have hold : (s.pruneRelayState t).envelopes.rows.filter (fun e => (s.envelopes.find? e.id).isNone)
      = [] := by
    rw [filter_eq_nil_iff]
    intro e' he' hnone
    obtain ⟨e, he, hc⟩ := prune_envelope he'
    have hid : e.id = e'.id := by rcases hc with ⟨_, _, rfl⟩ | ⟨rfl, _⟩ <;> rfl
    exact find?_eq_none.1 (Option.isNone_iff_eq_none.1 hnone) e he hid
  have hnew : (s.envelopes.find? l.id).isNone = true :=
    Option.isNone_iff_eq_none.2 (find?_eq_none.2 fun e he => ha.id ▸ hfresh e he)
  rw [hold]
  simp [hnew]

lemma new_chainOk (available : Bool) : (World.new (δ := δ) available).ChainOk where
  letters := fun e he => absurd he (not_mem_empty e)
  kept := by simp [World.new]
  ids := by simp [World.new]
  bounded := by simp [World.new]
  payload := by simp [World.new]
  once := by simp [World.new]
  conversation := fun _ => ⟨.nil, Nat.zero_le _, by simp [World.new, legs]⟩
  rows := fun x hx => absurd hx (not_mem_empty x)

section Run
variable [DecidableEq δ] (h : Host δ) {op : Op δ}

/-- A call keeps every letter as it is, or adds the one it accepts. -/
lemma perform_letters (s : Store δ) (op : Op δ) :
    LettersKept s (perform h s op).1 op.call.timestamp ∨
      ∃ payload envelopeId exchangeId x l, op.action.payload? = some payload ∧
        op.action.drawn? = some (envelopeId, exchangeId) ∧
        Accepted (s.pruneRelayState op.call.timestamp) (perform h s op).1 op.call payload envelopeId
          exchangeId x l := by
  have hp := perform_performed h s op
  generalize (perform h s op).1 = s', (perform h s op).2 = reply at hp ⊢
  cases hp with
  | refused => exact .inl (.of_fades (.refl _) _)
  | changed hc => exact .inl (.of_fades hc.fades _)
  | replayed => exact .inl (.of_prune _ _)
  | accepted _ hp hd ha => exact .inr ⟨_, _, _, _, _, hp, hd, ha⟩
  | claimed _ _ hc => exact .inl (.of_claimed hc)
  | receipted _ hc => exact .inl (.of_receipted hc _)

lemma step_created_kept (hk : LettersKept w.store (perform h w.store op).1 op.call.timestamp) :
    (step h w op).created = w.created := by
  have hnil := newEnvelopes_nil hk.letters
  simp [step, hnil]

lemma step_created_accepted
    (hletters : ∀ e ∈ w.store.envelopes, ∃ c ∈ w.created, c.letter = e.toLetter)
    (hnew : ∀ c ∈ w.created, c.letter.id ≠ envelopeId) (hp : op.action.payload? = some payload) (ha :
      Accepted (w.store.pruneRelayState op.call.timestamp) (perform h w.store op).1 op.call payload
      envelopeId exchangeId x l) :
    (step h w op).created = w.created ++ [⟨some payload, l⟩] := by
  have hone := newEnvelopes_accepted (fun e he => ?_) ha
  · simp [step, hone, hp]
  · obtain ⟨c, hc, hl⟩ := hletters e he
    exact fun heq => hnew c hc ((congrArg Letter.id hl).trans heq)

/-- STEP: an orderly call keeps the chain. -/
theorem step_chainOk (w : World δ) (op : Op δ) (ho : Orderly w op) (hw : w.ChainOk) :
    (step h w op).ChainOk := by
  unfold World.ChainOk
  rcases perform_letters h w.store op with hk | ⟨payload, envelopeId, exchangeId, x, l, hp, hd, ha⟩
  · rw [step_created_kept h hk]
    exact ChainOk.frame hw ho.1 hk
  · rw [step_created_accepted h hw.letters (fun c hc => (ho.2 _ hd c hc).1) hp ha]
    exact ChainOk.accept (ChainOk.frame hw ho.1 (.of_prune _ _)) rfl (ho.2 _ hd) ha

def Closed (w : World δ) (id : Uuid) : Prop :=
  legs w.created id ≠ [] ∧ ∀ x ∈ w.store.exchanges, x.id = id → x.status ≠ .opened

/-- STEP: a closed exchange stays closed and gets no letter. -/
theorem step_closed (w : World δ) (op : Op δ) (ho : Orderly w op) (hw : w.ChainOk) (hc : Closed w id) :
    legs (step h w op).created id = legs w.created id ∧ Closed (step h w op) id := by
  obtain ⟨hne, hclosed⟩ := hc
  have hfade : ∀ {s' : Store δ}, LettersKept w.store s' op.call.timestamp →
      ∀ x ∈ s'.exchanges, x.id = id → x.status ≠ .opened := by
    intro s' hk x' hx' hid
    obtain ⟨x, hx, rfl | ⟨_, rfl⟩⟩ := hk.exchanges x' hx'
    · exact hclosed x' hx hid
    · exact nofun
  rcases perform_letters h w.store op with hk | ⟨payload, envelopeId, exchangeId, x, l, hp, hd, ha⟩
  · have hcr := step_created_kept h hk
    exact ⟨by rw [hcr], by rw [hcr]; exact hne, hfade hk⟩
  · have hother : l.exchangeId ≠ id := by
      rintro rfl
      rcases ha.place with hf | ⟨p, hn⟩
      · obtain ⟨a, hmem⟩ := exists_mem_of_ne_nil _ hne
        obtain ⟨⟨c, hc, rfl⟩, hid⟩ := mem_legs.1 hmem
        exact (ho.2 _ hd c hc).2 (hid.trans hf.exchangeId)
      · exact hfade (.of_prune _ _) x hn.exchange ha.exchange.1 hn.isOpen
    have hcr := step_created_accepted h hw.letters (fun c hc => (ho.2 _ hd c hc).1) hp ha
    have hlegs : legs (step h w op).created id = legs w.created id := by
      rw [hcr, legs_append, if_neg hother]
    refine ⟨hlegs, by rw [hlegs]; exact hne, ?_⟩
    intro y hy hid
    rcases (ha.exchanges y).1 hy with ⟨hy, _⟩ | rfl
    · exact hfade (.of_prune _ _) y hy hid
    · exact absurd (ha.exchange.1.symm.trans hid) hother

lemma run_chainOk (available : Bool) (ops : List (Op δ))
    (ho : Along (step h) Orderly (World.new available) ops) :
    (run (step h) (World.new available) ops).ChainOk :=
  run_inv_along (step_chainOk h) ops _ ho (new_chainOk available)

/-- A closed exchange has its last letter. -/
lemma run_closed (hw : w.ChainOk) (hc : Closed w id) (more : List (Op δ))
    (ho : Along (step h) Orderly w more) :
    legs (run (step h) w more).created id = legs w.created id := by
  have hinv := run_inv_along
    (P := fun v => v.ChainOk ∧ Closed v id ∧ legs v.created id = legs w.created id) ?_ more w ho
    ⟨hw, hc, rfl⟩
  · exact hinv.2.2
  · rintro v op hop ⟨hv, hcv, hlegs⟩
    obtain ⟨hsame, hclosed⟩ := step_closed h v op hop hv hcv
    exact ⟨step_chainOk h v op hop hv, hclosed, hsame.trans hlegs⟩

lemma refused_submission (s : Store δ) (op : Op δ) (hp : op.action.payload?.isSome = true) (e : Err)
    (hr : (perform h s op).2 = .refused e) : (perform h s op).1 = s := by
  obtain ⟨call, action⟩ := op
  have hsettle : ∀ x : Except Err (Store δ × SubmitReply), (settle s Reply.submitted x).2 = .refused e →
      (settle s Reply.submitted x).1 = s := by
    intro x hx
    match x, hx with
    | .error _, _ => rfl
  cases action with
  | submitEnvelope | submitLocalEnvelope => exact hsettle _ hr
  | _ => cases hp

end Run

/-! ### The chain -/

/-- What the history of a world and its exchange rows look like. -/
structure RelayChain (w : World δ) : Prop where
  numbered : ∀ id k l, (legs w.created id)[k]? = some l → l.usedLegs = k + 1
  bounded : ∀ id, (legs w.created id).length ≤ 6
  linked : ∀ id k a b, (legs w.created id)[k]? = some a → (legs w.created id)[k + 1]? = some b →
    b.parentEnvelopeId = some a.id ∧ b.sourceRouteId = a.targetRouteId ∧
      b.targetRouteId = a.sourceRouteId ∧ b.expiresAt = a.expiresAt
  rows : ∀ x ∈ w.store.exchanges, x.usedLegs = (legs w.created x.id).length ∧
    ∃ last, (legs w.created x.id).getLast? = some last ∧ x.lastEnvelopeId = some last.id ∧
      (x.status = .complete → last.kind = .instruction ∨ last.kind = .response) ∧
      (x.status = .opened → last.kind = .requestReply ∧ x.usedLegs < 6)
  once : (w.created.map Created.payload).Nodup

lemma World.ChainOk.relayChain (h : w.ChainOk) : RelayChain w where
  numbered := fun id _ _ hl => (h.conversation id).thread.number hl
  bounded := fun id => (h.conversation id).bounded
  linked := by
    intro id k a b ha hb
    have hab := (h.conversation id).thread.answers ha hb
    exact ⟨hab.parent, hab.source, hab.target, (h.conversation id).expiry b
      (mem_of_getElem? hb) a (mem_of_getElem? ha)⟩
  rows := by
    intro x hx
    obtain ⟨last, hl⟩ := h.rows x hx
    refine ⟨hl.usedLegs, last, hl.last, hl.lastId, hl.complete, fun ho => ?_⟩
    exact ⟨(hl.opened ho).1, hl.usedLegs ▸ (hl.opened ho).2⟩
  once := h.once

/-- CHAIN: along every orderly run each exchange is a chain of at most six alternating legs with the
    row about the last of them, a terminal exchange gets no further envelope, no payload creates two
    envelopes, and a refused submission changes nothing. -/
theorem relay_chain [DecidableEq δ] (h : Host δ) (available : Bool) (ops : List (Op δ))
    (ho : Along (step h) Orderly (World.new available) ops) :
    RelayChain (run (step h) (World.new available) ops) ∧
      (∀ x ∈ (run (step h) (World.new available) ops).store.exchanges, x.status ≠ .opened →
        ∀ more, Along (step h) Orderly (run (step h) (World.new available) ops) more →
          legs (run (step h) (World.new available) (ops ++ more)).created x.id =
            legs (run (step h) (World.new available) ops).created x.id) ∧
      ∀ op e, op.action.payload?.isSome = true →
        (perform h (run (step h) (World.new available) ops).store op).2 = .refused e →
        (perform h (run (step h) (World.new available) ops).store op).1 =
          (run (step h) (World.new available) ops).store := by
  have hok := run_chainOk h available ops ho
  refine ⟨hok.relayChain, ?_, fun op e hp => refused_submission h _ op hp e⟩
  intro x hx hs more hmore
  rw [run_append]
  refine run_closed h hok ⟨?_, ?_⟩ more hmore
  · obtain ⟨last, hl⟩ := hok.rows x hx
    intro hnil
    have := hl.last
    rw [hnil] at this
    cases this
  · intro y hy hid
    rw [(run (step h) (World.new available) ops).store.exchanges.eq_of_key hy hx hid]
    exact hs

/-- The rule at a question that was answered. -/
theorem relay_chain_answered :
    Along (step Sample.host) Orderly (World.new true) Sample.answered ∧
      RelayChain (run (step Sample.host) (World.new true) Sample.answered) :=
  have ho : Along (step Sample.host) Orderly (World.new true) Sample.answered := by decide +kernel
  ⟨ho, (relay_chain Sample.host true Sample.answered ho).1⟩

end SecurePeer
