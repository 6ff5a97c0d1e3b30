import Mathlib.Data.List.Sort
import ZenithBot.Delivery.Safety

/-! The response of a delivery is committed at most once. Four operations write its columns:

        prepare_response          none ──▶ prepared
        defer_response            prepared ──▶ prepared, due later
        clear_response_intent     prepared ──▶ none
        mark_response_committed   whatever is there ──▶ committed

    Beside the ledger an `Outbox` keeps what the row does not: the intent last saved for the delivery
    and everything that was ever marked committed. -/

namespace Delivery

/-- `COALESCE(response_retry_at,0)`. -/
def Row.responseDue (r : Row) : Int := r.responseRetryAt.getD 0

/-- `ORDER BY COALESCE(response_retry_at,0),created_at,envelope_id`. -/
def Row.dueBefore (a b : Row) : Bool :=
  a.responseDue < b.responseDue || (a.responseDue = b.responseDue &&
    (a.createdAt < b.createdAt || (a.createdAt = b.createdAt && a.envelopeId ≤ b.envelopeId)))

/-- The responses that are due, at most `limit` of them. -/
def pendingResponses (l : Ledger) (limit now : Int) : Except String (List Row) :=
  if ¬(1 ≤ limit ∧ limit ≤ maxNonterminalDeliveries) then
    .error "secure peer response retry limit is invalid"
  else
    let due := l.rows.filter fun r => open_ r.state && r.responseRequestId.isSome
      && !r.responseCommitted && r.responseDue ≤ now
    .ok ((due.mergeSort Row.dueBefore).take limit.toNat)

lemma pendingResponses_uncommitted {l : Ledger} {limit now : Int} {due : List Row} {r : Row}
    (h : pendingResponses l limit now = .ok due) (hr : r ∈ due) :
    r ∈ l ∧ r.responseCommitted = false := by
  unfold pendingResponses at h
  split at h
  · cases h
  · cases h
    have hmem := List.mem_filter.1 (List.mem_mergeSort.1 (List.mem_of_mem_take hr))
    simp only [Bool.and_eq_true, Bool.not_eq_true'] at hmem
    exact ⟨hmem.1, hmem.2.1.2⟩

def Op.intent : Op → Option Intent
  | .prepareResponse _ requestId body requestResponse _ => some ⟨requestId, body, requestResponse⟩
  | _ => none

/-- The ledger and the history of the response to one delivery. -/
structure Outbox where
  ledger : Ledger
  /-- The intent last saved. -/
  prepared : Option Intent := none
  /-- The digest in the row each time it was marked committed. -/
  marked : List (Option String) := []

/-- One operation that took the response from `g` to `g'`. -/
def Outbox.follow (w : Outbox) (l' : Ledger) (o : Op) (g g' : Response) : Outbox where
  ledger := l'
  prepared := if g.digest = none ∧ g'.digest ≠ none then o.intent else w.prepared
  marked := if g.committed = false ∧ g'.committed = true then g'.digest :: w.marked else w.marked

section Runs
variable (claimDigest : Claim → String) (intentDigest : Intent → String) (sha256 : String → String)
variable (id : String)

/-- One operation, as the delivery `id` sees it. -/
def Outbox.step (w : Outbox) (o : Op) : Outbox :=
  let l' := Delivery.step claimDigest intentDigest sha256 w.ledger o
  match w.ledger.find? id, l'.find? id with
  | some r, some r' => w.follow l' o r.response r'.response
  | none, some _ => { ledger := l' } -- another delivery under the id of one that was pruned
  | _, none => { w with ledger := l' }

def outboxAfter (ops : List Op) : Outbox :=
  Lib.run (Outbox.step claimDigest intentDigest sha256 id) { ledger := .empty } ops

/-- What the history says of the response in the row. -/
structure Outbox.Tells (w : Outbox) (g : Response) : Prop where
  prepared : ∀ d, g.digest = some d → ∃ i, w.prepared = some i ∧ intentDigest i = d
  named : g.requestId.isSome = g.digest.isSome
  marked : w.marked = if g.committed then [g.digest] else []

/-- What holds of an outbox between any two operations. -/
structure OutboxOk (w : Outbox) : Prop where
  once : w.marked.length ≤ 1
  tells : ∀ r, w.ledger.find? id = some r → w.Tells intentDigest r.response

variable {claimDigest intentDigest sha256 id}
variable {l : Ledger} {w : Outbox} {o : Op} {r r' : Row} {g g' : Response}

/-- The response to a delivery around one operation. -/
lemma step_response (hr : l.find? id = some r)
    (hr' : (step claimDigest intentDigest sha256 l o).find? id = some r') :
    Response.Move intentDigest o id r.response r'.response := by
  obtain ⟨hmem, rfl⟩ := Table.find?_eq_some.1 hr
  obtain ⟨hmem', hk⟩ := Table.find?_eq_some.1 hr'
  rcases (step_change l o).rows hmem' with ⟨x, hx, hxk, -, hm⟩ | ⟨-, -, -, -, hnew⟩
  · rw [l.eq_of_key hmem hx (hk.symm.trans hxk)]
    exact hm
  · exact absurd hk.symm (hnew r hmem)

lemma step_blank (hr : l.find? id = none)
    (hr' : (step claimDigest intentDigest sha256 l o).find? id = some r') : r'.response = .blank := by
  obtain ⟨hmem', rfl⟩ := Table.find?_eq_some.1 hr'
  rcases (step_change l o).rows hmem' with ⟨x, hx, hxk, -, -⟩ | ⟨-, -, -, hblank, -⟩
  · exact absurd hxk.symm (Table.find?_eq_none.1 hr x hx)
  · exact hblank

/-- STEP: the history goes on telling what the row holds. -/
theorem Outbox.Tells.follow (h : w.Tells intentDigest g)
    (hm : Response.Move intentDigest o id g g') (l' : Ledger) :
    (w.follow l' o g g').Tells intentDigest g' := by
  obtain ⟨hprepared, hnamed, hmarked⟩ := h
  cases hm with
  | keep => exact ⟨by simpa [follow] using hprepared, hnamed, by simpa [follow] using hmarked⟩
  | prepare i now hc hd ho =>
    refine ⟨fun d hd' => ⟨i, ?_, Option.some.inj hd'⟩, rfl, ?_⟩
    · simp [follow, hd, ho, Op.intent]
    · simpa [follow, hc] using hmarked
  | mark req now hc hreq ho =>
    refine ⟨by simpa [follow] using hprepared, hnamed, ?_⟩
    simp [follow, hc, hmarked]
  | clear hc => exact ⟨by simp, rfl, by simpa [follow, hc] using hmarked⟩

/-- STEP: an operation keeps the outbox in order. -/
theorem OutboxOk.step (h : OutboxOk intentDigest id w) (o : Op) :
    OutboxOk intentDigest id (w.step claimDigest intentDigest sha256 id o) := by
  rw [Outbox.step]
  split
  · rename_i r r' hr hr'
    have htells := (h.tells r hr).follow (step_response hr hr')
      (Delivery.step claimDigest intentDigest sha256 w.ledger o)
    refine ⟨?_, fun x hx => ?_⟩
    · rw [htells.marked]
      split <;> simp
    · rw [show x = r' from Option.some.inj (hx.symm.trans hr')]
      exact htells
  · rename_i r' hr hr'
    refine ⟨Nat.zero_le _, fun x hx => ?_⟩
    rw [show x = r' from Option.some.inj (hx.symm.trans hr'), step_blank hr hr']
    exact ⟨by simp [Response.blank], rfl, rfl⟩
  · rename_i hnone
    exact ⟨h.once, fun x hx => absurd (hx.symm.trans hnone) (by simp)⟩

lemma outboxOk_after (ops : List Op) :
    OutboxOk intentDigest id (outboxAfter claimDigest intentDigest sha256 id ops) :=
  Lib.run_inv (fun _ o h => h.step o) ops _
    ⟨Nat.zero_le _, fun _ hr => absurd (Table.find?_mem hr) (Table.not_mem_empty _)⟩

lemma Response.Move.committed (hm : Response.Move intentDigest o id g g')
    (hc : g.committed = true) : g' = g := by
  cases hm with
  | keep => rfl
  | prepare _ _ hc' | mark _ _ hc' | clear hc' => rw [hc] at hc'; cases hc'

/-- RUN: while the delivery is not pruned, a committed response stays as it is. -/
theorem committed_run : ∀ (ops : List Op) (l : Ledger) (r : Row), l.find? id = some r →
    r.responseCommitted = true → Kept claimDigest intentDigest sha256 id l ops →
    ∃ r', (Lib.run (step claimDigest intentDigest sha256) l ops).find? id = some r' ∧
      r'.response = r.response
  | [], _, r, hr, _, _ => ⟨r, hr, rfl⟩
  | o :: ops, l, r, hr, hc, ⟨⟨x, hx, hxk⟩, hrest⟩ => by
    have hx' := Table.find?_eq_some.2 ⟨hx, hxk⟩
    have hsame := (step_response hr hx').committed hc
    have hcx : x.responseCommitted = true := (congrArg Response.committed hsame).trans hc
    obtain ⟨r', hr', heq⟩ := committed_run ops _ x hx' hcx hrest
    exact ⟨r', hr', heq.trans hsame⟩

lemma Response.Move.marks (hm : Response.Move intentDigest o id g g') (hc : g.committed = false)
    (hc' : g'.committed = true) : g' = { g with committed := true } ∧
      ∃ req now, o = .markResponseCommitted id req now ∧ (req = none ∨ g.requestId = req) := by
  cases hm with
  | keep => rw [hc] at hc'; cases hc'
  | prepare | clear => exact absurd (hc.symm.trans hc') (by simp)
  | mark req now _ hreq ho => exact ⟨rfl, req, now, ho, hreq⟩

end Runs

/-- ONE RESPONSE: after any operations at most one response of a delivery was marked committed, the one
    in the row; until the delivery is pruned a committed response is neither cleared nor replaced, nor
    pending again; and a response is marked committed as it was last prepared, which a call that names a
    request id finds in the row. -/
theorem one_response_committed (claimDigest : Claim → String) (intentDigest : Intent → String)
    (sha256 : String → String) (id : String) (ops : List Op) :
    let w := outboxAfter claimDigest intentDigest sha256 id ops
    w.marked.length ≤ 1 ∧
    (∀ r, w.ledger.find? id = some r → r.responseCommitted = true →
      w.marked = [r.responseRequestDigest] ∧
      ∀ more, Kept claimDigest intentDigest sha256 id w.ledger more →
        let l := Lib.run (step claimDigest intentDigest sha256) w.ledger more
        (∃ r', l.find? id = some r' ∧ r'.response = r.response) ∧
        ∀ limit now due, pendingResponses l limit now = .ok due → ∀ x ∈ due, x.envelopeId ≠ id) ∧
    (∀ r r' o, w.ledger.find? id = some r → r.responseCommitted = false →
      (step claimDigest intentDigest sha256 w.ledger o).find? id = some r' →
      r'.responseCommitted = true →
      r'.response = { r.response with committed := true } ∧
      (∀ d, r.responseRequestDigest = some d → ∃ i, w.prepared = some i ∧ intentDigest i = d) ∧
      ∃ req now, o = .markResponseCommitted id req now ∧ ∀ q, req = some q →
        r.responseRequestId = some q ∧ ∃ i, w.prepared = some i ∧
          r.responseRequestDigest = some (intentDigest i)) := by
  intro w
  have hok : OutboxOk intentDigest id w := outboxOk_after ops
  refine ⟨hok.once, fun r hr hc => ⟨?_, fun more hkept => ?_⟩, fun r r' o hr hc hr' hc' => ?_⟩
  · rw [(hok.tells r hr).marked, show r.response.committed = true from hc]
    rfl
  · obtain ⟨r', hr', heq⟩ := committed_run more w.ledger r hr hc hkept
    refine ⟨⟨r', hr', heq⟩, fun limit now due hdue x hx hid => ?_⟩
    obtain ⟨hmem, hxc⟩ := pendingResponses_uncommitted hdue hx
    have hxr : x = r' := Option.some.inj ((Table.find?_eq_some.2 ⟨hmem, hid⟩).symm.trans hr')
    have hrc : r'.responseCommitted = true := (congrArg Response.committed heq).trans hc
    rw [hxr, hrc] at hxc
    cases hxc
  · have htells := hok.tells r hr
    obtain ⟨hmark, req, now, ho, hreq⟩ := (step_response hr hr').marks hc hc'
    refine ⟨hmark, htells.prepared, req, now, ho, fun q hq => ?_⟩
    have hname : r.responseRequestId = some q := by
      rcases hreq with hnone | h
      · rw [hnone] at hq; cases hq
      · exact h.trans hq
    have hnamed : r.responseRequestId.isSome = r.responseRequestDigest.isSome := htells.named
    rw [hname] at hnamed
    obtain ⟨d, hd⟩ := Option.isSome_iff_exists.1 hnamed.symm
    obtain ⟨i, hi, rfl⟩ := htells.prepared d hd
    exact ⟨hname, i, hi, hd⟩

/-- An envelope of the relay. -/
def sampleEnvelope : Envelope where
  envelopeId := "env"
  requestId := "request"
  teamId := "team"
  sourcePeerId := none
  sourceServerIdentity := "source"
  sourceRouteId := "route"
  sourceRouteRevision := "1"
  targetPeerId := none
  targetServerIdentity := "target"
  targetRouteId := "route"
  targetRouteRevision := "1"
  action := "request_reply"
  kind := "request_reply"
  exchangeId := "exchange"
  parentEnvelopeId := none
  parentLeg := none
  usedLegs := 1
  maxLegs := 6
  expiresAt := 100
  body := some "hello"

/-- A call without a request id marks a delivery committed for which nothing was prepared. -/
theorem nothing_prepared_is_committed :
    let w := outboxAfter (fun _ => "") (fun _ => "") (fun _ => "") "env"
      [.prepare sampleEnvelope "host" "connection" "lease" "chat" 0, .authorize "env" 1,
        .markResponseCommitted "env" none 2]
    w.prepared = none ∧ (w.ledger.find? "env").any (·.responseCommitted) = true ∧
      w.marked = [none] := by
  decide +kernel

end Delivery
