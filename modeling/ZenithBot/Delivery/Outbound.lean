import ZenithBot.Delivery.Ledger

/-! The outbound half of the ledger (`secure_peer_delivery.py`): one row per message this server sends
    to another, from the moment it is prepared until the remote hub has accepted it or it has failed.

        prepare_outbound ──▶ pending ──▶ committed   (commit_outbound)
                                └──────▶ failed      (fail_outbound, or its exchange has expired)

    The remote hub answers outside the transaction, so the acceptance may come to a row that is not
    pending any more. -/

namespace Delivery
open Table

/-- The route of an outbound message. Missing or null entries are the empty text; `canonical` is the
    canonical JSON of the mapping. -/
structure Snapshot where
  (connectionId sourceRouteId sourceRouteRevision sourceChatId action canonical : String)

/-- What an outbound message is digested over. -/
structure Outbound where
  (requestId sourceSessionId sourceRunId : String)
  snapshot : Snapshot
  (body action : String)
  expiresAt : Int

inductive OutboundState where
  | pending | committed | failed
  deriving DecidableEq

/-- A row of `secure_peer_outbound_intents`. -/
structure OutboundRow where
  intent : Outbound
  intentDigest : String
  state : OutboundState := .pending
  /-- `response_json`. -/
  response : Option String := none
  attempts : Nat := 0
  retryAt : Option Int
  lastError : Option String := none
  (createdAt updatedAt : Int)

/-- Primary key of a row. -/
abbrev OutboundRow.requestId (r : OutboundRow) : String := r.intent.requestId

abbrev Outbounds := Table OutboundRow String OutboundRow.requestId

/-- The check of `prepare_outbound`. -/
def Outbound.valid (i : Outbound) : Bool :=
  "" ∉ [i.requestId, i.sourceSessionId, i.sourceRunId, i.snapshot.connectionId,
    i.snapshot.sourceRouteId, i.snapshot.sourceRouteRevision] &&
  i.snapshot.sourceChatId = i.sourceSessionId && i.snapshot.action = i.action &&
  i.action ∈ ["instruction", "request_reply"] && !Py.blank i.body && i.body.length ≤ 100000

/-- Save a message before it is sent. -/
def prepareOutbound (digest : Outbound → String) (t : Outbounds) (i : Outbound) (now : Int) :
    Except String (Outbounds × OutboundRow × Bool) :=
  if !i.valid then .error "secure peer outbound intent is invalid"
  else match t.find? i.requestId with
  | some row =>
    if row.intentDigest ≠ digest i then .error "secure peer outbound intent changed"
    else .ok (t, row, false)
  | none =>
    let row : OutboundRow := { intent := i, intentDigest := digest i, retryAt := some now,
                               createdAt := now, updatedAt := now }
    match t.insert? row with
    | none => .error "UNIQUE constraint failed"
    | some t' => .ok (t', row, true)

/-- `_expire_pending_outbound`, with which every listing of the pending messages begins. -/
def expirePendingOutbound (t : Outbounds) (timestamp : Int) : Outbounds :=
  t.updateWhere (fun r => r.state = .pending && r.intent.expiresAt ≤ timestamp)
    (fun r => { r with
      state := .failed, retryAt := none, lastError := some "secure peer exchange expired",
      updatedAt := timestamp }) fun _ => rfl

/-- The remote hub has accepted the message with `response`. -/
def commitOutbound (t : Outbounds) (requestId response : String) (now : Int) :
    Except String (Outbounds × Option OutboundRow) :=
  match t.find? requestId with
  | none => .ok (t, none)
  | some row =>
    if row.state = .committed then
      if row.response.getD "" ≠ response then .error "secure peer outbound result changed"
      else .ok (t, some row)
    else if row.state ≠ .pending then .ok (t, some row)
    else
      let t' := t.updateWhere (fun r => r.requestId = requestId && r.state = .pending)
        (fun r => { r with
          state := .committed, response := some response, retryAt := none, lastError := none,
          updatedAt := now }) fun _ => rfl
      .ok (t', t'.find? requestId)

/-- Schedule another attempt to send the message. -/
def deferOutbound (t : Outbounds) (requestId error : String) (now : Int) :
    Except String (Outbounds × Option OutboundRow) :=
  match t.find? requestId with
  | none => .ok (t, none)
  | some row =>
    if row.state ≠ .pending then .ok (t, some row)
    else
      let attempts := row.attempts + 1
      let t' := t.updateWhere (fun r => r.requestId = requestId && r.state = .pending)
        (fun r => { r with
          attempts := attempts, retryAt := some (now + backoff attempts),
          lastError := some (Py.clip 400 error), updatedAt := now }) fun _ => rfl
      .ok (t', t'.find? requestId)

def failOutbound (t : Outbounds) (requestId error : String) (now : Int) :
    Except String (Outbounds × Option OutboundRow) :=
  let t' := t.updateWhere (fun r => r.requestId = requestId && r.state = .pending)
    (fun r => { r with
      state := .failed, retryAt := none, lastError := some (Py.clip 400 error),
      updatedAt := now }) fun _ => rfl
  .ok (t', t'.find? requestId)

/-- One call, with everything the caller, the remote hub and the clock decide. -/
inductive OutboundOp where
  | prepare (i : Outbound) (now : Int)
  | expire (timestamp : Int)
  | commit (requestId response : String) (now : Int)
  | defer (requestId error : String) (now : Int)
  | fail (requestId error : String) (now : Int)

section Steps
variable (digest : Outbound → String)

/-- A raised error rolls the transaction back. -/
def outboundStep (t : Outbounds) : OutboundOp → Outbounds
  | .prepare i now => ((prepareOutbound digest t i now).map Prod.fst).toOption.getD t
  | .expire timestamp => expirePendingOutbound t timestamp
  | .commit requestId response now =>
    ((commitOutbound t requestId response now).map Prod.fst).toOption.getD t
  | .defer requestId error now =>
    ((deferOutbound t requestId error now).map Prod.fst).toOption.getD t
  | .fail requestId error now =>
    ((failOutbound t requestId error now).map Prod.fst).toOption.getD t

def outboundAfter (ops : List OutboundOp) : Outbounds := Lib.run (outboundStep digest) .empty ops

/-- `outbound`: what the ledger reports of a message. -/
def reported (t : Outbounds) (requestId : String) : Option (OutboundState × Option String) :=
  (t.find? requestId).map fun r => (r.state, r.response)

variable {t : Outbounds} {r : OutboundRow} {k : String}

lemma find?_spared {p : OutboundRow → Bool} {f : OutboundRow → OutboundRow}
    (hf : ∀ r, (f r).requestId = r.requestId) (hr : t.find? k = some r) (hp : p r = false) :
    (t.updateWhere p f hf).find? k = some r := by
  rw [find?_updateWhere, hr, Option.map_some, if_neg (by simp [hp])]

/-- STEP: a row that has left `pending` is never written again. -/
theorem settled_step (hr : t.find? k = some r) (hs : r.state ≠ .pending) (o : OutboundOp) :
    (outboundStep digest t o).find? k = some r := by
  cases o with
  | prepare i now =>
    simp only [outboundStep, prepareOutbound]
    split
    · exact hr
    split
    · split <;> exact hr
    split
    · exact hr
    · rename_i hins
      obtain ⟨hmem, hk⟩ := find?_eq_some.1 hr
      exact find?_eq_some.2 ⟨(mem_insert? hins).2 (.inl hmem), hk⟩
  | expire timestamp | fail requestId error now =>
    exact find?_spared (fun _ => by rfl) hr (by simp [hs])
  | commit requestId response now =>
    simp only [outboundStep, commitOutbound]
    split
    · exact hr
    split
    · split <;> exact hr
    split
    · exact hr
    · exact find?_spared (fun _ => by rfl) hr (by simp [hs])
  | defer requestId error now =>
    simp only [outboundStep, deferOutbound]
    split
    · exact hr
    split
    · exact hr
    · exact find?_spared (fun _ => by rfl) hr (by simp [hs])

/-- RUN: it stays as it is. -/
theorem settled_run (hr : t.find? k = some r) (hs : r.state ≠ .pending) (ops : List OutboundOp) :
    (Lib.run (outboundStep digest) t ops).find? k = some r :=
  Lib.run_inv (P := fun t => t.find? k = some r) (fun _ o h => settled_step digest h hs o) ops t hr

lemma commit_pending (response : String) (now : Int) (hr : t.find? k = some r)
    (hs : r.state = .pending) :
    ∃ r', (outboundStep digest t (.commit k response now)).find? k = some r' ∧
      r'.state = .committed ∧ r'.response = some response := by
  have hstep : outboundStep digest t (.commit k response now) =
      t.updateWhere (fun r => r.requestId = k && r.state = .pending) (fun r => { r with
        state := .committed, response := some response, retryAt := none, lastError := none,
        updatedAt := now }) (fun _ => rfl) := by
    simp [outboundStep, commitOutbound, hr, hs, Except.map, Except.toOption]
  rw [hstep, find?_updateWhere, hr, Option.map_some, if_pos (by simp [hs, find?_key hr])]
  exact ⟨_, rfl, rfl, rfl⟩

end Steps

/-- COMMITTED: a message settles once and its response stays; and from its acceptance on the ledger
    reports it committed with that response exactly when the acceptance found it pending, or committed with
    the same response. -/
theorem accepted_reported_iff (digest : Outbound → String) (ops : List OutboundOp) :
    let t := outboundAfter digest ops
    (∀ r ∈ t, r.state ≠ .pending → ∀ more,
      (Lib.run (outboundStep digest) t more).find? r.requestId = some r) ∧
    (∀ r ∈ t, ∀ response now,
      (∀ more, reported (Lib.run (outboundStep digest) t (.commit r.requestId response now :: more))
          r.requestId = some (.committed, some response)) ↔
        r.state = .pending ∨ r.state = .committed ∧ r.response = some response) := by
  refine ⟨fun r hr hs more => settled_run digest (Table.find?_eq_some.2 ⟨hr, rfl⟩) hs more,
    fun r hr response now => ?_⟩
  have hfind := Table.find?_eq_some.2 ⟨hr, rfl⟩
  by_cases hs : r.state = .pending
  · refine iff_of_true (fun more => ?_) (.inl hs)
    obtain ⟨r', hr', hstate, hresponse⟩ := commit_pending digest response now hfind hs
    rw [Lib.run_cons, reported, settled_run digest hr' (by simp [hstate]), Option.map_some, hstate, hresponse]
  · have hkept := settled_run digest hfind hs
    simp only [reported, hkept, Option.map_some, Option.some.injEq, Prod.mk.injEq, hs, false_or,
      forall_const]

/-- The exchange expires while the message is on its way: the remote hub has it, the ledger says that
    it has failed. -/
theorem late_acceptance_is_lost :
    let i : Outbound := ⟨"request", "chat", "run", ⟨"connection", "route", "1", "chat", "instruction",
      "\x7b\x7d"⟩, "hello", "instruction", 10⟩
    reported (outboundAfter (fun _ => "")
      [.prepare i 0, .expire 10, .commit "request" "accepted" 11]) "request" =
        some (.failed, none) := by
  decide +kernel

end Delivery
