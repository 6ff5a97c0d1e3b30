import Mathlib.Data.List.Infix
import ZenithBot.EventLog.Sequence
import ZenithBot.Lib.Guard
import ZenithBot.PyText

/-! Provider history is imported by subtraction. What the server sent is on the timeline after the cursor;
    the provider's transcript shows it again, mixed with what was said elsewhere. Each message of the
    timeline is a credit, and the transcript is read against the first credit left:

        credits   a b c        credits   a b c
        delta     a x b c y    delta     x b c y       (a never reached the provider)
        fresh     x y          fresh     x b c y

    So the outside messages alone are fresh exactly when no credit is missing before one that shows up:
    when what shows up is an initial segment of the credits. -/

namespace History
open Lib Json EventLog List

/-! ### Keys -/

/-- A kind and a text. -/
abbrev Key := Text × Text

/-- `str.isspace` of one unit; there is no space outside the basic plane. -/
def isSpaceUnit (u : Fin 65536) : Bool := Py.isSpace (Char.ofNat u)

/-- `" ".join(text.split())`. -/
def normalize (t : Text) : Text :=
  (text " ").intercalate ((t.splitOnP isSpaceUnit).filter fun word => !word.isEmpty)

def historyDedupKey (kind text : Text) : Key := (kind, normalize text)

/-- One message of a provider's transcript. -/
structure Item where
  (kind text : Text)

def Item.key (i : Item) : Key := historyDedupKey i.kind i.text

/-! ### The timeline -/

/-- What a scan takes from elsewhere: `str(value or "")` of a value that is no text,
    `event_files_belong_to_session`, and the setting `HISTORY_SYNC_EVENT_SCAN_LIMIT`. -/
structure Reader where
  str : Json → Text
  belongs : Json → Bool
  scanLimit : Nat

def maxLocalTranscriptLineBytes : Nat := 4 * 1024 * 1024

/-- A credit: the number of an event and the key of its message. -/
abbrev Credit := Nat × Key

/-- The locals of the scan. -/
structure Scan where
  lastSeq : Nat
  selected : List Credit
  (hasMessages truncated : Bool)

/-- `event.get("imported") is True`. -/
def imported (event : Json) : Bool :=
  match event.get? (text "imported") with
  | some (.bool true) => true
  | _ => false

namespace Reader

def maximum (R : Reader) : Nat := max 1 R.scanLimit

def strOr (R : Reader) : Option Json → Text
  | none => []
  | some (.string s) => s
  | some value => R.str value

def messageKey (R : Reader) (event : Json) : Option Key :=
  match event.get? (text "type") with
  | some (.string type) =>
    if type = text "turn_started" then
      some (historyDedupKey (text "user") (R.strOr (event.get? (text "prompt"))))
    else if type = text "assistant_text" then
      some (historyDedupKey (text "assistant") (R.strOr (event.get? (text "text"))))
    else none
  | _ => none

/-- The body of the loop for an event within the bounds. -/
def note (R : Reader) (tail includeImported : Bool) (s : Scan) (seq : Nat) (event : Json) : Scan :=
  if R.belongs event then
    match R.messageKey event with
    | none => s
    | some key =>
      if !includeImported && imported event then { s with hasMessages := true }
      else if !tail && R.maximum ≤ s.selected.length then
        { s with hasMessages := true, truncated := true }
      else
        -- a `deque` that is full loses its oldest entry
        let all := s.selected ++ [(seq, key)]
        { s with
          hasMessages := true
          selected := if tail then all.drop (all.length - R.maximum) else all }
  else s

/-- The loop over the lines of the file. -/
def scanRows (R : Reader) (after through : Nat) (tail includeImported : Bool) :
    List (List Char) → Scan → Except String Scan
  | [], s => .ok s
  | row :: rows, s =>
    let raw := row.take (maxLocalTranscriptLineBytes + 1)
    if raw.getLast? ≠ some '\n' then
      if maxLocalTranscriptLineBytes < raw.length then
        .error "timeline event exceeds the history scan limit"
      else .ok s
    else if raw.all isSpace then .error "timeline contains an empty event during history sync"
    else
      match loads raw with
      | none => .error "timeline contains a malformed event during history sync"
      | some (.object fields) =>
        match durableEventSeq (.object fields) with
        | none => .error "timeline event sequence is invalid during history sync"
        | some seq =>
          if seq ≤ s.lastSeq then .error "timeline event sequence is invalid during history sync"
          else if seq ≤ after then
            scanRows R after through tail includeImported rows { s with lastSeq := seq }
          else if through < seq then .ok { s with lastSeq := seq }
          else
            scanRows R after through tail includeImported rows
              (R.note tail includeImported { s with lastSeq := seq } seq (.object fields))
      | some _ => .error "timeline contains a non-object event during history sync"

end Reader

/-- The credits, whether there is any message, and whether credits were left for the next pass. -/
def historyTimelineMessageKeys (R : Reader) (file : Option (List Char)) (after through : Nat)
    (tail includeImported : Bool) : Except String (List Credit × Bool × Bool) :=
  if max after through = after then .ok ([], false, false)
  else
    match file with
    | none => .error "timeline disappeared during history reconciliation"
    | some file => do
      let s ← R.scanRows after (max after through) tail includeImported (Lines.rows file) ⟨0, [], false, false⟩
      if s.lastSeq < max after through then
        .error "timeline changed during bounded history reconciliation"
      else .ok (s.selected, s.hasMessages, s.truncated)

/-! ### Subtraction -/

/-- The loop over the items, from the credits left and the number consumed last: the fresh items, and
    both at the end. -/
def subtract : List Credit → Nat → List Item → List Item × List Credit × Nat
  | credits, consumed, [] => ([], credits, consumed)
  | [], consumed, item :: items =>
    let r := subtract [] consumed items
    (item :: r.1, r.2)
  | (seq, key) :: credits, consumed, item :: items =>
    if item.key = key then subtract credits seq items
    else
      let r := subtract ((seq, key) :: credits) consumed items
      (item :: r.1, r.2)

def reconcileCursorHistoryItems (R : Reader) (file : Option (List Char)) (items : List Item)
    (after through : Nat) : Except String (List Item × Nat) := do
  let (messages, _, truncated) ← historyTimelineMessageKeys R file after (max after through) false false
  let (fresh, left, consumed) := subtract messages after items
  match left, truncated, messages.getLast? with
  | [], true, some last => .ok (fresh, last.1)
  | [], _, _ => .ok (fresh, max after through)
  | _ :: _, _, _ => .ok (fresh, consumed)

inductive Interleave {α : Type} : List α → List α → List α → Prop where
  | nil : Interleave [] [] []
  | own {x : α} {own outside items : List α} (h : Interleave own outside items) :
      Interleave (x :: own) outside (x :: items)
  | outside {x : α} {own outside items : List α} (h : Interleave own outside items) :
      Interleave own (x :: outside) (x :: items)

/-- SUBTRACTION: only the outside messages are left over exactly when the own ones come in the order of
    the credits, from the first one on and without a gap. -/
theorem subtract_fresh_iff {K : List Key} {own outside items : List Item}
    (hmix : Interleave own outside items) (hown : ∀ i ∈ own, i.key ∈ K) (hout : ∀ i ∈ outside, i.key ∉ K) :
    ∀ (credits : List Credit) (consumed : Nat), (∀ c ∈ credits, c.2 ∈ K) →
      ((subtract credits consumed items).1 = outside ↔ own.map Item.key <+: credits.map Prod.snd) := by
  induction hmix with
  | nil =>
    intro credits consumed _
    cases credits <;> simp [subtract]
  | @own x own outside items hmix ih =>
    intro credits consumed hK
    -- a message of ours that is left over is not among the outside ones
    have hleft : ∀ rest : List Item, x :: rest ≠ outside := by
      rintro rest rfl
      exact hout x mem_cons_self (hown x mem_cons_self)
    have ih := ih (fun i hi => hown i (mem_cons_of_mem _ hi)) hout
    cases credits with
    | nil => simp [subtract, hleft]
    | cons c credits =>
      obtain ⟨seq, key⟩ := c
      by_cases hkey : x.key = key
      · rw [subtract, if_pos hkey, ih credits seq fun c hc => hK c (mem_cons_of_mem _ hc)]
        simp [hkey]
      · simp [subtract, hkey, hleft]
  | @outside x own outside items hmix ih =>
    intro credits consumed hK
    have ih := ih hown fun i hi => hout i (mem_cons_of_mem _ hi)
    cases credits with
    | nil =>
      have h := ih [] consumed hK
      simpa [subtract] using h
    | cons c credits =>
      obtain ⟨seq, key⟩ := c
      have hkey : x.key ≠ key := fun h =>
        hout x mem_cons_self (h ▸ hK (seq, key) mem_cons_self)
      rw [subtract, if_neg hkey]
      simpa using ih ((seq, key) :: credits) consumed hK

/-! ### What a scan finds -/

namespace Reader
variable (R : Reader) {after through : Nat}

/-- What the server itself sent: the messages of this chat within the bounds that no import wrote. -/
def authored (after through : Nat) (events : List Event) : List Credit :=
  events.filterMap fun e =>
    if after < e.seq ∧ e.seq ≤ through ∧ R.belongs e.json = true ∧ imported e.json = false then
      (R.messageKey e.json).map (e.seq, ·)
    else none

end Reader

/-- The events a scan comes to: up to the first behind its boundary. -/
def reached (through : Nat) : List Event → List Event
  | [] => []
  | e :: events => if through < e.seq then [e] else e :: reached through events

/-- The scan gets to its boundary, over no line that is too long for it. -/
structure Readable (through : Nat) (events : List Event) : Prop where
  fits : ∀ e ∈ reached through events, e.line.length ≤ maxLocalTranscriptLineBytes
  reaches : ∃ e ∈ events, through ≤ e.seq

section Scan
variable {R : Reader} {after through : Nat} {e : Event} {events : List Event} {s : Scan}

lemma scanRows_event (he : e.line.length ≤ maxLocalTranscriptLineBytes) (hseq : s.lastSeq < e.seq)
    (rows : List (List Char)) :
    R.scanRows after through false false ((e.line ++ ['\n']) :: rows) s =
      if e.seq ≤ after then R.scanRows after through false false rows { s with lastSeq := e.seq }
      else if through < e.seq then .ok { s with lastSeq := e.seq }
      else R.scanRows after through false false rows
        (R.note false false { s with lastSeq := e.seq } e.seq e.json) := by
  have hraw : (e.line ++ ['\n']).take (maxLocalTranscriptLineBytes + 1) = e.line ++ ['\n'] :=
    take_of_length_le (by simpa using he)
  have hdurable : durableEventSeq (.object e.fields) = some e.seq := e.durable
  rw [Reader.scanRows]
  simp only [hraw, getLast?_concat, row_not_space, loads_row, Event.json, hdurable,
    Nat.not_le.2 hseq, ne_eq, not_true_eq_false, Bool.false_eq_true, if_false]

lemma scanRows_long (he : maxLocalTranscriptLineBytes < e.line.length) (rows : List (List Char)) :
    ∃ message, R.scanRows after through false false ((e.line ++ ['\n']) :: rows) s = .error message := by
  have hraw : (e.line ++ ['\n']).take (maxLocalTranscriptLineBytes + 1) =
      e.line.take (maxLocalTranscriptLineBytes + 1) := take_append_of_le_length he
  have hlast : (e.line.take (maxLocalTranscriptLineBytes + 1)).getLast? ≠ some '\n' := fun h =>
    feed_not_mem_dumps _ (mem_of_mem_take (mem_of_getLast? h))
  have hlength : maxLocalTranscriptLineBytes < (e.line.take (maxLocalTranscriptLineBytes + 1)).length := by
    rw [length_take]
    omega
  rw [Reader.scanRows]
  simp only [hraw, if_pos hlast, if_pos hlength]
  exact ⟨_, rfl⟩

lemma note_lastSeq (seq : Nat) (event : Json) : (R.note false false s seq event).lastSeq = s.lastSeq := by
  rw [Reader.note]
  split
  · split
    · rfl
    · split
      · rfl
      · split <;> rfl
  · rfl

/-- The credit of an event within the bounds is selected while there is room. -/
lemma note_authored (hafter : after < e.seq) (hthrough : e.seq ≤ through)
    (hroom : s.selected.length + (R.authored after through [e]).length ≤ R.maximum) :
    (R.note false false s e.seq e.json).selected = s.selected ++ R.authored after through [e] ∧
      (R.note false false s e.seq e.json).truncated = s.truncated := by
  rw [Reader.authored] at hroom ⊢
  rw [Reader.note]
  cases hb : R.belongs e.json with
  | false => simp [hb]
  | true =>
    cases hk : R.messageKey e.json with
    | none => simp [hk]
    | some key =>
      cases hi : imported e.json with
      | true => simp [hi]
      | false =>
        have hfree : ¬R.maximum ≤ s.selected.length := by
          simp [hafter, hthrough, hb, hi, hk] at hroom
          omega
        simp [hafter, hthrough, hb, hi, hk, hfree]

/-- STEP: past the line of an event that is not behind the boundary, its credit is selected. -/
theorem scanRows_step (he : e.line.length ≤ maxLocalTranscriptLineBytes) (hseq : s.lastSeq < e.seq)
    (hthrough : e.seq ≤ through)
    (hroom : s.selected.length + (R.authored after through [e]).length ≤ R.maximum)
    (rows : List (List Char)) :
    ∃ t : Scan, R.scanRows after through false false ((e.line ++ ['\n']) :: rows) s =
        R.scanRows after through false false rows t ∧ t.lastSeq = e.seq ∧
      t.selected = s.selected ++ R.authored after through [e] ∧ t.truncated = s.truncated := by
  rw [scanRows_event he hseq]
  by_cases hafter : e.seq ≤ after
  · rw [if_pos hafter]
    exact ⟨_, rfl, rfl, by simp [Reader.authored, Nat.not_lt.2 hafter], rfl⟩
  · rw [if_neg hafter, if_neg (Nat.not_lt.2 hthrough)]
    exact ⟨_, rfl, note_lastSeq _ _,
      note_authored (Nat.not_le.1 hafter) hthrough hroom⟩

lemma authored_behind (h : ∀ e ∈ events, through < e.seq) : R.authored after through events = [] := by
  refine filterMap_eq_nil_iff.2 fun e he => if_neg ?_
  rintro ⟨-, hle, -⟩
  exact absurd hle (Nat.not_le.2 (h e he))

/-- RUN: a scan selects what the server sent and knows how far it came, or fails at a line it comes to
    that does not fit. -/
theorem scanRows_events (hle : after ≤ through) (hinc : events.Pairwise fun a b => a.seq < b.seq) :
    ∀ s : Scan, (∀ e ∈ events, s.lastSeq < e.seq) →
      s.selected.length + (R.authored after through events).length ≤ R.maximum →
      (∃ t, R.scanRows after through false false (events.map fun e => e.line ++ ['\n']) s = .ok t ∧
        (∀ e ∈ reached through events, e.line.length ≤ maxLocalTranscriptLineBytes) ∧
        t.selected = s.selected ++ R.authored after through events ∧ t.truncated = s.truncated ∧
        (through ≤ t.lastSeq ↔ through ≤ s.lastSeq ∨ ∃ e ∈ events, through ≤ e.seq)) ∨
      (∃ message, R.scanRows after through false false (events.map fun e => e.line ++ ['\n']) s =
        .error message) ∧ ∃ e ∈ reached through events, maxLocalTranscriptLineBytes < e.line.length := by
  induction events with
  | nil =>
    intro s _ _
    exact .inl ⟨s, rfl, by simp [reached], by simp [Reader.authored], rfl, by simp⟩
  | cons e events ih =>
    intro s hlast hroom
    obtain ⟨hfirst, hinc⟩ := pairwise_cons.1 hinc
    have he := hlast e mem_cons_self
    rw [map_cons, reached]
    by_cases hfit : maxLocalTranscriptLineBytes < e.line.length
    · exact .inr ⟨scanRows_long hfit _, e, by split <;> exact mem_cons_self, hfit⟩
    rw [Nat.not_lt] at hfit
    -- how far the scan has come once it has read `e`
    have hcome : (through ≤ e.seq ∨ ∃ d ∈ events, through ≤ d.seq) ↔
        (through ≤ s.lastSeq ∨ ∃ d ∈ e :: events, through ≤ d.seq) := by
      simp only [mem_cons, exists_eq_or_imp]
      exact ⟨.inr, Or.rec (fun h => .inl (h.trans he.le)) id⟩
    by_cases hthrough : through < e.seq
    · rw [if_pos hthrough, scanRows_event hfit he, if_neg (by omega), if_pos hthrough]
      refine .inl ⟨_, rfl, by simpa using hfit, ?_, rfl,
        iff_of_true hthrough.le (hcome.1 (.inl hthrough.le))⟩
      rw [authored_behind, append_nil]
      exact forall_mem_cons.2 ⟨hthrough, fun d hd => hthrough.trans (hfirst d hd)⟩
    · have hsplit : R.authored after through (e :: events) =
          R.authored after through [e] ++ R.authored after through events :=
        filterMap_append (l := [e])
      rw [hsplit, length_append, ← Nat.add_assoc] at hroom
      obtain ⟨s1, hstep, hseq, hsel1, htr1⟩ := scanRows_step hfit he (Nat.not_lt.1 hthrough)
        ((Nat.le_add_right _ _).trans hroom) (events.map fun e => e.line ++ ['\n'])
      rw [if_neg hthrough, hstep, hsplit]
      rcases ih hinc s1 (by rwa [hseq]) (by rwa [hsel1, length_append]) with
        ⟨t, ht, hfits, hsel, htr, hreach⟩ | ⟨herror, d, hd, hlong⟩
      · rw [hseq] at hreach
        exact .inl ⟨t, ht, forall_mem_cons.2 ⟨hfit, hfits⟩,
          by rw [hsel, hsel1, append_assoc], htr.trans htr1, hreach.trans hcome⟩
      · exact .inr ⟨herror, d, mem_cons_of_mem _ hd, hlong⟩

/-- The credits of a timeline that can be read; one that cannot is refused. -/
lemma timelineMessageKeys_cases (hinc : events.Pairwise fun a b => a.seq < b.seq)
    (hlt : after < through) (hroom : (R.authored after through events).length ≤ R.maximum) :
    (Readable through events ∧ ∃ has, historyTimelineMessageKeys R (some (fileOf events)) after through
      false false = .ok (R.authored after through events, has, false)) ∨
    (¬Readable through events ∧ ∃ message, historyTimelineMessageKeys R (some (fileOf events)) after
      through false false = .error message) := by
  rw [historyTimelineMessageKeys, max_eq_right hlt.le, if_neg hlt.ne', rows_fileOf]
  rcases scanRows_events hlt.le hinc ⟨0, [], false, false⟩ (fun e _ => e.seq_pos)
    (by simpa using hroom) with ⟨t, ht, hfits, hsel, htr, hreach⟩ | ⟨⟨message, h⟩, d, hd, hlong⟩
  · rw [or_iff_right (Nat.not_le.2 (Nat.zero_lt_of_lt hlt))] at hreach
    by_cases hlast : t.lastSeq < through
    · simp only [ht, ok_bind, if_pos hlast]
      exact .inr ⟨fun hread => Nat.not_le.2 hlast (hreach.2 hread.reaches), _, rfl⟩
    · simp only [ht, ok_bind, if_neg hlast, hsel, htr]
      exact .inl ⟨⟨hfits, hreach.1 (Nat.not_lt.1 hlast)⟩, _, rfl⟩
  · simp only [h]
    exact .inr ⟨fun hread => Nat.not_le.2 hlong (hread.fits d hd), message, rfl⟩

end Scan

/-- What is fresh is what subtraction leaves over. -/
lemma reconcile_fresh {R : Reader} {file : Option (List Char)} {after through : Nat}
    (items : List Item) {messages : List Credit} {has truncated : Bool}
    (h : historyTimelineMessageKeys R file after (max after through) false false =
      .ok (messages, has, truncated)) :
    ∃ seq, reconcileCursorHistoryItems R file items after through =
      .ok ((subtract messages after items).1, seq) := by
  rw [reconcileCursorHistoryItems, h, ok_bind]
  dsimp only
  split
  · exact ⟨_, rfl⟩
  · exact ⟨_, rfl⟩
  · exact ⟨_, rfl⟩

/-- RECONCILED: exactly the outside messages are fresh if and only if the timeline can be read to its
    boundary and our messages that show up are the first credits, without a gap. -/
theorem reconcile_fresh_iff (R : Reader) {after through : Nat} {events : List Event}
    {own outside items : List Item} (hinc : events.Pairwise fun a b => a.seq < b.seq)
    (hroom : (R.authored after through events).length ≤ R.maximum) (hmix : Interleave own outside items)
    (hown : (own.map Item.key).Sublist ((R.authored after through events).map Prod.snd))
    (hout : ∀ i ∈ outside, i.key ∉ (R.authored after through events).map Prod.snd) :
    (∃ seq, reconcileCursorHistoryItems R (some (fileOf events)) items after through = .ok (outside, seq)) ↔
      (after < through → Readable through events) ∧
        own.map Item.key <+: (R.authored after through events).map Prod.snd := by
  have hsub := subtract_fresh_iff hmix
    (fun i hi => hown.subset (mem_map_of_mem hi)) hout (R.authored after through events) after
    fun c hc => mem_map_of_mem hc
  -- once the credits are known, subtraction decides
  have hknown : ∀ has, historyTimelineMessageKeys R (some (fileOf events)) after (max after through) false
      false = .ok (R.authored after through events, has, false) →
      ((∃ seq, reconcileCursorHistoryItems R (some (fileOf events)) items after through =
        .ok (outside, seq)) ↔ own.map Item.key <+: (R.authored after through events).map Prod.snd) := by
    intro has h
    obtain ⟨seq, hseq⟩ := reconcile_fresh items h
    rw [hseq, ← hsub]
    exact ⟨fun ⟨_, h⟩ => congrArg Prod.fst (Except.ok.inj h), fun h => ⟨seq, by rw [h]⟩⟩
  by_cases hlt : after < through
  · rcases timelineMessageKeys_cases hinc hlt hroom with ⟨hread, has, h⟩ | ⟨hread, message, h⟩
    · rw [hknown has (by rwa [max_eq_right hlt.le])]
      exact ⟨fun hkeys => ⟨fun _ => hread, hkeys⟩, And.right⟩
    · refine iff_of_false ?_ fun hboth => hread (hboth.1 hlt)
      rintro ⟨seq, hseq⟩
      rw [reconcileCursorHistoryItems, max_eq_right hlt.le, h] at hseq
      cases hseq
  · -- there is nothing between the cursor and the boundary
    have hnone : R.authored after through events = [] :=
      filterMap_eq_nil_iff.2 fun e _ => if_neg (by omega)
    rw [hknown false]
    · exact ⟨fun hkeys => ⟨fun h => absurd h hlt, hkeys⟩, And.right⟩
    · have hmax : max after through = after := max_eq_left (Nat.not_lt.1 hlt)
      rw [historyTimelineMessageKeys, hmax, max_self, if_pos rfl, hnone]

/-! ### A turn that never reached the provider -/

/-- A reader with the limit the server starts with. -/
def sampleReader : Reader := ⟨fun _ => [], fun _ => true, 20000⟩

def promptEvent (seq : Nat) (prompt : String) : List (Text × Json) :=
  [(text "seq", .number (.ofNat seq)), (text "type", .string (text "turn_started")),
    (text "prompt", .string (text prompt))]

/-- Two turns were started; the first failed before the provider had it. -/
def twoTurns : List Event := [⟨promptEvent 1 "a", 1, by decide⟩, ⟨promptEvent 2 "b", 2, by decide⟩]

def said (s : String) : Item := ⟨text "user", text s⟩

/-- The second turn shows up in the transcript, alone, and is imported a second time. -/
theorem unsent_turn_reimports_next :
    twoTurns.Pairwise (fun a b => a.seq < b.seq) ∧
      (sampleReader.authored 0 2 twoTurns).length ≤ sampleReader.maximum ∧
      Interleave [said "b"] [] [said "b"] ∧
      ([said "b"].map Item.key).Sublist ((sampleReader.authored 0 2 twoTurns).map Prod.snd) ∧
      Readable 2 twoTurns ∧
      reconcileCursorHistoryItems sampleReader (some (fileOf twoTurns)) [said "b"] 0 2 =
        .ok ([said "b"], 0) := by
  refine ⟨by decide, by decide, .own .nil, ?_, ⟨?_, ?_⟩, ?_⟩
  · decide +kernel
  · decide +kernel
  · decide
  · rfl

/-- With the first turn in the transcript, only what was said outside is fresh. -/
theorem reconcile_fresh_iff_two_turns :
    ∃ seq, reconcileCursorHistoryItems sampleReader (some (fileOf twoTurns)) [said "a", said "x", said "b"]
      0 2 = .ok ([said "x"], seq) :=
  (reconcile_fresh_iff sampleReader (by decide) (by decide)
    (.own (.outside (.own .nil))) (by decide +kernel) (by decide +kernel)).2
    ⟨fun _ => ⟨by decide +kernel, by decide⟩, by decide +kernel⟩

end History
