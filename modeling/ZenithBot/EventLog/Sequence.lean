import ZenithBot.EventLog.Tail
import ZenithBot.Lib.JsonInside

/-! The event log keeps its order through every failure. At any time the file is the lines of the
    events kept so far, possibly with the last of them unended or with a torn line behind them
    (`Shape`); a repair turns each of these into plain lines again and finds the last number
    (`repair_shape`). A writer only ever appends to plain lines, with numbers above all of them
    (`Ready`), and whatever part of its lines reaches the file gives a `Shape` again (`write_shape`).
    The invariant `Ok` is these facts; every operation keeps it (`step_ok`), and so does every run. -/

namespace EventLog
open Json List

variable {l : Log} {events kept : List Event} {file t : List Char} {seq : Nat} (e : Event)

/-! ### Lines -/

lemma Event.line_head : ∃ rest, e.line = '{' :: rest := ⟨_, rfl⟩

lemma Event.line_ne_nil : e.line ≠ [] := by
  obtain ⟨rest, h⟩ := e.line_head
  simp [h]

lemma Event.seq_pos : 0 < e.seq := by
  have h := e.durable
  unfold durableEventSeq at h
  split at h
  · split at h
    · cases h
    · cases h
      omega
  · cases h

lemma feed_not_mem_dumps (v : Json) : '\n' ∉ dumps v := fun h => by
  have hprintable := dumps_printable v '\n' h
  revert hprintable
  decide

lemma ascii_dumps (v : Json) : ∀ c ∈ dumps v, c.toNat < 0x80 := fun c hc =>
  (dumps_printable v c hc).2.trans_lt (by decide)

lemma loads_line : loads e.line = some (.object e.fields) := loads_dumps _

lemma recordSeq_line : recordSeq e.line = some e.seq := by
  have hdecode : Lib.Utf8.decode e.line = some e.line := Lib.Utf8.decode_ascii (ascii_dumps _)
  rw [recordSeq, hdecode, Option.bind_some, loads_line]
  exact e.durable

lemma lineSeq_line : lineSeq e.line = some e.seq := lineSeq_of_record (recordSeq_line e)

@[simp] lemma fileOf_nil : fileOf [] = [] := rfl

lemma fileOf_cons (events : List Event) :
    fileOf (e :: events) = e.line ++ '\n' :: fileOf events := Lines.frame_cons _ _

lemma fileOf_append (es events : List Event) : fileOf (es ++ events) = fileOf es ++ fileOf events := by
  simp [fileOf]

lemma fileOf_concat (es : List Event) (e : Event) :
    fileOf (es ++ [e]) = fileOf es ++ e.line ++ ['\n'] := by
  simp [fileOf_append, fileOf_cons]

lemma feed_not_mem_lines (events : List Event) : ∀ l ∈ events.map Event.line, '\n' ∉ l := by
  intro l hl
  obtain ⟨e, -, rfl⟩ := mem_map.1 hl
  exact feed_not_mem_dumps _

/-- What the reader of a line gets. -/
def Event.json (e : Event) : Json := .object e.fields

lemma loads_row : loads (e.line ++ ['\n']) = some e.json :=
  loads_dumps_blank _ ['\n'] (by decide) (stops_cons [] (by decide))

lemma row_not_space : (e.line ++ ['\n']).all isSpace = false := by
  obtain ⟨rest, h⟩ := e.line_head
  simp [h, isSpace]

lemma rows_fileOf (events : List Event) :
    Lines.rows (fileOf events) = events.map fun e => e.line ++ ['\n'] := by
  rw [fileOf, Lines.rows_frame (feed_not_mem_lines events), map_map]
  rfl

lemma split_fileOf (events : List Event) (ht : '\n' ∉ t) :
    Lines.split (fileOf events ++ t) = events.map Event.line ++ [t] :=
  Lines.split_frame (feed_not_mem_lines events) ht

/-! ### Shapes of the file -/

/-- The file holds the lines of `kept`; the last one may lack its line feed, or a proper beginning of
    one more object may follow. -/
inductive Shape : List Event → List Char → Prop
  | whole (kept : List Event) : Shape kept (fileOf kept)
  | unended (kept : List Event) (e : Event) : Shape (kept ++ [e]) (fileOf kept ++ e.line)
  | torn (kept : List Event) {t rest : List Char} {fields : List (Text × Json)} (ht : t ≠ [])
      (hrest : rest ≠ []) (h : t ++ rest = dumps (.object fields)) : Shape kept (fileOf kept ++ t)

lemma torn_no_feed {rest : List Char} {v : Json} (h : t ++ rest = dumps v) : '\n' ∉ t := fun hmem =>
  feed_not_mem_dumps v (h ▸ mem_append_left _ hmem)

/-- The number of the last event, as the repair reports it. -/
def lastSeq (events : List Event) : Nat := (events.getLast?.map Event.seq).getD 0

lemma forwardSeq_fileOf (events : List Event) : forwardSeq (fileOf events) = lastSeq events := by
  rcases eq_nil_or_concat events with rfl | ⟨es, e, rfl⟩
  · rfl
  · rw [concat_eq_append, fileOf, map_append]
    have hlast := forwardSeq_concat (feed_not_mem_lines es) (feed_not_mem_dumps _) (lineSeq_line e)
    exact hlast.trans (by simp [lastSeq])

/-- REPAIR: whatever shape the file is in, the repair leaves the lines of the kept events and finds the
    number of the last of them. -/
theorem repair_shape (h : Shape kept file) :
    repairEventLogTail file = (fileOf kept, lastSeq kept) := by
  unfold repairEventLogTail
  cases h with
  | whole => rw [← forwardSeq_fileOf, fileOf, repairTail_frame (by decide)]
  | unended kept e =>
    rw [fileOf, repairTail_eq (t := e.line) (by decide) _ (feed_not_mem_dumps _), recordSeq_line]
    simp [fileOf, lastSeq]
  | @torn _ t _ _ ht hrest h =>
    have hascii := fun c hc => ascii_dumps _ c (h ▸ mem_append_left _ hc)
    have hnone : recordSeq t = none := by
      rw [recordSeq, Lib.Utf8.decode_ascii hascii, Option.bind_some, loads_torn h hrest]
      rfl
    rw [← forwardSeq_fileOf, fileOf, repairTail_eq (by decide) _ (torn_no_feed h), hnone]

/-! ### What a write leaves -/

lemma complete_initial : ∀ (bytes : Nat) (events : List Event), complete bytes events <+: events
  | _, [] => by simp [complete]
  | bytes, e :: events => by
    unfold complete
    split
    · exact (prefix_cons_inj e).2 (complete_initial _ events)
    · exact nil_prefix

lemma complete_all : ∀ events : List Event, complete (fileOf events).length events = events
  | [] => rfl
  | e :: events => by
    have hlen : (fileOf (e :: events)).length = e.line.length + 1 + (fileOf events).length := by
      rw [fileOf_cons]
      simp only [length_append, length_cons]
      omega
    rw [complete, if_pos (by omega), hlen, Nat.add_sub_cancel_left, complete_all events]

/-- TORN WRITE: any part of the lines of new events behind plain lines is a shape of the file, for the
    events whose text got there whole. -/
theorem write_shape : ∀ (events kept : List Event) (bytes : Nat),
    Shape (kept ++ complete bytes events) (fileOf kept ++ (fileOf events).take bytes)
  | [], kept, bytes => by
    simpa [complete] using Shape.whole kept
  | e :: events, kept, bytes => by
    rw [fileOf_cons, take_append]
    rcases Nat.lt_trichotomy bytes e.line.length with hlt | heq | hgt
    · rw [complete, if_neg (by omega), Nat.sub_eq_zero_of_le hlt.le, take_zero, append_nil,
        append_nil]
      rcases Nat.eq_zero_or_pos bytes with rfl | hpos
      · simpa using Shape.whole kept
      · have htorn : e.line.take bytes ≠ [] :=
          ne_nil_of_length_pos (by rw [length_take]; omega)
        have hlost : e.line.drop bytes ≠ [] :=
          ne_nil_of_length_pos (by rw [length_drop]; omega)
        exact Shape.torn kept htorn hlost (take_append_drop bytes e.line)
    · rw [complete, if_pos (by omega), heq, Nat.sub_self, take_zero, append_nil,
        take_length, Nat.sub_eq_zero_of_le (Nat.le_succ _)]
      have hnone : complete 0 events = [] := by
        cases events with
        | nil => rfl
        | cons f _ =>
          have := length_pos_iff.2 f.line_ne_nil
          rw [complete, if_neg (by omega)]
      rw [hnone]
      exact Shape.unended kept e
    · have hline : bytes - e.line.length = bytes - (e.line.length + 1) + 1 := by omega
      rw [complete, if_pos (by omega), take_of_length_le hgt.le, hline]
      have ih := write_shape events (kept ++ [e]) (bytes - (e.line.length + 1))
      rw [fileOf_concat] at ih
      simpa using ih

/-! ### The invariant -/

/-- What holds of the file and of the history, whatever the cache says. -/
structure Sound (l : Log) : Prop where
  shape : Shape l.kept l.file
  increasing : (l.kept.map Event.seq).Pairwise (· < ·)
  ledger : l.written.Perm (l.kept ++ l.undone)

/-- A filled cache stands for plain lines, none of them numbered above it. -/
structure Ok (l : Log) : Prop extends Sound l where
  warm : ∀ n, l.cache = some n → l.file = fileOf l.kept ∧ ∀ e ∈ l.kept, e.seq ≤ n

/-- The log as a writer finds it once it has its first number. -/
structure Ready (seq : Nat) (l : Log) : Prop where
  pos : 0 < seq
  plain : l.file = fileOf l.kept
  above : ∀ e ∈ l.kept, e.seq < seq
  sound : Sound l
  cache : l.cache = some seq

lemma Sound.cold (h : Sound l) (hcache : l.cache = none) : Ok l :=
  ⟨h, fun n hn => by rw [hcache] at hn; cases hn⟩

lemma Sound.restart (h : Sound l) (reloaded : Nat) : Ok (l.restart reloaded) :=
  Sound.cold { h with } rfl

lemma empty_ok (stored : Nat) : Ok (Log.empty stored) :=
  Sound.cold ⟨Shape.whole [], List.Pairwise.nil, List.Perm.nil⟩ rfl

lemma Sound.repair (h : Sound l) (fate : Fate) : Sound (l.repair fate) := by
  refine ⟨?_, h.increasing, h.ledger⟩
  unfold Log.repair
  split
  · rw [repair_shape h.shape]
    exact Shape.whole l.kept
  · exact h.shape

lemma le_lastSeq (h : (kept.map Event.seq).Pairwise (· < ·)) :
    ∀ e ∈ kept, e.seq ≤ lastSeq kept := by
  intro e he
  rcases eq_nil_or_concat kept with rfl | ⟨es, last, rfl⟩
  · cases he
  · rw [concat_eq_append] at h he ⊢
    rw [map_append, pairwise_append] at h
    have hlast : lastSeq (es ++ [last]) = last.seq := by simp [lastSeq]
    rw [hlast]
    rcases mem_append.1 he with hes | hlast
    · exact (h.2.2 e.seq (mem_map_of_mem hes) last.seq (by simp)).le
    · rw [mem_singleton.1 hlast]

/-- ALLOCATION: either the call gets no further, or the writer is ready. -/
theorem nextEventSeq_spec (h : Ok l) (fate : Fate) :
    (∃ l', nextEventSeq fate l = (l', none) ∧ Ok l') ∨
      ∃ l' seq, nextEventSeq fate l = (l', some seq) ∧ Ready seq l' := by
  unfold nextEventSeq
  cases hcache : l.cache with
  | some n =>
    obtain ⟨hplain, hle⟩ := h.warm n hcache
    refine .inr ⟨_, n + 1, rfl, n.succ_pos, hplain, ?_, { h with }, rfl⟩
    exact fun e he => Nat.lt_succ_of_le (hle e he)
  | none =>
    have hrepair := h.toSound.repair fate
    cases fate with
    | done =>
      have hplain : (l.repair .done).file = fileOf l.kept := congrArg Prod.fst (repair_shape h.shape)
      have hlast : (repairEventLogTail l.file).2 = lastSeq l.kept := by rw [repair_shape h.shape]
      refine .inr ⟨_, _, rfl, Nat.succ_pos _, hplain, ?_, ?_, rfl⟩
      · intro e he
        rw [hlast]
        exact Nat.lt_succ_of_le ((le_lastSeq h.increasing e he).trans (Nat.le_max_left _ _))
      · exact { hrepair with }
    | failed applied => exact .inl ⟨_, rfl, hrepair.cold hcache⟩
    | crashed applied reloaded => exact .inl ⟨_, rfl, hrepair.restart reloaded⟩

/-- RECONCILIATION: whatever the failed write left, the repair makes the cache safe or leaves it
    cold. -/
theorem reconcile_ok (h : Sound l) (consumed : Nat) (fate : Fate) :
    Ok (reconcileEventSeqAfterFailedWrite consumed fate l) := by
  have hrepair := h.repair fate
  cases fate with
  | done =>
    refine ⟨{ hrepair with }, ?_⟩
    rintro n hn
    obtain rfl := Option.some.inj hn
    refine ⟨congrArg Prod.fst (repair_shape h.shape), fun e he => ?_⟩
    have hle : e.seq ≤ (repairEventLogTail l.file).2 := by
      rw [repair_shape h.shape]
      exact le_lastSeq h.increasing e he
    omega
  | failed applied => exact Sound.cold { hrepair with } rfl
  | crashed applied reloaded => exact hrepair.restart reloaded

/-! ### Writing -/

lemma batchEvents_seq : ∀ (specs : List Spec) (prev : Nat),
    (batchEvents prev specs).map Event.seq = List.range' (prev + 1) specs.length
  | [], _ => rfl
  | spec :: specs, prev => by
    rw [batchEvents, map_cons, batchEvents_seq specs (prev + 1), length_cons]
    rfl

/-- Events to append: numbered upwards from `seq`. -/
structure Numbered (seq : Nat) (events : List Event) : Prop where
  increasing : (events.map Event.seq).Pairwise (· < ·)
  from_seq : ∀ e ∈ events, seq ≤ e.seq

lemma batchEvents_numbered (hseq : 0 < seq) (specs : List Spec) :
    Numbered seq (batchEvents (seq - 1) specs) := by
  have hmap := batchEvents_seq specs (seq - 1)
  rw [Nat.sub_add_cancel hseq] at hmap
  refine ⟨by rw [hmap]; exact pairwise_lt_range', fun e he => ?_⟩
  have hmem : e.seq ∈ List.range' seq specs.length := hmap ▸ mem_map_of_mem he
  exact (mem_range'_1.1 hmem).1

/-- WRITE: any part of the new lines keeps the file and the history sound. -/
theorem Ready.write (h : Ready seq l) (hnum : Numbered seq events) (bytes : Nat) :
    Sound (l.write events bytes) := by
  have hinitial := complete_initial bytes events
  refine ⟨?_, ?_, ?_⟩
  · have hshape := write_shape events l.kept bytes
    rw [← h.plain] at hshape
    exact hshape
  · show ((l.kept ++ complete bytes events).map Event.seq).Pairwise (· < ·)
    rw [map_append, pairwise_append]
    refine ⟨h.sound.increasing, hnum.increasing.sublist (hinitial.sublist.map _), ?_⟩
    intro m hm n hn
    obtain ⟨e, he, rfl⟩ := mem_map.1 hm
    obtain ⟨f, hf, rfl⟩ := mem_map.1 hn
    exact (h.above e he).trans_le (hnum.from_seq f (hinitial.subset hf))
  · show (l.written ++ complete bytes events).Perm (l.kept ++ complete bytes events ++ l.undone)
    refine (h.sound.ledger.append_right _).trans ?_
    rw [append_assoc, append_assoc]
    exact perm_append_comm.append_left _

lemma writeAll_kept (l : Log) (events : List Event) : (l.writeAll events).kept = l.kept ++ events := by
  rw [Log.writeAll, Log.write, complete_all]

lemma writeAll_file (h : l.file = fileOf l.kept) (events : List Event) :
    (l.writeAll events).file = fileOf (l.writeAll events).kept := by
  rw [writeAll_kept, fileOf_append, ← h]
  exact congrArg _ (take_length)

/-- A complete write leaves plain lines; the cache may be any number that is not below them. -/
lemma Ready.writeAll (h : Ready seq l) (hnum : Numbered seq events) {last : Nat}
    (hseq : seq ≤ last + 1) (hlast : ∀ e ∈ events, e.seq ≤ last) (stored : Nat) :
    Ok { l.writeAll events with cache := some last, stored := stored } := by
  have hsound := h.write hnum (fileOf events).length
  refine ⟨{ hsound with }, ?_⟩
  rintro n hn
  obtain rfl := Option.some.inj hn
  refine ⟨writeAll_file h.plain events, fun e he => ?_⟩
  have hmem : e ∈ l.kept ++ events := writeAll_kept l events ▸ he
  rcases mem_append.1 hmem with hold | hnew
  · have := h.above e hold
    omega
  · exact hlast e hnew

/-- ROLLBACK: truncating to the size before the write leaves the log as it was, with the events that
    were complete entered as undone. -/
theorem Ready.truncateTo (h : Ready seq l) (hnum : Numbered seq events) (bytes : Nat) :
    Sound ((l.write events bytes).truncateTo l) := by
  have hsound := h.write hnum bytes
  have hfile : ((l.write events bytes).truncateTo l).file = l.file := take_left
  have hkept : ((l.write events bytes).truncateTo l).kept = l.kept := take_left
  refine ⟨?_, ?_, ?_⟩
  · rw [hfile, hkept]
    exact h.sound.shape
  · rw [hkept]
    exact h.sound.increasing
  · have hundone : ((l.write events bytes).truncateTo l).undone = l.undone ++ complete bytes events :=
      congrArg _ drop_left
    rw [hkept, hundone]
    refine hsound.ledger.trans ?_
    show (l.kept ++ complete bytes events ++ l.undone).Perm _
    rw [append_assoc]
    exact perm_append_comm.append_left _

/-! ### Steps and runs -/

lemma Ok.withStored (h : Ok l) (stored : Nat) : Ok { l with stored := stored } :=
  ⟨{ h with }, h.warm⟩

lemma event_numbered (hseq : 0 < seq) (spec : Spec) :
    Numbered seq [spec.event (seq - 1)] := batchEvents_numbered hseq [spec]

lemma appendEvent_ok (h : Ok l) (spec : Spec) (allocation : Fate) (write : WriteFate)
    (reconcile : Fate) (metadata : Bool) :
    Ok (appendEvent spec allocation write reconcile metadata l) := by
  unfold appendEvent
  rcases nextEventSeq_spec h allocation with ⟨l', hnext, hok⟩ | ⟨l', seq, hnext, hready⟩
  · rw [hnext]
    exact hok
  · rw [hnext]
    have hnum := event_numbered hready.pos spec
    cases write with
    | done =>
      -- the cache still holds the number of the one event
      have hlast : ∀ e ∈ [spec.event (seq - 1)], e.seq ≤ seq := fun e he => by
        rw [mem_singleton.1 he]
        exact (Nat.sub_add_cancel hready.pos).le
      have hok : ∀ stored, Ok { l'.writeAll [spec.event (seq - 1)] with stored := stored } := by
        intro stored
        have hall := hready.writeAll hnum (Nat.le_succ seq) hlast stored
        rw [← hready.cache] at hall
        exact hall
      dsimp only
      split
      · exact hok _
      · exact hok l'.stored
    | failed bytes => exact reconcile_ok (hready.write hnum bytes) seq reconcile
    | crashed bytes reloaded => exact (hready.write hnum bytes).restart reloaded

lemma appendBatch_ok (h : Ok l) (specs : List Spec) (fates : BatchFates) :
    Ok (appendBatch specs fates l).1 := by
  unfold appendBatch
  split
  · exact h
  rcases nextEventSeq_spec h fates.allocation with ⟨l', hnext, hok⟩ | ⟨l', seq, hnext, hready⟩
  · rw [hnext]
    exact hok
  · rw [hnext]
    have hnum := batchEvents_numbered hready.pos specs
    cases fates.write with
    | done =>
      refine hready.writeAll hnum ?_ ?_ l'.stored
      · omega
      · intro e he
        have hmem : e.seq ∈ List.range' (seq - 1 + 1) specs.length :=
          batchEvents_seq specs (seq - 1) ▸ mem_map_of_mem he
        have := (mem_range'_1.1 hmem).2
        omega
    | failed bytes =>
      -- the rollback took effect or it did not; either way the reconciliation starts from a sound log
      have hundone : Sound (if fates.rollback.applied then
          (l'.write (batchEvents (seq - 1) specs) bytes).truncateTo l'
          else l'.write (batchEvents (seq - 1) specs) bytes) := by
        split
        · exact hready.truncateTo hnum bytes
        · exact hready.write hnum bytes
      cases hroll : fates.rollback with
      | crashed applied reloaded =>
        rw [hroll] at hundone
        exact hundone.restart reloaded
      | done | failed applied =>
        rw [hroll] at hundone
        exact reconcile_ok hundone (seq - 1) fates.reconcile
    | crashed bytes reloaded => exact (hready.write hnum bytes).restart reloaded

/-- STEP: every operation keeps the invariant, whatever fails in it. -/
theorem step_ok (l : Log) (op : Op) (h : Ok l) : Ok (step l op) := by
  cases op with
  | appendEvent spec allocation write reconcile metadata =>
    exact appendEvent_ok h spec allocation write reconcile metadata
  | appendImportedEvents specs fates => exact appendBatch_ok h specs fates
  | appendDurableEventBatch specs fates metadata => exact (appendBatch_ok h specs fates).withStored _
  | restart reloaded => exact h.toSound.restart reloaded

lemma run_ok (stored : Nat) (ops : List Op) : Ok (Lib.run step (Log.empty stored) ops) :=
  Lib.run_inv step_ok ops _ (empty_ok stored)

/-! ### Consumed numbers -/

/-- Since `l0`, nothing was written with a number up to `seq`, and a warm cache will not give one. -/
structure Consumed (seq : Nat) (l0 l : Log) : Prop where
  warm : ∀ n, l.cache = some n → seq ≤ n
  fresh : ∃ new, l.written = l0.written ++ new ∧ ∀ e ∈ new, seq < e.seq

section Consumed
variable {l0 : Log} {first : Nat}

lemma Consumed.write (h : Consumed seq l0 l) (hnum : Numbered first events) (hfirst : seq < first)
    (bytes : Nat) : Consumed seq l0 (l.write events bytes) := by
  obtain ⟨new, hwritten, hnew⟩ := h.fresh
  refine ⟨h.warm, new ++ complete bytes events, ?_, fun e he => ?_⟩
  · rw [← append_assoc, ← hwritten]
    rfl
  · rcases mem_append.1 he with he | he
    · exact hnew e he
    · exact hfirst.trans_le (hnum.from_seq e ((complete_initial bytes events).subset he))

lemma Consumed.reconcile (h : Consumed seq l0 l) {consumed : Nat} (hle : seq ≤ consumed)
    (fate : Fate) : Consumed seq l0 (reconcileEventSeqAfterFailedWrite consumed fate l) := by
  cases fate with
  | done =>
    refine ⟨?_, h.fresh⟩
    rintro n ⟨⟩
    omega
  | failed | crashed => exact ⟨nofun, h.fresh⟩

/-- A number from a warm cache is above the consumed ones. -/
lemma Consumed.next (h : Consumed seq l0 l) (hwarm : l.cache.isSome = true) (fate : Fate) :
    ∃ n, nextEventSeq fate l = ({ l with cache := some (n + 1) }, some (n + 1)) ∧ seq ≤ n ∧
      Consumed seq l0 { l with cache := some (n + 1) } := by
  obtain ⟨n, hn⟩ := Option.isSome_iff_exists.1 hwarm
  have hle := h.warm n hn
  refine ⟨n, by unfold nextEventSeq; rw [hn], hle, ?_, h.fresh⟩
  rintro m ⟨⟩
  omega

lemma Consumed.appendBatch (h : Consumed seq l0 l) (hwarm : l.cache.isSome = true)
    (specs : List Spec) (fates : BatchFates) :
    Consumed seq l0 (appendBatch specs fates l).1 := by
  unfold EventLog.appendBatch
  split
  · exact h
  obtain ⟨n, hnext, hle, hready⟩ := h.next hwarm fates.allocation
  rw [hnext]
  have hwrite := hready.write (batchEvents_numbered n.succ_pos specs) (Nat.lt_succ_of_le hle)
  cases fates.write with
  | done =>
    refine ⟨?_, (hwrite _).fresh⟩
    rintro m ⟨⟩
    omega
  | failed bytes =>
    have hundone : Consumed seq l0 (if fates.rollback.applied then
        (Log.write { l with cache := some (n + 1) } (batchEvents n specs) bytes).truncateTo
          { l with cache := some (n + 1) }
        else Log.write { l with cache := some (n + 1) } (batchEvents n specs) bytes) := by
      split
      · exact ⟨hready.warm, (hwrite bytes).fresh⟩
      · exact hwrite bytes
    cases hroll : fates.rollback with
    | crashed => rw [hroll] at hundone; exact ⟨nofun, hundone.fresh⟩
    | done | failed => rw [hroll] at hundone; exact hundone.reconcile hle fates.reconcile
  | crashed bytes => exact ⟨nofun, (hwrite bytes).fresh⟩

/-- STEP: an operation on a warm cache takes no consumed number. -/
theorem Consumed.step (h : Consumed seq l0 l) (hwarm : l.cache.isSome = true) (op : Op) :
    Consumed seq l0 (step l op) := by
  cases op with
  | appendEvent spec allocation write reconcile metadata =>
    obtain ⟨n, hnext, hle, hready⟩ := h.next hwarm allocation
    rw [EventLog.step, appendEvent, hnext]
    have hwrite := hready.write (event_numbered n.succ_pos spec) (Nat.lt_succ_of_le hle)
    cases write with
    | done =>
      dsimp only
      split
      · exact ⟨hready.warm, (hwrite _).fresh⟩
      · exact hwrite _
    | failed bytes => exact (hwrite bytes).reconcile (Nat.le_succ_of_le hle) reconcile
    | crashed bytes => exact ⟨nofun, (hwrite bytes).fresh⟩
  | appendImportedEvents specs fates => exact h.appendBatch hwarm specs fates
  | appendDurableEventBatch specs fates =>
    have hbatch := h.appendBatch hwarm specs fates
    exact ⟨hbatch.warm, hbatch.fresh⟩
  | restart => exact ⟨nofun, h.fresh⟩

/-- The reconciliation after a failed `append_event` keeps its number as the high-water mark. -/
lemma failed_consumed {allocation : Fate} (h : (nextEventSeq allocation l).2 = some seq)
    (spec : Spec) (bytes : Nat) (metadata : Bool) :
    let failed := step l (.appendEvent spec allocation (.failed bytes) .done metadata)
    failed.cache.isSome = true ∧ Consumed seq failed failed := by
  obtain ⟨l', hnext⟩ : ∃ l', nextEventSeq allocation l = (l', some seq) := ⟨_, Prod.ext rfl h⟩
  rw [step, appendEvent, hnext]
  refine ⟨rfl, ?_, [], (append_nil _).symm, nofun⟩
  rintro n ⟨⟩
  omega

end Consumed

/-! ### What a reader of the file finds -/

/-- The event on a line, if it holds one. -/
def readEvent (raw : List Char) : Option Json :=
  (loads raw).filter fun event => (durableEventSeq event).isSome

/-- The numbers of the events whose line is ended, in the order of the file. -/
def endedSeqs (file : List Char) : List Nat := (Lines.split file).dropLast.filterMap lineSeq

/-- Every event in the file, the last one with or without its line feed. -/
def readEvents (file : List Char) : List Json := (Lines.split file).filterMap readEvent

lemma filterMap_lineSeq (events : List Event) :
    (events.map Event.line).filterMap lineSeq = events.map Event.seq := by
  induction events with
  | nil => rfl
  | cons e events ih => rw [map_cons, filterMap_cons_some (lineSeq_line e), ih, map_cons]

lemma readEvent_line : readEvent e.line = some (.object e.fields) := by
  rw [readEvent, loads_line]
  simp [e.durable]

lemma filterMap_readEvent (events : List Event) :
    (events.map Event.line).filterMap readEvent = events.map fun e => Json.object e.fields := by
  induction events with
  | nil => rfl
  | cons e events ih =>
    rw [map_cons, filterMap_cons_some (readEvent_line e), ih, map_cons]

lemma Shape.lines (h : Shape kept file) :
    (∃ t, readEvent t = none ∧ Lines.split file = kept.map Event.line ++ [t]) ∨
      ∃ front last, kept = front ++ [last] ∧ Lines.split file = front.map Event.line ++ [last.line] := by
  cases h with
  | whole =>
    have hsplit := split_fileOf kept (not_mem_nil)
    rw [append_nil] at hsplit
    exact .inl ⟨[], rfl, hsplit⟩
  | unended front e => exact .inr ⟨front, e, rfl, split_fileOf front (feed_not_mem_dumps _)⟩
  | torn _ ht hrest h =>
    refine .inl ⟨_, ?_, split_fileOf kept (torn_no_feed h)⟩
    rw [readEvent, loads_torn h hrest]
    rfl

lemma Shape.endedSeqs (h : Shape kept file) : endedSeqs file <+: kept.map Event.seq := by
  unfold EventLog.endedSeqs
  rcases h.lines with ⟨t, -, hsplit⟩ | ⟨front, last, rfl, hsplit⟩
  · refine ⟨[], ?_⟩
    rw [hsplit, dropLast_concat, filterMap_lineSeq, append_nil]
  · rw [hsplit, dropLast_concat, filterMap_lineSeq, map_append]
    exact prefix_append _ _

lemma Shape.readEvents (h : Shape kept file) :
    readEvents file = kept.map fun e => Json.object e.fields := by
  unfold EventLog.readEvents
  rcases h.lines with ⟨t, ht, hsplit⟩ | ⟨front, last, rfl, hsplit⟩
  · rw [hsplit, filterMap_append, filterMap_readEvent]
    simp [ht]
  · rw [hsplit, filterMap_append]
    simp [readEvent_line]

/-- What the log promises. `kept` are the events that were completely written, up to those that a
    rollback took out again. -/
structure Sequenced (l : Log) : Prop where
  increasing : (endedSeqs l.file).Pairwise (· < ·)
  unique : (l.kept.map Event.seq).Nodup
  retained : readEvents l.file = l.kept.map fun e => Json.object e.fields
  ledger : l.written.Perm (l.kept ++ l.undone)
  /-- The number of a failed `append_event` whose reconciliation went through is not given again while
      the cache keeps its entry. -/
  consumed : ∀ spec allocation bytes metadata seq later, (nextEventSeq allocation l).2 = some seq →
    let failed := step l (.appendEvent spec allocation (.failed bytes) .done metadata)
    Lib.Along step (fun l op => (step l op).cache.isSome = true) failed later →
      ∃ new, (Lib.run step failed later).written = failed.written ++ new ∧ ∀ e ∈ new, seq < e.seq

/-- SEQUENCING: after every run, with every write, rollback and repair ending in any way and the process
    dying at any point, the numbers in the file go up, no two events completely written and not rolled back
    have one number, and exactly these are read back from the file, each for itself. -/
theorem log_sequenced (stored : Nat) (ops : List Op) :
    Sequenced (Lib.run step (Log.empty stored) ops) := by
  have hok := run_ok stored ops
  refine ⟨?_, ?_, hok.shape.readEvents, hok.ledger, ?_⟩
  · exact hok.increasing.sublist hok.shape.endedSeqs.sublist
  · exact hok.increasing.imp Nat.ne_of_lt
  · intro spec allocation bytes metadata seq later hseq failed hlater
    have hrun := Lib.run_inv_along
      (P := fun l => l.cache.isSome = true ∧ Consumed seq failed l)
      (fun l op hwarm h => ⟨hwarm, h.2.step h.1 op⟩) later failed hlater
      (failed_consumed hseq spec bytes metadata)
    exact hrun.2.fresh

/-- RECOVERY: after every run, however its writers failed, a repair leaves the lines of the kept events
    and returns the largest of their numbers. -/
theorem repair_recovers (stored : Nat) (ops : List Op) :
    let l := Lib.run step (Log.empty stored) ops
    repairEventLogTail l.file = (fileOf l.kept, lastSeq l.kept) ∧ ∀ e ∈ l.kept, e.seq ≤ lastSeq l.kept := by
  have hok := run_ok stored ops
  exact ⟨repair_shape hok.shape, le_lastSeq hok.increasing⟩

namespace Sample

def spec (id : String) : Spec :=
  ⟨text id, text "sess", text "note", text "2026-01-01", ⟨[], fun _ h => by cases h⟩⟩

/-- A batch whose bytes all reach the file, whose `fsync` fails and whose rollback works. -/
def undoneBatch : Op := .appendDurableEventBatch [spec "evt_1"] ⟨.done, .failed 1000, .done, .done⟩ []

def nextEvent : Op := .appendEvent (spec "evt_2") .done .done .done true

/-- The first write, of which nothing reaches the file. -/
def failed : Log := step (.empty 0) (.appendEvent (spec "evt_1") .done (.failed 0) .done true)

end Sample

/-- The number of a write that failed is passed over. -/
theorem log_sequenced_failed :
    (Lib.run step Sample.failed [Sample.nextEvent]).written.map Event.seq = [2] ∧
      ∃ new, (Lib.run step Sample.failed [Sample.nextEvent]).written = Sample.failed.written ++ new ∧
        ∀ e ∈ new, 1 < e.seq :=
  ⟨by decide +kernel, (log_sequenced 0 []).consumed (Sample.spec "evt_1") .done 0 true 1
    [Sample.nextEvent] (by decide +kernel) ⟨by decide +kernel, trivial⟩⟩

/-- The number of an event that a rollback took out is given to the next one. -/
theorem undone_number_reused : ¬ ∀ (stored : Nat) (ops : List Op),
    ((Lib.run step (Log.empty stored) ops).written.map Event.seq).Nodup := by
  intro h
  have hrun := h 0 [Sample.undoneBatch, Sample.nextEvent]
  revert hrun
  decide +kernel

end EventLog
