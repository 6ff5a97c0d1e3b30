import ZenithBot.EventLog.Log

/-! The end of a log, whatever bytes it holds. The log is read from its end in pieces of a fixed size,
    which cut lines and characters anywhere; `forwardSeq` reads it line by line from its start, and
    finds the same last number. A repair looks at the bytes behind the last line feed only:

      line ⏎ … line ⏎ tail   ─▶   line ⏎ … line ⏎ tail ⏎    the tail is a complete event
                             └─▶   line ⏎ … line ⏎           it is not -/

namespace EventLog
open Json List

variable {chunk : Nat} {t : List Char}

/-! ### Reading -/

/-- The last durable number, as a reader of the lines in their order finds it. -/
def forwardSeq (file : List Char) : Nat :=
  (Lines.split file).foldl (fun last raw => (lineSeq raw).getD last) 0

lemma foldl_last {α β : Type} (f : α → Option β) (b : β) (l : List α) :
    l.foldl (fun last a => (f a).getD last) b = (l.reverse.findSome? f).getD b := by
  induction l generalizing b with
  | nil => rfl
  | cons a l ih =>
    rw [foldl_cons, ih, reverse_cons, findSome?_append, findSome?_singleton]
    cases l.reverse.findSome? f <;> rfl

/-- SCAN: the pieces do not matter. -/
theorem lastEventSeqFrom_eq (hchunk : 0 < chunk) (file : List Char) :
    lastEventSeqFrom chunk file = forwardSeq file := by
  rw [forwardSeq, foldl_last, lastEventSeqFrom]
  rcases Nat.eq_zero_or_pos file.length with hnil | hpos
  · rw [length_eq_zero_iff.1 hnil]
    rfl
  · rw [Lines.scanBack_eq _ hchunk _ _ _ _ hpos le_rfl, take_length, append_nil]

lemma loads_space (h : t.all isSpace = true) : loads t = none := by
  have hskip : (skipBlanks t).all isSpace = true :=
    all_eq_true.2 fun c hc => all_eq_true.1 h c ((dropWhile_sublist _).subset hc)
  cases hs : skipBlanks t with
  | nil => simp [loads, hs, readValue]
  | cons c cs =>
    -- a blank to `bytes.strip` that is none to JSON
    have hblank : isBlank c = false := by
      have := head?_dropWhile_not isBlank t
      rw [show t.dropWhile isBlank = c :: cs from hs] at this
      simpa using this
    have hc : isSpace c = true := all_eq_true.1 (hs ▸ hskip) c mem_cons_self
    have hcases : c = '\x0b' ∨ c = '\x0c' := by
      simp only [isSpace, isBlank, Bool.or_eq_true, Bool.or_eq_false_iff, decide_eq_true_eq,
        decide_eq_false_iff_not] at hc hblank
      tauto
    rcases hcases with rfl | rfl <;>
      simp [loads, hs, readValue, constant?, readNumber, readWhole, readDigits?]

/-- A complete record is an event to the scan, with the same number. -/
lemma lineSeq_of_record {seq : Nat} (h : recordSeq t = some seq) : lineSeq t = some seq := by
  obtain ⟨text, htext, hseq⟩ := Option.bind_eq_some_iff.1 h
  have hspace : t.all isSpace = false := by
    by_contra hall
    rw [Bool.not_eq_false] at hall
    have hascii : ∀ c ∈ t, c.toNat < 0x80 := by
      intro c hc
      have := all_eq_true.1 hall c hc
      simp only [isSpace, Bool.or_eq_true, decide_eq_true_eq] at this
      rcases this with ((((rfl | rfl) | rfl) | rfl) | rfl) | rfl <;> decide
    rw [Lib.Utf8.decode_ascii hascii] at htext
    cases htext
    rw [loads_space hall] at hseq
    cases hseq
  rw [lineSeq, hspace, Lib.Utf8.decodeReplace_of_decode htext]
  exact hseq

/-! ### Repairing -/

lemma repairTail_frame (hchunk : 0 < chunk) (rs : List (List Char)) :
    repairTail chunk (Lines.frame rs) = (Lines.frame rs, forwardSeq (Lines.frame rs)) := by
  rcases Lines.frame_ended rs with hnil | ⟨a, ha⟩
  · rw [hnil]
    rfl
  · have hlast : (Lines.frame rs).getLast? = some '\n' := by rw [ha]; simp
    rw [repairTail, hlast]
    simp only [if_true, lastEventSeqFrom_eq hchunk]

lemma repairTail_eq (hchunk : 0 < chunk) (rs : List (List Char)) (ht : '\n' ∉ t) :
    repairTail chunk (Lines.frame rs ++ t) =
      match recordSeq t with
      | some seq => (Lines.frame (rs ++ [t]), seq)
      | none => (Lines.frame rs, forwardSeq (Lines.frame rs)) := by
  by_cases hne : t = []
  · rw [hne, append_nil, repairTail_frame hchunk]
    rfl
  have hlast : (Lines.frame rs ++ t).getLast? = some (t.getLast hne) := by
    rw [getLast?_append, getLast?_eq_some_getLast hne]
    rfl
  have hfeed : t.getLast hne ≠ '\n' := fun h => ht (h ▸ getLast_mem hne)
  have hstart : Lines.lastStart chunk (Lines.frame rs ++ t) (Lines.frame rs ++ t).length
      (Lines.frame rs ++ t).length = (Lines.frame rs).length :=
    Lines.lastStart_eq hchunk ht (Lines.frame_ended rs) _ _ (by simp) le_rfl le_rfl
  rw [repairTail, hlast]
  simp only [hfeed, if_false, hstart, drop_left, take_left]
  cases recordSeq t with
  | none => rw [lastEventSeqFrom_eq hchunk]
  | some seq => simp [Lines.frame]

/-- What the repair of a file has to be. The last piece of a file is what follows its last line feed. -/
structure Repaired (file : List Char) (r : List Char × Nat) : Prop where
  ended : r.1 = [] ∨ r.1.getLast? = some '\n'
  lines : Lines.frame (Lines.split file).dropLast <+: r.1
  keeps : (recordSeq ((Lines.split file).getLastD [])).isSome = true →
    r.1 = Lines.frame (Lines.split file)
  drops : (recordSeq ((Lines.split file).getLastD [])).isSome = false →
    r.1 = Lines.frame (Lines.split file).dropLast
  seq : r.2 = forwardSeq r.1

lemma ended_frame (rs : List (List Char)) :
    Lines.frame rs = [] ∨ (Lines.frame rs).getLast? = some '\n' := by
  refine (Lines.frame_ended rs).imp_right ?_
  rintro ⟨a, ha⟩
  rw [ha]
  simp

lemma forwardSeq_concat {rs : List (List Char)} {seq : Nat} (hrs : ∀ r ∈ rs, '\n' ∉ r)
    (ht : '\n' ∉ t) (hseq : lineSeq t = some seq) : forwardSeq (Lines.frame (rs ++ [t])) = seq := by
  have hall : ∀ r ∈ rs ++ [t], '\n' ∉ r :=
    forall_mem_append.2 ⟨hrs, forall_mem_singleton.2 ht⟩
  have hsplit := Lines.split_frame hall not_mem_nil
  rw [append_nil] at hsplit
  rw [forwardSeq, hsplit, foldl_last]
  simp [hseq, show lineSeq [] = none from rfl]

/-- TAIL: for every content and piece size the scan from the end finds what a reading from the start
    finds; and the repair keeps the ended lines, keeps a tail just when it is a complete event, and returns
    the last number of what it leaves. -/
theorem scan_and_repair_read_forward (chunk : Nat) (hchunk : 0 < chunk) (file : List Char) :
    lastEventSeqFrom chunk file = forwardSeq file ∧ Repaired file (repairTail chunk file) := by
  refine ⟨lastEventSeqFrom_eq hchunk file, ?_⟩
  obtain ⟨rs, t, rfl, hrs, ht⟩ := Lines.exists_frame file
  have hsplit := Lines.split_frame hrs ht
  have hlines : (Lines.split (Lines.frame rs ++ t)).dropLast = rs := by
    rw [hsplit, List.dropLast_concat]
  have htail : (Lines.split (Lines.frame rs ++ t)).getLastD [] = t := by
    rw [hsplit, List.getLastD_concat]
  rw [repairTail_eq hchunk rs ht]
  cases hseq : recordSeq t with
  | some seq =>
    refine ⟨ended_frame _, ?_, fun _ => by rw [hsplit], ?_, ?_⟩
    · rw [hlines, Lines.frame_append]
      exact List.prefix_append _ _
    · rw [htail, hseq]
      exact nofun
    · exact (forwardSeq_concat hrs ht (lineSeq_of_record hseq)).symm
  | none =>
    refine ⟨ended_frame rs, ?_, ?_, fun _ => by rw [hlines], rfl⟩
    · exact ⟨[], by rw [hlines, List.append_nil]⟩
    · rw [htail, hseq]
      exact nofun

/-- Pieces of three bytes, and an event behind which the next one is torn. -/
theorem scan_and_repair_torn :
    let file := "\x7b\"seq\": 7\x7d\n\x7b\"se".toList
    0 < 3 ∧ lastEventSeqFrom 3 file = forwardSeq file ∧ Repaired file (repairTail 3 file) :=
  ⟨by decide, scan_and_repair_read_forward 3 (by decide) _⟩

/-- A repaired log is left as it is, and gives the same number, whatever the sizes of the pieces. -/
theorem repair_twice (c d : Nat) (file : List Char) :
    repairTail (d + 1) (repairTail (c + 1) file).1 = repairTail (c + 1) file := by
  obtain ⟨rs, t, rfl, hrs, ht⟩ := Lines.exists_frame file
  rw [repairTail_eq c.succ_pos rs ht]
  cases hseq : recordSeq t with
  | none => exact repairTail_frame d.succ_pos rs
  | some seq => rw [repairTail_frame d.succ_pos, forwardSeq_concat hrs ht (lineSeq_of_record hseq)]

end EventLog
