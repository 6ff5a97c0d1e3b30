import Mathlib.Data.List.Basic

/-! Files of lines: records that hold no line feed, each ended by one. `frame` writes them, splitting
    at line feeds gets them back, and a fragment after the last line feed stays apart. `scanBack` reads
    a file from its end in chunks, carrying over the piece of a line that a chunk cuts; it sees the
    same lines as splitting the whole file does (`scanBack_eq`). `lastStart` looks for the start of the
    last line in the same way (`lastStart_eq`). -/

namespace Lines
open List

variable {cs : List Char} {rs : List (List Char)} {t : List Char} {chunk : Nat}

/-- The records, each on a line of its own. -/
def frame (records : List (List Char)) : List Char := records.flatMap fun r => r ++ ['\n']

@[simp] lemma frame_cons (r : List Char) (rs : List (List Char)) :
    frame (r :: rs) = r ++ '\n' :: frame rs := by simp [frame]

@[simp] lemma frame_append (rs rs' : List (List Char)) :
    frame (rs ++ rs') = frame rs ++ frame rs' := by simp [frame]

/-- The pieces between the line feeds. -/
def split (cs : List Char) : List (List Char) := cs.splitOn '\n'

lemma split_single (h : '\n' ∉ cs) : split cs = [cs] := by
  refine splitOnP_eq_singleton fun c hc => ?_
  simpa using ne_of_mem_of_not_mem hc h

lemma split_line {r : List Char} (h : '\n' ∉ r) (cs : List Char) :
    split (r ++ '\n' :: cs) = r :: split cs := by
  refine splitOnP_append_cons_of_forall_mem (fun c hc => ?_) _ (by simp) cs
  simpa using ne_of_mem_of_not_mem hc h

lemma split_ne_nil (cs : List Char) : split cs ≠ [] := splitOnP_ne_nil _ cs

/-- Splitting gets the records back, and what follows the last of them. -/
lemma split_frame (hr : ∀ r ∈ rs, '\n' ∉ r) (ht : '\n' ∉ t) :
    split (frame rs ++ t) = rs ++ [t] := by
  induction rs with
  | nil => exact split_single ht
  | cons r rs ih =>
    have hrest := ih fun q hq => hr q (mem_cons_of_mem _ hq)
    rw [frame_cons, append_assoc, cons_append, split_line (hr r (by simp)), hrest]
    rfl

/-- Every file is ended lines and what follows the last of them. -/
lemma exists_frame (cs : List Char) :
    ∃ rs t, cs = frame rs ++ t ∧ (∀ r ∈ rs, '\n' ∉ r) ∧ '\n' ∉ t := by
  induction cs with
  | nil => exact ⟨[], [], rfl, nofun, nofun⟩
  | cons c cs ih =>
    obtain ⟨rs, t, rfl, hrs, ht⟩ := ih
    by_cases hc : c = '\n'
    · exact ⟨[] :: rs, t, by simp [hc], forall_mem_cons.2 ⟨nofun, hrs⟩, ht⟩
    have hcons : ∀ {l : List Char}, '\n' ∉ l → '\n' ∉ c :: l :=
      fun hl => not_mem_cons_of_ne_of_not_mem (Ne.symm hc) hl
    cases rs with
    | nil => exact ⟨[], c :: t, rfl, nofun, hcons ht⟩
    | cons r rs =>
      obtain ⟨hr, hrs⟩ := forall_mem_cons.1 hrs
      exact ⟨(c :: r) :: rs, t, by simp, forall_mem_cons.2 ⟨hcons hr, hrs⟩, ht⟩

/-- Lines are nothing at all, or end with a line feed. -/
lemma frame_ended (rs : List (List Char)) : frame rs = [] ∨ ∃ a, frame rs = a ++ ['\n'] := by
  rcases eq_nil_or_concat rs with rfl | ⟨rs, r, rfl⟩
  · exact .inl rfl
  · exact .inr ⟨frame rs ++ r, by simp [concat_eq_append, frame]⟩

lemma not_mem_of_mem_split {l : List Char} (h : l ∈ split cs) : '\n' ∉ l := by
  induction cs generalizing l with
  | nil => simp_all [split]
  | cons c cs ih =>
    unfold split at h ih
    rw [List.splitOn, splitOnP_cons_eq_if_modifyHead] at h
    split at h
    · rcases mem_cons.1 h with rfl | h
      · simp
      · exact ih h
    · rename_i hc
      cases hs : List.splitOnP (· == '\n') cs with
      | nil => rw [hs] at h; cases h
      | cons l' ls =>
        rw [hs] at h
        rcases mem_cons.1 h with rfl | h
        · have hl : '\n' ∉ l' := ih (by rw [List.splitOn, hs]; simp)
          simp only [mem_cons, not_or]
          exact ⟨fun heq => hc (beq_iff_eq.2 heq.symm), hl⟩
        · exact ih (by rw [List.splitOn, hs]; exact mem_cons_of_mem _ h)

/-- What stands before a text only changes its first piece. -/
lemma split_append (a : List Char) {b l : List Char} {ls : List (List Char)}
    (h : split b = l :: ls) : split (a ++ b) = split (a ++ l) ++ ls := by
  have hb : b = ['\n'].intercalate (l :: ls) := by
    rw [← h]; exact (intercalate_splitOn '\n').symm
  cases ls with
  | nil => simp [hb]
  | cons m ls =>
    have htail : split (['\n'].intercalate (m :: ls)) = m :: ls := by
      refine splitOn_intercalate '\n' (fun k hk => ?_) (by simp)
      exact not_mem_of_mem_split (h ▸ mem_cons_of_mem _ hk)
    have hjoin : b = l ++ '\n' :: ['\n'].intercalate (m :: ls) := by
      rw [hb]; simp
    rw [hjoin, ← append_assoc]
    unfold split at htail ⊢
    rw [List.splitOn, splitOnP_append_cons _ _ (by simp)]
    exact congrArg _ htail

/-! ### From the front -/

/-- The lines as a file is read, each with its line feed. -/
def rows : List Char → List (List Char)
  | [] => []
  | c :: cs =>
    if c = '\n' then ['\n'] :: rows cs
    else
      match rows cs with
      | [] => [[c]]
      | l :: ls => (c :: l) :: ls

lemma rows_line : ∀ {r : List Char}, '\n' ∉ r → ∀ cs, rows (r ++ '\n' :: cs) = (r ++ ['\n']) :: rows cs
  | [], _, _ => rfl
  | c :: r, h, cs => by
    obtain ⟨hc, hr⟩ := not_or.1 (fun hor => h (mem_cons.2 hor))
    rw [cons_append, rows, if_neg (Ne.symm hc), rows_line hr cs]
    rfl

lemma rows_frame (hr : ∀ r ∈ rs, '\n' ∉ r) : rows (frame rs) = rs.map (· ++ ['\n']) := by
  induction rs with
  | nil => rfl
  | cons r rs ih =>
    rw [frame_cons, rows_line (hr r mem_cons_self), ih fun q hq => hr q (mem_cons_of_mem _ hq),
      map_cons]

section ScanBack
variable {β : Type} (f : List Char → Option β)

/-- The last piece for which `f` has a value. `pos` is the start of the chunk read last, `suffix` the
    piece of a line it cut off; the fuel bounds the chunks. -/
def scanBack (chunk : Nat) (file : List Char) : Nat → Nat → List Char → Option β
  | 0, _, _ => none
  | fuel + 1, pos, suffix =>
    if pos = 0 then none
    else
      let start := pos - min pos chunk
      let lines := split ((file.take pos).drop start ++ suffix)
      if start = 0 then lines.reverse.findSome? f
      else
        match lines.tail.reverse.findSome? f with
        | some b => some b
        | none => scanBack chunk file fuel start (lines.headD [])

lemma scanBack_eq (hchunk : 0 < chunk) (file : List Char) :
    ∀ (fuel pos : Nat) (suffix : List Char), 0 < pos → pos ≤ fuel →
      scanBack f chunk file fuel pos suffix =
        (split (file.take pos ++ suffix)).reverse.findSome? f
  | 0, _, _, hpos, hfuel => absurd hpos (by omega)
  | fuel + 1, pos, suffix, hpos, hfuel => by
    have hcut : file.take pos ++ suffix = file.take (pos - min pos chunk) ++
        ((file.take pos).drop (pos - min pos chunk) ++ suffix) := by
      have htake : file.take (pos - min pos chunk) =
          (file.take pos).take (pos - min pos chunk) := by
        rw [take_take, Nat.min_eq_left (Nat.sub_le pos _)]
      rw [htake, ← append_assoc, take_append_drop]
    unfold scanBack
    rw [if_neg (by omega)]
    dsimp only
    split
    · rename_i hstart
      rw [hstart]
      simp
    · cases hsplit : split ((file.take pos).drop (pos - min pos chunk) ++ suffix) with
      | nil => exact absurd hsplit (split_ne_nil _)
      | cons l ls =>
        rw [hcut, split_append _ hsplit, reverse_append, findSome?_append]
        simp only [tail_cons, headD_cons]
        cases ls.reverse.findSome? f with
        | some b => rfl
        | none =>
          rw [scanBack_eq hchunk file fuel _ l (by omega) (by omega)]
          rfl

end ScanBack

/-- Where the last line feed stands. -/
def lastFeed? (cs : List Char) : Option Nat :=
  (cs.reverse.findIdx? (· = '\n')).map fun i => cs.length - 1 - i

lemma no_feed (h : '\n' ∉ cs) : cs.reverse.findIdx? (· = '\n') = none := by
  rw [findIdx?_eq_none_iff]
  intro c hc
  simpa using ne_of_mem_of_not_mem (mem_reverse.1 hc) h

lemma lastFeed?_none (h : '\n' ∉ cs) : lastFeed? cs = none := by
  rw [lastFeed?, no_feed h, Option.map_none]

lemma lastFeed?_some (a : List Char) (h : '\n' ∉ t) :
    lastFeed? (a ++ '\n' :: t) = some a.length := by
  have hsome : (a ++ '\n' :: t).reverse.findIdx? (· = '\n') = some t.length := by
    rw [reverse_append, reverse_cons, append_assoc, findIdx?_append, no_feed h]
    simp [findIdx?_cons]
  rw [lastFeed?, hsome, Option.map_some]
  simp only [length_append, length_cons]
  congr 1
  omega

/-- Where the last line starts, searched from `cursor` towards the front. -/
def lastStart (chunk : Nat) (file : List Char) : Nat → Nat → Nat
  | 0, _ => 0
  | fuel + 1, cursor =>
    if cursor = 0 then 0
    else
      let start := cursor - min cursor chunk
      match lastFeed? ((file.take cursor).drop start) with
      | some i => start + i + 1
      | none => lastStart chunk file fuel start

/-- A file that is `front`, empty or ended by a line feed, and a last line. -/
lemma lastStart_eq (hchunk : 0 < chunk) {front tail : List Char} (ht : '\n' ∉ tail)
    (hf : front = [] ∨ ∃ a, front = a ++ ['\n']) :
    ∀ fuel cursor, front.length ≤ cursor → cursor ≤ fuel → cursor ≤ (front ++ tail).length →
      lastStart chunk (front ++ tail) fuel cursor = front.length
  | 0, cursor, hfront, hfuel, _ => by unfold lastStart; omega
  | fuel + 1, cursor, hfront, hfuel, hlen => by
    unfold lastStart
    split
    · omega
    have hcut : (front ++ tail).take cursor = front ++ tail.take (cursor - front.length) := by
      rw [take_append, take_of_length_le hfront]
    have hclean : '\n' ∉ tail.take (cursor - front.length) := fun h => ht (mem_of_mem_take h)
    dsimp only
    rw [hcut]
    by_cases hstart : front.length ≤ cursor - min cursor chunk
    · have hdrop : (front ++ tail.take (cursor - front.length)).drop (cursor - min cursor chunk) =
          (tail.take (cursor - front.length)).drop (cursor - min cursor chunk - front.length) := by
        rw [drop_append, drop_of_length_le hstart, nil_append]
      rw [hdrop, lastFeed?_none fun h => hclean (mem_of_mem_drop h)]
      exact lastStart_eq hchunk ht hf fuel _ hstart (by omega) (by omega)
    · rcases hf with rfl | ⟨a, rfl⟩
      · exact absurd (Nat.zero_le _) hstart
      have hle : cursor - min cursor chunk ≤ a.length := by
        simp only [length_append, length_singleton] at hstart
        omega
      have hdrop : (a ++ ['\n'] ++ tail.take (cursor - (a ++ ['\n']).length)).drop
          (cursor - min cursor chunk) = a.drop (cursor - min cursor chunk) ++
            '\n' :: tail.take (cursor - (a ++ ['\n']).length) := by
        rw [append_assoc, drop_append_of_le_length hle]
        rfl
      rw [hdrop, lastFeed?_some _ hclean]
      simp only [length_drop, length_append, length_singleton]
      omega

end Lines
