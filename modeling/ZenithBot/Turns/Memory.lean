import Mathlib.Data.List.Infix
import ZenithBot.PyText

/-! Memory of an earlier conversation travels in front of the prompt, and is taken off again when the
    prompt is shown:

      [label; chars=n] ⏎ … n characters … ⏎ [End label] ⏎ ⏎ [Current user prompt] ⏎ prompt

    The number of characters says where the memory ends, whatever it contains. An older form has no
    number, and ends at the last end marker there is; the loop takes either form off until neither
    stands in front. -/

namespace Turns.Memory
open Py List

/-- The two labels in use. -/
inductive Label where
  | fork
  | rollover

def Label.name : Label → Text
  | .fork => text "Fork memory context"
  | .rollover => text "Codex rollover memory"

/-- The name in the end marker of the older form. -/
def Label.endName : Label → Text
  | .fork => text "fork memory context"
  | .rollover => text "Codex rollover memory"

def boundary (endName : Text) : Text := text "\n[End " ++ endName ++ text "]\n\n[Current user prompt]\n"

def decimal (n : Nat) : Text := (Nat.toDigits 10 n).map Char.toNat

/-- What comes before the number of characters. -/
def Label.opening (label : Label) : Text := text "[" ++ label.name ++ text "; chars="

def buildMemoryAugmentedPrompt (label : Label) (memory prompt : Text) : Text :=
  label.opening ++ (decimal memory.length ++ (text "]\n" ++ (memory ++ (boundary label.name ++ prompt))))

/-! ### Taking it off -/

/-- What the code asks of its runtime: which code points `\d` matches, and `int`, which raises
    `ValueError` for too many digits. The length of a text is never too long a number. -/
structure Runtime where
  isDigit : Nat → Bool
  int : Text → Option Nat
  digits : ∀ c, 48 ≤ c → c ≤ 57 → isDigit c = true
  bracket : isDigit 93 = false
  int_length : ∀ memory : Text, int (decimal memory.length) = some memory.length

/-- The rest of a text that starts with `front`. -/
def after? (front cs : Text) : Option Text :=
  if front <+: cs then some (cs.drop front.length) else none

/-- The rest of a text after the last `marker` in it. -/
def afterLast? (marker cs : Text) : Option Text := cs.tails.reverse.findSome? (after? marker)

def labels : List Label := [.fork, .rollover]

variable (py : Runtime)

/-- The header with a number: the label, the digits, and the rest of the text. -/
def header? (cleaned : Text) (label : Label) : Option (Label × Text × Text) := do
  let rest ← after? label.opening cleaned
  let digits := rest.takeWhile py.isDigit
  let rest ← after? (text "]\n") (rest.dropWhile py.isDigit)
  if digits.isEmpty then none else return (label, digits, rest)

def lengthMatch (cleaned : Text) : Option (Label × Text × Text) := labels.findSome? (header? py cleaned)

/-- The older form of one label. -/
def legacy? (cleaned : Text) (label : Label) : Option Text :=
  (after? (text "[" ++ label.name ++ text "]\n") cleaned).bind (afterLast? (boundary label.endName))

def legacy (cleaned : Text) : Text := (labels.findSome? (legacy? cleaned)).getD cleaned

/-- One round of the loop; `none` is `ValueError`. -/
def round (cleaned : Text) : Option Text :=
  match lengthMatch py cleaned with
  | none => some (legacy cleaned)
  | some (label, digits, rest) => (py.int digits).map fun chars =>
    (after? (boundary label.name) (rest.drop chars)).getD (legacy cleaned)

/-- The loop, for so many rounds; the outer `none` is a loop that is still going. -/
def stripFor : Nat → Text → Option (Option Text)
  | 0, _ => none
  | rounds + 1, cleaned =>
    match round py cleaned with
    | none => some none
    | some next => if next = cleaned then some (some cleaned) else stripFor rounds next

def stripAgentsdockMemoryContext (cleaned : Text) : Option (Option Text) :=
  stripFor py (cleaned.length + 1) cleaned

/-! ### The wrapper comes off -/

variable {front cs rest cleaned : Text} {py : Runtime} (label : Label)

lemma after?_eq_some : after? front cs = some rest ↔ cs = front ++ rest := by
  unfold after?
  constructor
  · intro h
    split at h
    · rename_i hfront
      cases h
      exact (prefix_iff_eq_append.1 hfront).symm
    · cases h
  · rintro rfl
    rw [if_pos (prefix_append front rest), drop_left]

@[simp] lemma after?_append (front cs : Text) : after? front (front ++ cs) = some cs :=
  after?_eq_some.2 rfl

lemma isDigit_decimal (n : Nat) : ∀ c ∈ decimal n, py.isDigit c = true := by
  intro c hc
  obtain ⟨d, hd, rfl⟩ := mem_map.1 hc
  have hdigit := Nat.isDigit_of_mem_toDigits (by decide) (by decide) hd
  simp only [Char.isDigit, Bool.and_eq_true, decide_eq_true_eq, ge_iff_le, UInt32.le_iff_toNat_le] at hdigit
  exact py.digits _ hdigit.1 hdigit.2

lemma header?_wrapped (n : Nat) (rest : Text) :
    header? py (label.opening ++ (decimal n ++ (text "]\n" ++ rest))) label =
      some (label, decimal n, rest) := by
  have hclose : text "]\n" ++ rest = 93 :: 10 :: rest := rfl
  have hbracket : ¬py.isDigit 93 = true := by simp [py.bracket]
  have htake : (decimal n ++ (text "]\n" ++ rest)).takeWhile py.isDigit = decimal n := by
    rw [takeWhile_append_of_pos (isDigit_decimal n), hclose, takeWhile_cons_of_neg hbracket,
      append_nil]
  have hdrop : (decimal n ++ (text "]\n" ++ rest)).dropWhile py.isDigit = text "]\n" ++ rest := by
    rw [dropWhile_append_of_pos (isDigit_decimal n), hclose, dropWhile_cons_of_neg hbracket]
  have hsome : (decimal n).isEmpty = false := by simp [decimal]
  simp only [header?, after?_append, htake, hdrop, hsome, Option.bind_eq_bind, Option.bind_some]
  rfl

lemma lengthMatch_wrapped (n : Nat) (rest : Text) :
    lengthMatch py (label.opening ++ (decimal n ++ (text "]\n" ++ rest))) =
      some (label, decimal n, rest) := by
  have hwrapped := @header?_wrapped py label n rest
  cases label with
  | fork => rw [lengthMatch, labels, findSome?_cons, hwrapped]
  | rollover =>
    have hfork : ∀ cs, header? py (Label.rollover.opening ++ cs) .fork = none := fun _ => rfl
    rw [lengthMatch, labels, findSome?_cons, hfork, findSome?_cons, hwrapped]

/-- ROUND: the number of characters finds the end of the memory, whatever the memory holds. -/
theorem round_wrapped (memory prompt : Text) :
    round py (buildMemoryAugmentedPrompt label memory prompt) = some prompt := by
  rw [round, buildMemoryAugmentedPrompt, lengthMatch_wrapped]
  simp [py.int_length, after?_append]

/-- The prompt does not begin with a header of either form. -/
structure HeaderFree (py : Runtime) (prompt : Text) : Prop where
  numbered : lengthMatch py prompt = none
  plain : ∀ label : Label, after? (text "[" ++ label.name ++ text "]\n") prompt = none

lemma HeaderFree.round {prompt : Text} (h : HeaderFree py prompt) : round py prompt = some prompt := by
  have hlegacy : labels.findSome? (legacy? prompt) = none :=
    findSome?_eq_none_iff.2 fun label _ => by rw [legacy?, h.plain]; rfl
  rw [Memory.round, h.numbered, legacy, hlegacy]
  rfl

/-- A prompt with wrappers around it, the first of them outermost. -/
def wrapped (pairs : List (Label × Text)) (prompt : Text) : Text :=
  pairs.foldr (fun p => buildMemoryAugmentedPrompt p.1 p.2) prompt

lemma length_wrap (memory prompt : Text) :
    prompt.length < (buildMemoryAugmentedPrompt label memory prompt).length := by
  have hopen : 0 < label.opening.length := by cases label <;> decide
  simp only [buildMemoryAugmentedPrompt, length_append]
  omega

lemma length_wrapped (pairs : List (Label × Text)) (prompt : Text) :
    pairs.length ≤ (wrapped pairs prompt).length := by
  induction pairs with
  | nil => exact Nat.zero_le _
  | cons p pairs ih => exact Nat.lt_of_le_of_lt ih (length_wrap p.1 p.2 _)

/-- RUN: one round for each wrapper, and one more that finds nothing. -/
theorem stripFor_wrapped {prompt : Text} (h : HeaderFree py prompt) :
    ∀ (pairs : List (Label × Text)) {rounds : Nat}, pairs.length < rounds →
      stripFor py rounds (wrapped pairs prompt) = some (some prompt)
  | [], rounds + 1, _ => by simp [wrapped, stripFor, h.round]
  | p :: pairs, rounds + 1, hr => by
    have hround : round py (wrapped (p :: pairs) prompt) = some (wrapped pairs prompt) :=
      round_wrapped p.1 p.2 _
    have hne : wrapped pairs prompt ≠ wrapped (p :: pairs) prompt := fun he =>
      (length_wrap p.1 p.2 (wrapped pairs prompt)).ne (congrArg length he)
    simp only [stripFor, hround, if_neg hne]
    exact stripFor_wrapped h pairs (Nat.lt_of_succ_lt_succ hr)

/-! ### The loop ends -/

lemma legacy?_suffix {label : Label} (h : legacy? cleaned label = some rest) :
    boundary label.endName ++ rest <:+ cleaned := by
  obtain ⟨cs, hcs, hrest⟩ := Option.bind_eq_some_iff.1 h
  obtain ⟨s, hs, hrest⟩ := exists_of_findSome?_eq_some hrest
  rw [after?_eq_some.1 hcs, ← after?_eq_some.1 hrest]
  exact ((mem_tails s cs).1 (mem_reverse.1 hs)).trans (suffix_append _ cs)

lemma lengthMatch_suffix {found : Label × Text × Text} (h : lengthMatch py cleaned = some found) :
    found.2.2 <:+ cleaned := by
  obtain ⟨label, -, h⟩ := exists_of_findSome?_eq_some h
  obtain ⟨cs, hcs, h⟩ := Option.bind_eq_some_iff.1 h
  obtain ⟨rest, hrest, h⟩ := Option.bind_eq_some_iff.1 h
  split at h
  · cases h
  · cases h
    have hdrop : rest <:+ cs.dropWhile py.isDigit := ⟨_, (after?_eq_some.1 hrest).symm⟩
    exact (hdrop.trans (dropWhile_suffix _)).trans ⟨_, (after?_eq_some.1 hcs).symm⟩

lemma shorter {name : Text} (h : boundary name ++ rest <:+ cleaned) : rest.length < cleaned.length := by
  have hfront : (text "\n[End ").length = 6 := by decide
  have := h.length_le
  simp only [boundary, length_append, hfront] at this
  omega

lemma legacy_shorter (cleaned : Text) :
    legacy cleaned = cleaned ∨ (legacy cleaned).length < cleaned.length := by
  unfold legacy
  cases h : labels.findSome? (legacy? cleaned) with
  | none => exact .inl rfl
  | some next =>
    obtain ⟨label, -, hnext⟩ := exists_of_findSome?_eq_some h
    exact .inr (shorter (legacy?_suffix hnext))

/-- STEP: a round leaves the text alone, or shortens it. -/
theorem round_shorter {next : Text} (h : round py cleaned = some next) :
    next = cleaned ∨ next.length < cleaned.length := by
  unfold round at h
  split at h
  · cases h
    exact legacy_shorter cleaned
  · rename_i label digits rest hmatch
    obtain ⟨chars, -, rfl⟩ := Option.map_eq_some_iff.1 h
    cases hnext : after? (boundary label.name) (rest.drop chars) with
    | none => exact legacy_shorter cleaned
    | some next =>
      have hdrop := (drop_suffix chars rest).trans (lengthMatch_suffix hmatch)
      rw [after?_eq_some.1 hnext] at hdrop
      exact .inr (shorter hdrop)

lemma stripFor_ends : ∀ {rounds : Nat} {cleaned : Text}, cleaned.length < rounds →
    stripFor py rounds cleaned ≠ none
  | rounds + 1, cleaned, hr => by
    unfold stripFor
    split
    · nofun
    · rename_i next hnext
      split
      · nofun
      · have := (round_shorter hnext).resolve_left ‹_›
        exact stripFor_ends (by omega)

/-- WRAPPERS COME OFF: whatever the memories hold, the prompt comes back as it was, and the loop ends
    on every text. -/
theorem strip_wrapped (py : Runtime) :
    (∀ (pairs : List (Label × Text)) (prompt : Text), HeaderFree py prompt →
      stripAgentsdockMemoryContext py (wrapped pairs prompt) = some (some prompt)) ∧
    ∀ cleaned : Text, stripAgentsdockMemoryContext py cleaned ≠ none :=
  ⟨fun pairs prompt h => stripFor_wrapped h pairs (Nat.lt_succ_of_le (length_wrapped pairs prompt)),
    fun _ => stripFor_ends (Nat.lt_succ_self _)⟩

/-- Only the ASCII digits count as digits. -/
def asciiRuntime : Runtime where
  isDigit c := 48 ≤ c && c ≤ 57
  int digits := some (Nat.ofDigitChars 10 (digits.map Char.ofNat) 0)
  digits := by simp +contextual
  bracket := rfl
  int_length memory := by
    have hchars : (decimal memory.length).map Char.ofNat = Nat.toDigits 10 memory.length := by
      simp [decimal, Function.comp_def]
    rw [hchars, Nat.ofDigitChars_toDigits (by decide) (by decide)]

/-- A memory that holds an end marker of its own, inside another one. -/
theorem strip_wrapped_marker :
    stripAgentsdockMemoryContext asciiRuntime (wrapped
      [(.rollover, text "a"), (.fork, boundary Label.fork.name ++ text "b")] (text "go")) =
        some (some (text "go")) :=
  (strip_wrapped asciiRuntime).1 _ _ ⟨rfl, fun label => by cases label <;> rfl⟩

end Turns.Memory
