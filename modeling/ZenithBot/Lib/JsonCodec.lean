import ZenithBot.Lib.Json

/-! Writing and reading JSON fit together. `loads_dumps`: what was written is read back.
    `dumps_printable`: the text is printable ASCII, so a text on a line of its own stays on it. -/

namespace Json
open List

variable {rest : List Char} {c : Char} (cs : List Char) (v : Json)

/-! ### Strings -/

lemma hexValue?_digitChar : ∀ d < 16, hexValue? (Nat.digitChar d) = some d := by decide

lemma unicodeEscape_read (u : Fin 65536) (rest : List Char) :
    readEscape ((unicodeEscape u.val).tail ++ rest) = some (u, rest) := by
  have hd (k : Nat) : hexValue? (Nat.digitChar (k % 16)) = some (k % 16) :=
    hexValue?_digitChar _ (Nat.mod_lt _ (by decide))
  have hsum : u.val / 4096 % 16 * 4096 + u.val / 256 % 16 * 256 + u.val / 16 % 16 * 16 +
      u.val % 16 = u.val := by omega
  have hu : Fin.ofNat 65536 u.val = u := Fin.ext (Nat.mod_eq_of_lt u.isLt)
  simp [unicodeEscape, readEscape, hd, hsum]

lemma ascii_toNat : ∀ n < 127, (Char.ofNat n).toNat = n := by decide

lemma printable_read {u : Fin 65536} (hs : shortEscape? u.val = none)
    (hp : 0x20 ≤ u.val ∧ u.val ≤ 0x7e) :
    Char.ofNat u.val ≠ '"' ∧ Char.ofNat u.val ≠ '\\' ∧ (Char.ofNat u.val).toNat = u.val := by
  have htoNat := ascii_toNat u.val (by omega)
  refine ⟨fun h => ?_, fun h => ?_, htoNat⟩
  · rw [← htoNat, h] at hs; cases hs
  · rw [← htoNat, h] at hs; cases hs

/-- A unit of a string is read back whichever way it was written. -/
lemma readString_unit (fuel : Nat) (u : Fin 65536) (cs : List Char) :
    readString (fuel + 1) (escapeUnit u ++ cs) =
      (readString fuel cs).map fun r => (u :: r.1, r.2) := by
  unfold escapeUnit
  cases hs : shortEscape? u.val with
  | some c =>
    have hshort : readEscape (c :: cs) = some (u, cs) := by
      unfold shortEscape? at hs
      split at hs <;> cases hs
      all_goals
        rename_i hu
        exact congrArg (fun v => some (v, cs)) (Fin.ext hu.symm)
    simp only [cons_append, readString]
    simp [hshort]
    cases readString fuel cs <;> rfl
  | none =>
    dsimp only
    split
    · rename_i hp
      obtain ⟨hq, hb, hn⟩ := printable_read hs hp
      have hu : unitsOf (Char.ofNat u.val) = [u] := by
        unfold unitsOf
        rw [hn, if_pos u.isLt]
        exact congrArg (· :: []) (Fin.ext (Nat.mod_eq_of_lt u.isLt))
      have hlow : ¬u.val < 32 := by omega
      simp only [cons_append, nil_append, readString, if_neg hq, if_neg hb, hn,
        if_neg hlow, hu]
      cases readString fuel cs <;> rfl
    · have hread := unicodeEscape_read u cs
      have htext : unicodeEscape u.val ++ cs = '\\' :: ((unicodeEscape u.val).tail ++ cs) := rfl
      rw [htext]
      simp [readString, hread]
      cases readString fuel cs <;> rfl

lemma readString_dumps : ∀ (s : Text) (fuel : Nat) (rest : List Char), s.length < fuel →
    readString fuel (s.flatMap escapeUnit ++ '"' :: rest) = some (s, rest)
  | [], fuel + 1, rest, _ => by simp [readString]
  | u :: s, fuel + 1, rest, h => by
    have hlen : s.length < fuel := by simpa using h
    rw [flatMap_cons, append_assoc, readString_unit, readString_dumps s fuel rest hlen]
    rfl

lemma escapeUnit_length (u : Fin 65536) : 1 ≤ (escapeUnit u).length := by
  unfold escapeUnit
  split
  · simp
  · split <;> simp [unicodeEscape]

lemma length_le_escaped (s : Text) : s.length ≤ (s.flatMap escapeUnit).length := by
  induction s with
  | nil => simp
  | cons u s ih =>
    have := escapeUnit_length u
    simp only [flatMap_cons, length_append, length_cons]
    omega

/-! ### Numbers -/

/-- The text cannot continue a number. -/
def Stops (cs : List Char) : Prop :=
  ∀ c ∈ cs.head?, c.isDigit = false ∧ c ≠ '.' ∧ c ≠ 'e' ∧ c ≠ 'E'

lemma readDigits?_append (d : Digits) (hr : ∀ c ∈ rest.head?, c.isDigit = false) :
    readDigits? (d.chars ++ rest) = some (d, rest) := by
  have hrest : rest.takeWhile Char.isDigit = [] ∧ rest.dropWhile Char.isDigit = rest := by
    cases rest with
    | nil => exact ⟨rfl, rfl⟩
    | cons c cs =>
      have hc := hr c (by simp)
      simp [hc]
  have htake : (d.chars ++ rest).takeWhile Char.isDigit = d.chars := by
    rw [takeWhile_append_of_pos d.digit, hrest.1, append_nil]
  have hdrop : (d.chars ++ rest).dropWhile Char.isDigit = rest := by
    rw [dropWhile_append_of_pos d.digit, hrest.2]
  unfold readDigits?
  rw [dif_pos (by rw [htake]; exact d.ne_nil)]
  simp only [htake, hdrop]

lemma readDigits?_some {s r : List Char} {d : Digits} (h : readDigits? s = some (d, r)) :
    s = d.chars ++ r ∧ ∀ c ∈ r.head?, c.isDigit = false := by
  unfold readDigits? at h
  split at h
  · cases h
    refine ⟨takeWhile_append_dropWhile.symm, fun c hc => ?_⟩
    by_contra hd
    have := head?_dropWhile_not Char.isDigit s
    rw [Option.mem_def.1 hc] at this
    simp [this] at hd
  · cases h

def decimal (n : Nat) : Digits :=
  ⟨Nat.toDigits 10 n, Nat.toDigits_ne_nil,
    fun _ hc => Nat.isDigit_of_mem_toDigits (by decide) (by decide) hc⟩

/-- A number other than zero does not start with one. -/
lemma toDigits_head (n : Nat) (hn : n ≠ 0) : (Nat.toDigits 10 n).head? ≠ some '0' := by
  induction n using Nat.strongRecOn with
  | ind n ih =>
    rw [Nat.toDigits_eq_if (by decide)]
    split
    · rename_i hlt
      have hall : ∀ k < 10, k ≠ 0 → Nat.digitChar k ≠ '0' := by decide
      simpa using hall n hlt hn
    · have hne : (Nat.toDigits 10 (n / 10)).head? ≠ some '0' := ih (n / 10) (by omega) (by omega)
      cases hd : Nat.toDigits 10 (n / 10) with
      | nil => exact absurd hd Nat.toDigits_ne_nil
      | cons c cs => rw [hd] at hne; simpa using hne

lemma readWhole_dumps (n : Nat) (hr : ∀ c ∈ rest.head?, c.isDigit = false) :
    readWhole (Nat.toDigits 10 n ++ rest) = some (n, rest) := by
  by_cases hn : n = 0
  · subst hn; rfl
  · have hread := readDigits?_append (decimal n) hr
    have hhead := toDigits_head n hn
    have hvalue : Nat.ofDigitChars 10 (Nat.toDigits 10 n) 0 = n :=
      Nat.ofDigitChars_toDigits (by decide) (by decide)
    unfold readWhole
    split
    · rename_i cs hcs
      cases hd : Nat.toDigits 10 n with
      | nil => exact absurd hd Nat.toDigits_ne_nil
      | cons c ds => rw [hd] at hcs hhead; cases hcs; simp at hhead
    · simp only [decimal] at hread
      rw [hread]
      simp [hvalue]

lemma readSign_dumps (negative : Bool) (cs : List Char) :
    readSign ((if negative then '-' else '+') :: cs) = (negative, cs) := by
  cases negative <;> rfl

lemma readExponent_dumps (e : Option (Bool × Digits)) (hr : Stops rest) :
    readExponent (dumpsExponent e ++ rest) = (e, rest) := by
  cases e with
  | none =>
    cases rest with
    | nil => rfl
    | cons c cs =>
      have hc := hr c (by simp)
      simp [dumpsExponent, readExponent, hc.2.2]
  | some e =>
    obtain ⟨negative, d⟩ := e
    have hread := readDigits?_append d fun c hc => (hr c hc).1
    simp [dumpsExponent, readExponent, readSign_dumps, hread]

lemma readFraction_dumps (f : Option Digits) (hr : ∀ c ∈ rest.head?, c.isDigit = false ∧ c ≠ '.') :
    readFraction (dumpsFraction f ++ rest) = (f, rest) := by
  cases f with
  | none =>
    cases rest with
    | nil => rfl
    | cons c cs =>
      have hc := (hr c (by simp)).2
      simp [dumpsFraction, readFraction, hc]
  | some d =>
    have hread := readDigits?_append d fun c hc => (hr c hc).1
    simp [dumpsFraction, readFraction, hread]

lemma readNumber_dumps (n : Number) (hr : Stops rest) :
    readNumber n.negative (dumpsMagnitude n ++ rest) = some (n, rest) := by
  -- what follows the whole part starts with a point, an `e`, or the rest
  have hexp : ∀ c ∈ (dumpsExponent n.exponent ++ rest).head?, c.isDigit = false ∧ c ≠ '.' := by
    cases n.exponent with
    | none => exact fun c hc => ⟨(hr c hc).1, (hr c hc).2.1⟩
    | some e => simp [dumpsExponent]
  have hfrac : ∀ c ∈ (dumpsFraction n.fraction ++ (dumpsExponent n.exponent ++ rest)).head?,
      c.isDigit = false := by
    cases n.fraction with
    | none => exact fun c hc => (hexp c hc).1
    | some d => simp [dumpsFraction]
  unfold readNumber dumpsMagnitude
  rw [append_assoc, append_assoc, readWhole_dumps n.whole hfrac]
  simp only [Option.bind_eq_bind, Option.bind_some, readFraction_dumps n.fraction hexp,
    readExponent_dumps n.exponent hr]
  rfl

/-! ### Values -/

lemma dumps_number (n : Number) : dumps (.number n) = dumpsNumber n := rfl

lemma dumps_string (s : Text) : dumps (.string s) = '"' :: s.flatMap escapeUnit ++ ['"'] := rfl

lemma dumps_array (items : List Json) : dumps (.array items) = '[' :: dumpsItems items ++ [']'] :=
  rfl

lemma dumps_object (fields : List (Text × Json)) :
    dumps (.object fields) = '{' :: dumpsFields fields ++ ['}'] := rfl

lemma dumpsItems_one : dumpsItems [v] = dumps v := rfl

lemma dumpsItems_more (v w : Json) (vs : List Json) :
    dumpsItems (v :: w :: vs) = dumps v ++ ',' :: dumpsItems (w :: vs) := rfl

lemma dumpsFields_one (k : Text) (v : Json) :
    dumpsFields [(k, v)] = '"' :: (k.flatMap escapeUnit ++ '"' :: ':' :: dumps v) := by
  change '"' :: k.flatMap escapeUnit ++ ['"'] ++ ':' :: dumps v = _
  simp

lemma dumpsFields_more (k : Text) (v : Json) (f : Text × Json) (fs : List (Text × Json)) :
    dumpsFields ((k, v) :: f :: fs) =
      '"' :: (k.flatMap escapeUnit ++ '"' :: ':' :: (dumps v ++ ',' :: dumpsFields (f :: fs))) := by
  change '"' :: k.flatMap escapeUnit ++ ['"'] ++ ':' :: dumps v ++ ',' :: dumpsFields (f :: fs) = _
  simp

lemma stops_nil : Stops [] := nofun

lemma stops_cons (hc : c.isDigit = false ∧ c ≠ '.' ∧ c ≠ 'e' ∧ c ≠ 'E') : Stops (c :: cs) := by
  intro d hd
  cases hd
  exact hc

lemma skipBlanks_cons (hc : isBlank c = false) : skipBlanks (c :: cs) = c :: cs := by
  simp [skipBlanks, hc]

lemma digit_ne {d : Char} (hc : c.isDigit = true) (hd : d.isDigit = false) : c ≠ d := by
  rintro rfl
  rw [hd] at hc
  cases hc

lemma toDigits_cons (n : Nat) : ∃ c cs, Nat.toDigits 10 n = c :: cs ∧ c.isDigit = true := by
  cases h : Nat.toDigits 10 n with
  | nil => exact absurd h Nat.toDigits_ne_nil
  | cons c cs => exact ⟨c, cs, rfl, (decimal n).digit c (by simp [decimal, h])⟩

lemma readValue_quote (fuel : Nat) (cs : List Char) :
    readValue (fuel + 1) ('"' :: cs) = (readString fuel cs).map fun r => (.string r.1, r.2) := rfl

lemma readValue_bracket (hb : isBlank c = false) (hc : c ≠ ']') (fuel : Nat) (cs : List Char) :
    readValue (fuel + 1) ('[' :: c :: cs) =
      (readItems (readValue fuel) fuel (c :: cs)).map fun r => (.array r.1, r.2) := by
  change readArray (readValue fuel) fuel (c :: cs) = _
  simp [readArray, skipBlanks_cons cs hb, hc]

lemma readValue_brace (fuel : Nat) (cs : List Char) : readValue (fuel + 1) ('{' :: '"' :: cs) =
    (readFields (readValue fuel) fuel cs).map fun r => (.object r.1, r.2) := rfl

lemma readValue_digit (hc : c.isDigit = true) (fuel : Nat) (cs : List Char) :
    readValue (fuel + 1) (c :: cs) =
      (readNumber false (c :: cs)).map fun r => (.number r.1, r.2) := by
  have hne (d : Char) (hd : d.isDigit = false) : ¬c = d := digit_ne hc hd
  have hconst : constant? c = none := by
    unfold constant?
    split <;> first | rfl | cases hc
  rw [readValue, if_neg (hne _ (by decide)), if_neg (hne _ (by decide)), if_neg (hne _ (by decide)),
    if_neg (hne _ (by decide)), hconst]

lemma readValue_minus (hc : c.isDigit = true) (fuel : Nat) (cs : List Char) :
    readValue (fuel + 1) ('-' :: c :: cs) =
      (readNumber true (c :: cs)).map fun r => (.number r.1, r.2) := by
  have hword : word? "Infinity".toList (c :: cs) = none := if_neg (digit_ne hc (by decide))
  change readNegative (c :: cs) = _
  rw [readNegative, hword]

lemma magnitude_cons (n : Number) : ∃ c cs, dumpsMagnitude n = c :: cs ∧ c.isDigit = true := by
  obtain ⟨c, cs, hdigits, hc⟩ := toDigits_cons n.whole
  exact ⟨c, _, by rw [dumpsMagnitude, hdigits]; rfl, hc⟩

lemma readValue_number (n : Number) (fuel : Nat) (hr : Stops rest) :
    readValue (fuel + 1) (dumpsNumber n ++ rest) = some (.number n, rest) := by
  obtain ⟨c, cs, htext, hc⟩ := magnitude_cons n
  have hread := readNumber_dumps n hr
  unfold dumpsNumber
  rw [htext] at hread ⊢
  cases hn : n.negative with
  | false =>
    rw [hn] at hread
    rw [if_neg (by decide), cons_append, readValue_digit hc, ← cons_append, hread]
    rfl
  | true =>
    rw [hn] at hread
    rw [if_pos rfl, cons_append, cons_append, readValue_minus hc, ← cons_append, hread]
    rfl

lemma dumps_head : ∃ c cs, dumps v = c :: cs ∧ isBlank c = false ∧ c ≠ ']' := by
  cases v with
  | number n =>
    obtain ⟨c, cs, htext, hc⟩ := magnitude_cons n
    rw [dumps_number, dumpsNumber]
    cases n.negative with
    | true => exact ⟨'-', _, rfl, by decide, by decide⟩
    | false =>
      refine ⟨c, cs, htext, ?_, digit_ne hc (by decide)⟩
      simp [isBlank, digit_ne hc (by decide : Char.isDigit ' ' = false),
        digit_ne hc (by decide : Char.isDigit '\t' = false),
        digit_ne hc (by decide : Char.isDigit '\n' = false),
        digit_ne hc (by decide : Char.isDigit '\r' = false)]
  | bool b | infinity b => cases b <;> exact ⟨_, _, rfl, by decide, by decide⟩
  | _ => exact ⟨_, _, rfl, by decide, by decide⟩

lemma skipBlanks_dumps (rest : List Char) : skipBlanks (dumps v ++ rest) = dumps v ++ rest := by
  obtain ⟨c, cs, hd, hb, _⟩ := dumps_head v
  rw [hd, cons_append, skipBlanks_cons _ hb]

lemma dumpsItems_head (vs : List Json) :
    ∃ c cs, dumpsItems (v :: vs) = c :: cs ∧ isBlank c = false ∧ c ≠ ']' := by
  obtain ⟨c, cs, hd, hb, hne⟩ := dumps_head v
  cases vs with
  | nil => exact ⟨c, cs, hd, hb, hne⟩
  | cons w vs => exact ⟨c, _, by rw [dumpsItems_more, hd]; rfl, hb, hne⟩

lemma dumpsFields_head : ∀ (f : Text × Json) (fs : List (Text × Json)),
    ∃ cs, dumpsFields (f :: fs) = '"' :: cs
  | (k, v), [] => ⟨_, dumpsFields_one k v⟩
  | (k, v), f :: fs => ⟨_, dumpsFields_more k v f fs⟩

lemma stops_comma : Stops (',' :: cs) := stops_cons cs (by decide)
lemma stops_bracket : Stops (']' :: cs) := stops_cons cs (by decide)
lemma stops_brace : Stops ('}' :: cs) := stops_cons cs (by decide)

mutual
/-- ROUND TRIP: a value is read back from the start of a text. The induction follows the value; the
    fuel bounds the length of its text. -/
theorem readValue_dumps : ∀ (v : Json) (fuel : Nat) (rest : List Char), (dumps v).length ≤ fuel →
    Stops rest → readValue (fuel + 1) (dumps v ++ rest) = some (v, rest)
  | .null, _, _, _, _ => rfl
  | .bool true, _, _, _, _ => rfl
  | .bool false, _, _, _, _ => rfl
  | .nan, _, _, _, _ => rfl
  | .infinity false, _, _, _, _ => rfl
  | .infinity true, _, _, _, _ => rfl
  | .number n, fuel, rest, _, hr => by
    rw [dumps_number]
    exact readValue_number n fuel hr
  | .string s, fuel, rest, h, _ => by
    have hlen : s.length < fuel := by
      have := length_le_escaped s
      simp only [dumps_string, length_append, length_cons, length_nil] at h
      omega
    have htext : dumps (.string s) ++ rest = '"' :: (s.flatMap escapeUnit ++ '"' :: rest) := by
      simp [dumps_string]
    rw [htext, readValue_quote, readString_dumps s fuel rest hlen]
    rfl
  | .array [], _, _, _, _ => rfl
  | .array (v :: vs), fuel, rest, h, _ => by
    have htext : dumps (.array (v :: vs)) ++ rest =
        '[' :: (dumpsItems (v :: vs) ++ ']' :: rest) := by simp [dumps_array]
    simp only [dumps_array, length_append, length_cons, length_nil] at h
    obtain ⟨fuel, rfl⟩ : ∃ n, fuel = n + 1 := ⟨fuel - 1, by omega⟩
    obtain ⟨c, cs, hitems, hblank, hne⟩ := dumpsItems_head v vs
    have hread := readItems_dumps (v :: vs) fuel fuel rest (by simp) (by omega) (by omega)
    rw [htext]
    rw [hitems, cons_append] at hread ⊢
    rw [readValue_bracket hblank hne, hread]
    rfl
  | .object [], _, _, _, _ => rfl
  | .object (f :: fs), fuel, rest, h, _ => by
    have htext : dumps (.object (f :: fs)) ++ rest =
        '{' :: (dumpsFields (f :: fs) ++ '}' :: rest) := by simp [dumps_object]
    simp only [dumps_object, length_append, length_cons, length_nil] at h
    obtain ⟨fuel, rfl⟩ : ∃ n, fuel = n + 1 := ⟨fuel - 1, by omega⟩
    obtain ⟨cs, hfields⟩ := dumpsFields_head f fs
    have hread := readFields_dumps (f :: fs) fuel fuel rest (by simp) (by omega) (by omega)
    rw [htext]
    rw [hfields] at hread ⊢
    rw [cons_append, readValue_brace, show cs = ('"' :: cs).tail from rfl, hread]
    rfl

lemma readItems_dumps : ∀ (items : List Json) (n fuel : Nat) (rest : List Char), items ≠ [] →
    (dumpsItems items).length ≤ n → (dumpsItems items).length ≤ fuel →
    readItems (readValue (n + 1)) (fuel + 1) (dumpsItems items ++ ']' :: rest) = some (items, rest)
  | [v], n, fuel, rest, _, hn, _ => by
    have hread := readValue_dumps v n (']' :: rest) hn (stops_bracket rest)
    simp [readItems, dumpsItems_one, hread, skipBlanks_cons rest (by decide : isBlank ']' = false)]
  | v :: w :: vs, n, fuel, rest, _, hn, hf => by
    simp only [dumpsItems_more, length_append, length_cons] at hn hf
    obtain ⟨fuel, rfl⟩ : ∃ n, fuel = n + 1 := ⟨fuel - 1, by omega⟩
    have hread := readValue_dumps v n (',' :: (dumpsItems (w :: vs) ++ ']' :: rest)) (by omega)
      (stops_comma _)
    have hrest := readItems_dumps (w :: vs) n fuel rest (by simp) (by omega) (by omega)
    obtain ⟨c, cs, hitems, hblank, _⟩ := dumpsItems_head w vs
    have hskip : skipBlanks (dumpsItems (w :: vs) ++ ']' :: rest) =
        dumpsItems (w :: vs) ++ ']' :: rest := by
      rw [hitems, cons_append, skipBlanks_cons _ hblank]
    rw [readItems]
    simp [dumpsItems_more, hread, skipBlanks_cons _ (by decide : isBlank ',' = false), hskip, hrest]

lemma readFields_dumps : ∀ (fields : List (Text × Json)) (n fuel : Nat) (rest : List Char),
    fields ≠ [] → (dumpsFields fields).length ≤ n → (dumpsFields fields).length ≤ fuel →
    readFields (readValue (n + 1)) (fuel + 1) ((dumpsFields fields).tail ++ '}' :: rest) =
      some (fields, rest)
  | [(k, v)], n, fuel, rest, _, hn, hf => by
    have hk := length_le_escaped k
    simp only [dumpsFields_one, length_append, length_cons] at hn hf
    have hkey := readString_dumps k fuel (':' :: (dumps v ++ '}' :: rest)) (by omega)
    have hread := readValue_dumps v n ('}' :: rest) (by omega) (stops_brace rest)
    simp [readFields, dumpsFields_one, hkey, skipBlanks_cons _ (by decide : isBlank ':' = false),
      skipBlanks_dumps, hread, skipBlanks_cons rest (by decide : isBlank '}' = false)]
  | (k, v) :: f :: fs, n, fuel, rest, _, hn, hf => by
    have hk := length_le_escaped k
    obtain ⟨cs, hfields⟩ := dumpsFields_head f fs
    simp only [dumpsFields_more, length_append, length_cons] at hn hf
    obtain ⟨fuel, rfl⟩ : ∃ n, fuel = n + 1 := ⟨fuel - 1, by omega⟩
    have hrest := readFields_dumps (f :: fs) n fuel rest (by simp) (by omega) (by omega)
    have hkey := readString_dumps k (fuel + 1)
      (':' :: (dumps v ++ ',' :: (dumpsFields (f :: fs) ++ '}' :: rest))) (by omega)
    have hread := readValue_dumps v n (',' :: (dumpsFields (f :: fs) ++ '}' :: rest)) (by omega)
      (stops_comma _)
    rw [dumpsFields_more, readFields]
    rw [hfields] at hrest hkey hread ⊢
    simp only [tail_cons, cons_append, append_assoc] at hrest hkey hread ⊢
    simp [hkey, skipBlanks_cons _ (by decide : isBlank ':' = false), skipBlanks_dumps,
      hread, skipBlanks_cons _ (by decide : isBlank ',' = false),
      skipBlanks_cons _ (by decide : isBlank '"' = false), hrest]
end

/-! ### The text is printable -/

/-- Printable ASCII: neither a control character nor a line feed. -/
def Printable (c : Char) : Prop := 0x20 ≤ c.toNat ∧ c.toNat ≤ 0x7e

instance (c : Char) : Decidable (Printable c) := inferInstanceAs (Decidable (_ ∧ _))

lemma printable_of_all {cs : List Char} (h : (cs.all fun c => decide (Printable c)) = true) :
    ∀ c ∈ cs, Printable c := fun c hc => of_decide_eq_true (all_eq_true.1 h c hc)

lemma printable_digit (h : c.isDigit = true) : Printable c := by
  simp only [Char.isDigit, Bool.and_eq_true, decide_eq_true_eq] at h
  have hlow : 48 ≤ c.toNat := h.1
  have hhigh : c.toNat ≤ 57 := h.2
  exact ⟨by omega, by omega⟩

lemma escapeUnit_printable (u : Fin 65536) : ∀ c ∈ escapeUnit u, Printable c := by
  have hhex : ∀ d < 16, Printable (Nat.digitChar d) := by decide
  have hdigit (k : Nat) : Printable (Nat.digitChar (k % 16)) := hhex _ (Nat.mod_lt _ (by decide))
  have hback : Printable '\\' := by decide
  unfold escapeUnit
  cases hs : shortEscape? u.val with
  | some e =>
    have he : Printable e := by
      unfold shortEscape? at hs
      split at hs <;> cases hs <;> decide
    simp [hback, he]
  | none =>
    dsimp only
    split
    · have := ascii_toNat u.val (by omega)
      simp only [mem_singleton, forall_eq, Printable]
      omega
    · simp [unicodeEscape, hback, hdigit, (by decide : Printable 'u')]

lemma dumpsString_printable (s : Text) : ∀ c ∈ dumpsString s, Printable c := by
  simp only [dumpsString, forall_mem_append, forall_mem_cons, forall_mem_flatMap]
  exact ⟨⟨by decide, fun u _ => escapeUnit_printable u⟩, by decide, nofun⟩

lemma dumpsNumber_printable (n : Number) : ∀ c ∈ dumpsNumber n, Printable c := by
  have hdigits (d : Digits) : ∀ c ∈ d.chars, Printable c := fun c hc => printable_digit (d.digit c hc)
  have hfraction : ∀ c ∈ dumpsFraction n.fraction, Printable c := by
    cases n.fraction with
    | none => exact nofun
    | some d => exact forall_mem_cons.2 ⟨by decide, hdigits d⟩
  have hexponent : ∀ c ∈ dumpsExponent n.exponent, Printable c := by
    cases n.exponent with
    | none => exact nofun
    | some e =>
      refine forall_mem_cons.2 ⟨by decide, forall_mem_cons.2 ⟨?_, hdigits e.2⟩⟩
      split <;> decide
  have hmagnitude : ∀ c ∈ dumpsMagnitude n, Printable c := by
    simp only [dumpsMagnitude, forall_mem_append]
    exact ⟨hdigits (decimal n.whole), hfraction, hexponent⟩
  unfold dumpsNumber
  split
  · exact forall_mem_cons.2 ⟨by decide, hmagnitude⟩
  · exact hmagnitude

mutual
lemma dumps_printable : ∀ (v : Json), ∀ c ∈ dumps v, Printable c
  | .null | .bool true | .bool false | .nan | .infinity true | .infinity false =>
    printable_of_all rfl
  | .number n => dumpsNumber_printable n
  | .string s => dumpsString_printable s
  | .array items => by
    simp only [dumps_array, forall_mem_append, forall_mem_cons]
    exact ⟨⟨by decide, dumpsItems_printable items⟩, by decide, nofun⟩
  | .object fields => by
    simp only [dumps_object, forall_mem_append, forall_mem_cons]
    exact ⟨⟨by decide, dumpsFields_printable fields⟩, by decide, nofun⟩

lemma dumpsItems_printable : ∀ (items : List Json), ∀ c ∈ dumpsItems items, Printable c
  | [] => nofun
  | [v] => dumps_printable v
  | v :: w :: vs => by
    simp only [dumpsItems_more, forall_mem_append, forall_mem_cons]
    exact ⟨dumps_printable v, by decide, dumpsItems_printable (w :: vs)⟩

lemma dumpsFields_printable : ∀ (fields : List (Text × Json)), ∀ c ∈ dumpsFields fields, Printable c
  | [] => nofun
  | [(k, v)] => by
    show ∀ c ∈ dumpsString k ++ ':' :: dumps v, Printable c
    simp only [forall_mem_append, forall_mem_cons]
    exact ⟨dumpsString_printable k, by decide, dumps_printable v⟩
  | (k, v) :: f :: fs => by
    show ∀ c ∈ dumpsString k ++ ':' :: dumps v ++ ',' :: dumpsFields (f :: fs), Printable c
    simp only [forall_mem_append, forall_mem_cons]
    exact ⟨⟨dumpsString_printable k, by decide, dumps_printable v⟩, by decide,
      dumpsFields_printable (f :: fs)⟩
end

/-! ### The codec -/

/-- What was written is read back, with blanks behind it. -/
lemma loads_dumps_blank (t : List Char) (ht : skipBlanks t = []) (hstops : Stops t) :
    loads (dumps v ++ t) = some v := by
  have hread := readValue_dumps v (dumps v ++ t).length t (by simp) hstops
  rw [loads, skipBlanks_dumps, hread]
  exact if_pos ht

lemma loads_dumps : loads (dumps v) = some v := by
  rw [← append_nil (dumps v)]
  exact loads_dumps_blank v [] rfl stops_nil

end Json
