import Mathlib.Data.List.Basic

/-! UTF-16: a text as 16-bit units, and back. Positions in one coding are not positions in the other, and
    not every position in the units is a position in the text:

        text      a    😀    b
        units     61   D83D DE00   62
        position  0    1    ✗      3

    `decode` is strict: it refuses a unit of a pair without the other. So a range of units that decodes,
    between ranges that decode, is a range of the text (`split_of_slices`). -/

namespace Lib.Utf16
open List

/-! ### Coding -/

/-- The units of one character. -/
def encodeChar (c : Char) : List ℕ :=
  if c.toNat < 0x10000 then [c.toNat]
  else [0xD800 + (c.toNat - 0x10000) / 0x400, 0xDC00 + (c.toNat - 0x10000) % 0x400]

def encode (text : List Char) : List ℕ := text.flatMap encodeChar

/-- The first unit of a pair. -/
def IsHigh (u : ℕ) : Prop := 0xD800 ≤ u ∧ u < 0xDC00

/-- The second unit of a pair. -/
def IsLow (u : ℕ) : Prop := 0xDC00 ≤ u ∧ u < 0xE000

instance (u : ℕ) : Decidable (IsHigh u) := inferInstanceAs (Decidable (_ ∧ _))
instance (u : ℕ) : Decidable (IsLow u) := inferInstanceAs (Decidable (_ ∧ _))

def ofPair (u v : ℕ) : Char := Char.ofNat (0x10000 + (u - 0xD800) * 0x400 + (v - 0xDC00))

/-- Strict decoding. -/
def decode : List ℕ → Option (List Char)
  | [] => some []
  | [u] => if IsHigh u ∨ IsLow u ∨ 0x10000 ≤ u then none else some [Char.ofNat u]
  | u :: v :: rest =>
    if IsHigh u then
      if IsLow v then (decode rest).map (ofPair u v :: ·) else none
    else if IsLow u ∨ 0x10000 ≤ u then none
    else (decode (v :: rest)).map (Char.ofNat u :: ·)

/-- `len(text.encode("utf-16-le")) // 2`. -/
def length (text : List Char) : ℕ := (encode text).length

/-- The text of the units `start` up to `stop`, if they are a text. -/
def slice (text : List Char) (start stop : ℕ) : Option (List Char) :=
  decode (((encode text).drop start).take (stop - start))

/-! ### The round trip -/

lemma toNat_range (c : Char) : c.toNat < 0xD800 ∨ 0xDFFF < c.toNat ∧ c.toNat < 0x110000 := c.valid

lemma toNat_ofNat {n : ℕ} (h : n < 0xD800 ∨ 0xDFFF < n ∧ n < 0x110000) : (Char.ofNat n).toNat = n := by
  have hv : n.isValidChar := h
  rw [Char.ofNat, dif_pos hv]
  rfl

@[simp] lemma encode_nil : encode [] = [] := rfl

lemma encode_cons (c : Char) (cs : List Char) : encode (c :: cs) = encodeChar c ++ encode cs := rfl

lemma encode_append (xs ys : List Char) : encode (xs ++ ys) = encode xs ++ encode ys :=
  flatMap_append

lemma decode_plain {u : ℕ} (hhigh : ¬IsHigh u) (hlow : ¬IsLow u) (hlt : u < 0x10000) (us : List ℕ) :
    decode (u :: us) = (decode us).map (Char.ofNat u :: ·) := by
  have hplain : ¬(IsLow u ∨ 0x10000 ≤ u) := fun h => h.elim hlow (Nat.not_le.2 hlt)
  cases us with
  | nil =>
    have hall : ¬(IsHigh u ∨ IsLow u ∨ 0x10000 ≤ u) := fun h => h.elim hhigh hplain
    exact if_neg hall
  | cons v rest => rw [decode, if_neg hhigh, if_neg hplain]

lemma decode_encodeChar (c : Char) (us : List ℕ) :
    decode (encodeChar c ++ us) = (decode us).map (c :: ·) := by
  have hc := toNat_range c
  unfold encodeChar
  split
  · rename_i hlt
    have hhigh : ¬IsHigh c.toNat := fun h => by unfold IsHigh at h; omega
    have hlow : ¬IsLow c.toNat := fun h => by unfold IsLow at h; omega
    rw [singleton_append, decode_plain hhigh hlow hlt, Char.ofNat_toNat]
  · have hhigh : IsHigh (0xD800 + (c.toNat - 0x10000) / 0x400) := by
      unfold IsHigh
      omega
    have hlow : IsLow (0xDC00 + (c.toNat - 0x10000) % 0x400) := by
      unfold IsLow
      omega
    have hpair : ofPair (0xD800 + (c.toNat - 0x10000) / 0x400) (0xDC00 + (c.toNat - 0x10000) % 0x400) =
        c := by
      unfold ofPair
      rw [show 0x10000 + (0xD800 + (c.toNat - 0x10000) / 0x400 - 0xD800) * 0x400 +
        (0xDC00 + (c.toNat - 0x10000) % 0x400 - 0xDC00) = c.toNat by omega, Char.ofNat_toNat]
    rw [cons_append, singleton_append, decode, if_pos hhigh, if_pos hlow, hpair]

/-- DECODE after ENCODE: every text is read back. -/
theorem decode_encode : ∀ text : List Char, decode (encode text) = some text
  | [] => rfl
  | c :: cs => by rw [encode_cons, decode_encodeChar, decode_encode cs, Option.map_some]

lemma encodeChar_plain {u : ℕ} (hhigh : ¬IsHigh u) (hlow : ¬IsLow u) (hlt : u < 0x10000) :
    encodeChar (Char.ofNat u) = [u] := by
  unfold IsHigh at hhigh
  unfold IsLow at hlow
  rw [encodeChar, toNat_ofNat (by omega), if_pos hlt]

lemma encodeChar_pair {u v : ℕ} (hu : IsHigh u) (hv : IsLow v) : encodeChar (ofPair u v) = [u, v] := by
  unfold IsHigh at hu
  unfold IsLow at hv
  have hhigh : 0xD800 + (0x10000 + (u - 0xD800) * 0x400 + (v - 0xDC00) - 0x10000) / 0x400 = u := by omega
  have hlow : 0xDC00 + (0x10000 + (u - 0xD800) * 0x400 + (v - 0xDC00) - 0x10000) % 0x400 = v := by omega
  rw [encodeChar, ofPair, toNat_ofNat (by omega), if_neg (by omega), hhigh, hlow]

/-- ENCODE after DECODE: what is read is exactly the units. -/
theorem encode_of_decode : ∀ {us : List ℕ} {text : List Char}, decode us = some text → encode text = us
  | [], text, h => by
    obtain rfl := Option.some.inj h
    rfl
  | [u], text, h => by
    rw [decode] at h
    split at h
    · cases h
    · rename_i hu
      obtain rfl := Option.some.inj h
      obtain ⟨hhigh, hlow, hlt⟩ : ¬IsHigh u ∧ ¬IsLow u ∧ ¬0x10000 ≤ u := by simpa [not_or] using hu
      rw [encode_cons, encodeChar_plain hhigh hlow (Nat.not_le.1 hlt), encode_nil, append_nil]
  | u :: v :: rest, text, h => by
    rw [decode] at h
    split at h
    · rename_i hhigh
      split at h
      · rename_i hlow
        obtain ⟨tail, htail, rfl⟩ := Option.map_eq_some_iff.1 h
        rw [encode_cons, encodeChar_pair hhigh hlow, encode_of_decode htail]
        rfl
      · cases h
    · rename_i hhigh
      split at h
      · cases h
      · rename_i hu
        obtain ⟨hlow, hlt⟩ : ¬IsLow u ∧ ¬0x10000 ≤ u := by simpa [not_or] using hu
        obtain ⟨tail, htail, rfl⟩ := Option.map_eq_some_iff.1 h
        rw [encode_cons, encodeChar_plain hhigh hlow (Nat.not_le.1 hlt), encode_of_decode htail]
        rfl

lemma encode_injective {xs ys : List Char} (h : encode xs = encode ys) : xs = ys := by
  have hx := decode_encode xs
  rw [h, decode_encode] at hx
  exact (Option.some.inj hx).symm

/-! ### Ranges -/

lemma length_append (xs ys : List Char) : length (xs ++ ys) = length xs + length ys := by
  rw [length, encode_append, List.length_append]
  rfl

lemma length_pos {xs : List Char} (h : xs ≠ []) : 0 < length xs := by
  cases xs with
  | nil => exact absurd rfl h
  | cons c cs =>
    rw [length, encode_cons, List.length_append, encodeChar]
    split
    · exact Nat.lt_of_lt_of_le Nat.one_pos (Nat.le_add_right _ _)
    · exact Nat.lt_of_lt_of_le Nat.two_pos (Nat.le_add_right _ _)

/-- The units of a part of a text are a text. -/
lemma slice_middle (a m b : List Char) :
    slice (a ++ m ++ b) (length a) (length (a ++ m)) = some m := by
  rw [slice, length_append, encode_append, encode_append, append_assoc, length,
    drop_left, Nat.add_sub_cancel_left, length, take_left]
  exact decode_encode m

lemma slice_start (a b : List Char) : slice (a ++ b) 0 (length a) = some a := by
  rw [slice, encode_append, drop_zero, Nat.sub_zero, length, take_left]
  exact decode_encode a

lemma slice_end (a b : List Char) : slice (a ++ b) (length a) (length (a ++ b)) = some b := by
  have h := slice_middle a b []
  rwa [append_nil] at h

/-- SPLIT: a range that decodes, between ranges that decode, is a range of the text. -/
theorem split_of_slices {text a m b : List Char} {start stop : ℕ} (hle : start ≤ stop)
    (hstop : stop ≤ length text) (ha : slice text 0 start = some a) (hm : slice text start stop = some m)
    (hb : slice text stop (length text) = some b) :
    text = a ++ m ++ b ∧ length a = start ∧ length (a ++ m) = stop := by
  have ha := encode_of_decode ha
  have hm := encode_of_decode hm
  have hb := encode_of_decode hb
  rw [drop_zero, Nat.sub_zero] at ha
  rw [length, take_of_length_le (by simp)] at hb
  have hunits : encode a ++ encode m ++ encode b = encode text := by
    rw [ha, hm, hb]
    conv_rhs => rw [← take_append_drop start (encode text),
      ← take_append_drop (stop - start) ((encode text).drop start), drop_drop]
    rw [append_assoc, show start + (stop - start) = stop by omega]
  have hstop : stop ≤ (encode text).length := hstop
  have hlena : length a = start := by
    rw [length, ha, length_take]
    omega
  have hlenm : length m = stop - start := by
    rw [length, hm, length_take, length_drop]
    omega
  refine ⟨encode_injective ?_, hlena, ?_⟩
  · rw [encode_append, encode_append, hunits]
  · rw [length_append]
    omega

end Lib.Utf16
