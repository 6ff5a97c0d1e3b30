import Mathlib.Data.List.Basic

/-! UTF-8 as Python's codec reads it. A byte is the character with its number. `pieces` cuts the bytes
    into characters and faults, a fault being as many bytes as could still have begun a character;
    strict decoding refuses a text with a fault, `errors="replace"` puts U+FFFD in the place of each. -/

namespace Lib.Utf8

/-- What a first byte asks for: how many more bytes, and the range of the next one. -/
def lead (byte : Nat) : Option (Nat × Nat × Nat) :=
  if 0xc2 ≤ byte ∧ byte ≤ 0xdf then some (1, 0x80, 0xbf)
  else if byte = 0xe0 then some (2, 0xa0, 0xbf)
  else if byte = 0xed then some (2, 0x80, 0x9f)
  else if 0xe1 ≤ byte ∧ byte ≤ 0xef then some (2, 0x80, 0xbf)
  else if byte = 0xf0 then some (3, 0x90, 0xbf)
  else if byte = 0xf4 then some (3, 0x80, 0x8f)
  else if 0xf1 ≤ byte ∧ byte ≤ 0xf3 then some (3, 0x80, 0xbf)
  else none

/-- The bytes after the first: the character unless one of them is missing, and the rest. -/
def continued (value : Nat) : Nat → Nat → Nat → List Char → Option Char × List Char
  | 0, _, _, cs => (some (Char.ofNat value), cs)
  | _ + 1, _, _, [] => (none, [])
  | n + 1, lo, hi, c :: cs =>
    if lo ≤ c.toNat ∧ c.toNat ≤ hi then continued (value * 64 + c.toNat % 64) n 0x80 0xbf cs
    else (none, c :: cs)

/-- The characters of a text, with `none` for each fault. The fuel bounds the bytes. -/
def pieces : Nat → List Char → List (Option Char)
  | fuel + 1, c :: cs =>
    if c.toNat < 0x80 then some c :: pieces fuel cs
    else
      match lead c.toNat with
      | none => none :: pieces fuel cs
      | some (n, lo, hi) =>
        let r := continued (c.toNat % (64 >>> n)) n lo hi cs
        r.1 :: pieces fuel r.2
  | _, _ => []

/-- `decode("utf-8", "replace")`. -/
def decodeReplace (bytes : List Char) : List Char :=
  (pieces bytes.length bytes).map fun c => c.getD '�'

/-- `decode("utf-8")`; `none` is `UnicodeDecodeError`. -/
def decode (bytes : List Char) : Option (List Char) :=
  if (pieces bytes.length bytes).all Option.isSome then some (decodeReplace bytes) else none

lemma pieces_ascii : ∀ {cs : List Char}, (∀ c ∈ cs, c.toNat < 0x80) → pieces cs.length cs = cs.map some
  | [], _ => rfl
  | c :: cs, h => by
    obtain ⟨hc, hcs⟩ := List.forall_mem_cons.1 h
    rw [List.length_cons, pieces, if_pos hc, pieces_ascii hcs, List.map_cons]

variable {cs : List Char}

lemma decodeReplace_ascii (h : ∀ c ∈ cs, c.toNat < 0x80) : decodeReplace cs = cs := by
  rw [decodeReplace, pieces_ascii h, List.map_map]
  exact List.map_id cs

lemma decode_ascii (h : ∀ c ∈ cs, c.toNat < 0x80) : decode cs = some cs := by
  rw [decode, pieces_ascii h, decodeReplace_ascii h]
  simp

/-- What decodes strictly has nothing to replace. -/
lemma decodeReplace_of_decode {text : List Char} (h : decode cs = some text) :
    decodeReplace cs = text := by
  unfold decode at h
  split at h
  · exact Option.some.inj h
  · cases h

end Lib.Utf8
