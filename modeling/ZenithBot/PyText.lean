import Mathlib.Data.List.DropRight

/-! The few operations on Python text that the server's checks are written with. -/

namespace Py

/-- `str.isspace` of one character: what `str.strip` removes. -/
def isSpace (c : Char) : Bool :=
  let n := c.toNat
  (0x09 ≤ n && n ≤ 0x0d) || (0x1c ≤ n && n ≤ 0x20) || n = 0x85 || n = 0xa0 || n = 0x1680 ||
    (0x2000 ≤ n && n ≤ 0x200a) || n = 0x2028 || n = 0x2029 || n = 0x202f || n = 0x205f ||
    n = 0x3000

/-- `not s.strip()`. -/
def blank (s : String) : Bool := s.toList.all isSpace

/-- `s.strip()`. -/
def strip (s : String) : String :=
  String.ofList ((s.toList.dropWhile isSpace).reverse.dropWhile isSpace).reverse

/-- Dropping at the end leaves the first element alone. -/
lemma dropWhile_rdropWhile {α : Type} (p : α → Bool) (l : List α) :
    ((l.dropWhile p).rdropWhile p).dropWhile p = (l.dropWhile p).rdropWhile p := by
  rw [List.dropWhile_eq_self_iff]
  intro hpos
  have hpre := List.rdropWhile_prefix p (l.dropWhile p)
  rw [hpre.getElem hpos]
  exact List.dropWhile_get_zero_not p l (Nat.lt_of_lt_of_le hpos hpre.length_le)

@[simp] lemma strip_strip (s : String) : strip (strip s) = strip s := by
  have h : ((s.toList.dropWhile isSpace).rdropWhile isSpace).dropWhile isSpace =
      (s.toList.dropWhile isSpace).rdropWhile isSpace := dropWhile_rdropWhile isSpace s.toList
  show String.ofList (((String.ofList _).toList.dropWhile isSpace).rdropWhile isSpace) = _
  rw [String.toList_ofList]
  show String.ofList ((((s.toList.dropWhile isSpace).rdropWhile isSpace).dropWhile
    isSpace).rdropWhile isSpace) = _
  rw [h, List.rdropWhile_idempotent]
  rfl

lemma strip_of_no_space {s : String} (h : ∀ c ∈ s.toList, isSpace c = false) : strip s = s := by
  have hdrop : ∀ l : List Char, (∀ c ∈ l, isSpace c = false) → l.dropWhile isSpace = l
    | [], _ => rfl
    | c :: cs, hl => List.dropWhile_cons_of_neg (by simp [hl c List.mem_cons_self])
  unfold strip
  rw [hdrop _ h, hdrop _ (by simpa using h), List.reverse_reverse, String.ofList_toList]

/-- A string as its code points, lone surrogates included. -/
abbrev Text := List Nat

def text (s : String) : Text := s.toList.map Char.toNat

/-- `s[:n]`. -/
def clip (n : Nat) (s : String) : String := String.ofList (s.toList.take n)

end Py
