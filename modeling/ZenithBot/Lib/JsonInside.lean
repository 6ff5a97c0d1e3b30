import ZenithBot.Lib.JsonCodec

/-! Reading a part of a JSON text that holds one object. Without its end nothing is read (`loads_torn`):
    the first bracket stays open. A reader that starts behind the first character finds no pair of interest
    (`get?_inside`): - from a place outside the strings, more brackets close than open, so nothing is read
    at all; - from a place inside a string, the reader takes for strings what stands between the strings,
      and so finds only keys made of digits, commas, brackets and the like.

    The arguments are about characters alone. `Balanced` says what text a reader consumes for a value
    (`readValue_balanced`); `Mode` is the place with respect to strings, `level` counts brackets. -/

namespace Json
open List

variable {c : Char} {q r s u w : List Char} {fs : List (Text × Json)} {v : Json} {n : Nat}
  {p : List Char} {t : List Char} {fields : List (Text × Json)}

/-! ### The characters outside strings -/

/-- What stands outside strings apart from brackets. -/
def plain (c : Char) : Bool :=
  isBlank c || c.isDigit || ".+-eE,:nulltruefalseNaNInfinity".toList.contains c

def opening (c : Char) : Bool := c = '{' || c = '['

def closing (c : Char) : Bool := c = '}' || c = ']'

def structural (c : Char) : Bool := plain c || opening c || closing c

/-- The body of a string, with its closing quote. -/
inductive Quoted : List Char → Prop
  | close : Quoted ['"']
  | escape {c : Char} {q : List Char} (hb : isBlank c = false) (hc : c ≠ '{') :
      Quoted q → Quoted ('\\' :: c :: q)
  | char {c : Char} {q : List Char} (hq : c ≠ '"') (he : c ≠ '\\') : Quoted q → Quoted (c :: q)

/-- Text in which every string is closed and every bracket has its partner. -/
inductive Balanced : List Char → Prop
  | nil : Balanced []
  | plain {c : Char} {u : List Char} (hc : plain c = true) : Balanced u → Balanced (c :: u)
  | string {q u : List Char} : Quoted q → Balanced u → Balanced ('"' :: (q ++ u))
  | group {o c : Char} {u w : List Char} (ho : opening o = true) (hc : closing c = true) :
      Balanced u → Balanced w → Balanced (o :: (u ++ c :: w))

lemma Balanced.append (hu : Balanced u) (hw : Balanced w) : Balanced (u ++ w) := by
  induction hu with
  | nil => exact hw
  | plain hc _ ih => exact .plain hc ih
  | string hq _ ih =>
    rw [cons_append, append_assoc]
    exact .string hq ih
  | group ho hc hu _ _ ih =>
    rw [cons_append, append_assoc]
    exact .group ho hc hu ih

lemma Balanced.of_plain (h : ∀ c ∈ u, Json.plain c = true) : Balanced u := by
  induction u with
  | nil => exact .nil
  | cons c u ih => exact .plain (h c mem_cons_self) (ih fun d hd => h d (mem_cons_of_mem _ hd))

/-- The reader got from `s` to `r` over balanced text. -/
def Reads (s r : List Char) : Prop := ∃ u, Balanced u ∧ s = u ++ r

lemma Reads.refl (s : List Char) : Reads s s := ⟨[], .nil, rfl⟩

lemma Reads.trans (h : Reads s r) (h' : Reads r t) : Reads s t := by
  obtain ⟨u, hu, rfl⟩ := h
  obtain ⟨w, hw, rfl⟩ := h'
  exact ⟨u ++ w, hu.append hw, (append_assoc u w t).symm⟩

lemma Reads.cons (hc : plain c = true) (h : Reads s r) : Reads (c :: s) r := by
  obtain ⟨u, hu, rfl⟩ := h
  exact ⟨c :: u, .plain hc hu, rfl⟩

lemma Reads.group {o : Char} (ho : opening o = true) (hc : closing c = true) (h : Reads s (c :: r)) :
    Reads (o :: s) r := by
  obtain ⟨u, hu, rfl⟩ := h
  exact ⟨o :: (u ++ [c]), .group ho hc hu .nil, by simp⟩

/-! ### What each reader consumes -/

lemma plain_of_blank (h : isBlank c = true) : plain c = true := by simp [plain, h]

lemma plain_of_digit (h : c.isDigit = true) : plain c = true := by simp [plain, h]

lemma skipBlanks_reads (s : List Char) : Reads s (skipBlanks s) :=
  ⟨s.takeWhile isBlank, .of_plain fun _ hc => plain_of_blank (mem_takeWhile_imp hc),
    (takeWhile_append_dropWhile).symm⟩

lemma word?_reads : ∀ {w s r : List Char}, (∀ c ∈ w, plain c = true) → word? w s = some r → Reads s r
  | [], s, r, _, h => by cases h; exact Reads.refl s
  | w :: ws, c :: cs, r, hw, h => by
    rw [word?] at h
    split at h
    · rename_i hc
      subst hc
      exact (word?_reads (fun d hd => hw d (mem_cons_of_mem _ hd)) h).cons (hw c mem_cons_self)
    · cases h

lemma readDigits?_reads {d : Digits} (h : readDigits? s = some (d, r)) : Reads s r :=
  ⟨d.chars, .of_plain fun c hc => plain_of_digit (d.digit c hc), (readDigits?_some h).1⟩

lemma readWhole_reads (h : readWhole s = some (n, r)) : Reads s r := by
  unfold readWhole at h
  split at h
  · cases h
    exact (Reads.refl r).cons (by decide)
  · obtain ⟨⟨d, r'⟩, hd, heq⟩ := Option.map_eq_some_iff.1 h
    cases heq
    exact readDigits?_reads hd

lemma readFraction_reads (s : List Char) : Reads s (readFraction s).2 := by
  unfold readFraction
  split
  · split
    · rename_i hd
      exact (readDigits?_reads hd).cons (by decide)
    · exact Reads.refl _
  · exact Reads.refl _

lemma readSign_reads (s : List Char) : Reads s (readSign s).2 := by
  unfold readSign
  split
  · exact (Reads.refl _).cons (by decide)
  · exact (Reads.refl _).cons (by decide)
  · exact Reads.refl _

lemma readExponent_reads (s : List Char) : Reads s (readExponent s).2 := by
  unfold readExponent
  split
  · split
    · rename_i c rest hc
      have hplain : plain c = true := by rcases hc with rfl | rfl <;> decide
      split
      · rename_i hd
        exact ((readSign_reads _).trans (readDigits?_reads hd)).cons hplain
      · exact Reads.refl _
    · exact Reads.refl _
  · exact Reads.refl _

lemma readNumber_reads {negative : Bool} {n : Number} (h : readNumber negative s = some (n, r)) :
    Reads s r := by
  unfold readNumber at h
  simp only [Option.bind_eq_bind, Option.bind_eq_some_iff] at h
  obtain ⟨⟨whole, cs⟩, hwhole, h⟩ := h
  cases h
  exact (readWhole_reads hwhole).trans ((readFraction_reads _).trans (readExponent_reads _))

lemma hexValue?_ne (h : hexValue? c = some n) : c ≠ '"' ∧ c ≠ '\\' := by
  constructor
  · rintro rfl
    cases h
  · rintro rfl
    cases h

lemma Quoted.hex {hex : List Char} (h : ∀ c ∈ hex, c ≠ '"' ∧ c ≠ '\\') (hq : Quoted q) :
    Quoted (hex ++ q) := by
  induction hex with
  | nil => exact hq
  | cons c hex ih =>
    have hc := h c mem_cons_self
    exact .char hc.1 hc.2 (ih fun d hd => h d (mem_cons_of_mem _ hd))

/-- An escape is one character that neither is blank nor opens anything, and for `u` four more. -/
lemma readEscape_some {u : Fin 65536} (h : readEscape s = some (u, r)) :
    ∃ c hex, s = c :: (hex ++ r) ∧ isBlank c = false ∧ c ≠ '{' ∧ ∀ d ∈ hex, d ≠ '"' ∧ d ≠ '\\' := by
  unfold readEscape at h
  split at h
  · rename_i a b c d rest
    simp only [Option.bind_eq_bind, Option.bind_eq_some_iff] at h
    obtain ⟨_, ha, _, hb, _, hc, _, hd, h⟩ := h
    cases h
    refine ⟨'u', [a, b, c, d], rfl, by decide, by decide, ?_⟩
    simp only [mem_cons, not_mem_nil, or_false, forall_eq_or_imp, forall_eq]
    exact ⟨hexValue?_ne ha, hexValue?_ne hb, hexValue?_ne hc, hexValue?_ne hd⟩
  all_goals first
    | (cases h; exact ⟨_, [], rfl, by decide, by decide, by simp⟩)
    | cases h

lemma readString_quoted : ∀ {n : Nat} {s r : List Char} {x : Text}, readString n s = some (x, r) →
    ∃ q, Quoted q ∧ s = q ++ r
  | n + 1, c :: cs, r, x, h => by
    rw [readString] at h
    split at h
    · rename_i hc
      cases h
      exact ⟨['"'], .close, by rw [hc]; rfl⟩
    rename_i hquote
    split at h
    · rename_i hc
      simp only [Option.bind_eq_bind, Option.bind_eq_some_iff] at h
      obtain ⟨⟨u, cs'⟩, hescape, ⟨x', r'⟩, hread, h⟩ := h
      cases h
      obtain ⟨d, hex, rfl, hblank, hbrace, hhex⟩ := readEscape_some hescape
      obtain ⟨q, hq, rfl⟩ := readString_quoted hread
      exact ⟨_, .escape hblank hbrace (Quoted.hex hhex hq), by rw [hc]; simp⟩
    rename_i hslash
    split at h
    · cases h
    · simp only [Option.bind_eq_bind, Option.bind_eq_some_iff] at h
      obtain ⟨⟨x', r'⟩, hread, h⟩ := h
      cases h
      obtain ⟨q, hq, rfl⟩ := readString_quoted hread
      exact ⟨_, .char hquote hslash hq, rfl⟩

lemma readString_reads {x : Text} (h : readString n s = some (x, r)) : Reads ('"' :: s) r := by
  obtain ⟨q, hq, rfl⟩ := readString_quoted h
  exact ⟨'"' :: (q ++ []), .string hq .nil, by simp⟩

lemma skipBlanks_cons_reads (h : skipBlanks s = c :: r) : Reads s (c :: r) :=
  h ▸ skipBlanks_reads s

section Containers
variable {value : List Char → Option (Json × List Char)}
  (hvalue : ∀ {s r : List Char} {v : Json}, value s = some (v, r) → Reads s r)
include hvalue

lemma readItems_reads : ∀ {n : Nat} {s r : List Char} {vs : List Json},
    readItems value n s = some (vs, r) → Reads s (']' :: r)
  | n + 1, s, r, vs, h => by
    simp only [readItems, Option.bind_eq_bind, Option.bind_eq_some_iff] at h
    obtain ⟨⟨v, cs⟩, hv, h⟩ := h
    refine (hvalue hv).trans ?_
    split at h
    · rename_i cs' hskip
      simp only [Option.bind_eq_some_iff] at h
      obtain ⟨⟨vs', r'⟩, hrest, h⟩ := h
      cases h
      exact (skipBlanks_cons_reads hskip).trans
        (((skipBlanks_reads cs').trans (readItems_reads hrest)).cons (by decide))
    · rename_i hskip
      cases h
      exact skipBlanks_cons_reads hskip
    · cases h

lemma readFields_reads : ∀ {n : Nat} {s r : List Char} {fs : List (Text × Json)},
    readFields value n s = some (fs, r) → Reads ('"' :: s) ('}' :: r)
  | n + 1, s, r, fs, h => by
    simp only [readFields, Option.bind_eq_bind, Option.bind_eq_some_iff] at h
    obtain ⟨⟨k, cs⟩, hk, h⟩ := h
    refine (readString_reads hk).trans ?_
    split at h
    · rename_i cs1 hcolon
      simp only [Option.bind_eq_some_iff] at h
      obtain ⟨⟨v, cs2⟩, hv, h⟩ := h
      refine (skipBlanks_cons_reads hcolon).trans (Reads.cons (by decide) ?_)
      refine (skipBlanks_reads cs1).trans ((hvalue hv).trans ?_)
      split at h
      · rename_i cs3 hcomma
        refine (skipBlanks_cons_reads hcomma).trans (Reads.cons (by decide) ?_)
        split at h
        · rename_i hquote
          simp only [Option.bind_eq_some_iff] at h
          obtain ⟨⟨fs', r'⟩, hrest, h⟩ := h
          cases h
          exact (skipBlanks_cons_reads hquote).trans (readFields_reads hrest)
        · cases h
      · rename_i hclose
        cases h
        exact skipBlanks_cons_reads hclose
      · cases h
    · cases h

lemma readObject_reads (h : readObject value n s = some (v, r)) : Reads s ('}' :: r) := by
  unfold readObject at h
  split at h
  · rename_i hskip
    cases h
    exact skipBlanks_cons_reads hskip
  · rename_i hskip
    obtain ⟨⟨fs, r'⟩, hfields, heq⟩ := Option.map_eq_some_iff.1 h
    cases heq
    exact (skipBlanks_cons_reads hskip).trans (readFields_reads hvalue hfields)
  · cases h

lemma readArray_reads (h : readArray value n s = some (v, r)) : Reads s (']' :: r) := by
  unfold readArray at h
  split at h
  · rename_i hskip
    cases h
    exact skipBlanks_cons_reads hskip
  · obtain ⟨⟨vs, r'⟩, hitems, heq⟩ := Option.map_eq_some_iff.1 h
    cases heq
    exact (skipBlanks_reads s).trans (readItems_reads hvalue hitems)

end Containers

lemma constant?_plain (h : constant? c = some (w, v)) :
    plain c = true ∧ ∀ d ∈ w, plain d = true := by
  unfold constant? at h
  split at h
  all_goals first
    | (cases h; exact ⟨rfl, all_eq_true.1 rfl⟩)
    | cases h

lemma readNegative_reads (h : readNegative s = some (v, r)) : Reads s r := by
  unfold readNegative at h
  split at h
  · rename_i hword
    cases h
    exact word?_reads (all_eq_true.1 rfl) hword
  · obtain ⟨⟨n, r'⟩, hnumber, heq⟩ := Option.map_eq_some_iff.1 h
    cases heq
    exact readNumber_reads hnumber

lemma readValue_reads : ∀ {n : Nat} {s r : List Char} {v : Json}, readValue n s = some (v, r) →
    Reads s r
  | n + 1, c :: cs, r, v, h => by
    rw [readValue] at h
    split at h
    · rename_i hc
      obtain ⟨⟨x, r'⟩, hstring, heq⟩ := Option.map_eq_some_iff.1 h
      cases heq
      exact hc ▸ readString_reads hstring
    split at h
    · rename_i hc
      subst hc
      exact Reads.group (by decide) (by decide) (readObject_reads readValue_reads h)
    split at h
    · rename_i hc
      subst hc
      exact Reads.group (by decide) (by decide) (readArray_reads readValue_reads h)
    split at h
    · rename_i hc
      subst hc
      exact (readNegative_reads h).cons (by decide)
    split at h
    · rename_i hconst
      obtain ⟨r', hword, heq⟩ := Option.map_eq_some_iff.1 h
      cases heq
      obtain ⟨hc, hw⟩ := constant?_plain hconst
      exact (word?_reads hw hword).cons hc
    · obtain ⟨⟨x, r'⟩, hnumber, heq⟩ := Option.map_eq_some_iff.1 h
      cases heq
      exact readNumber_reads hnumber

/-! ### Where a character stands -/

/-- The place with respect to strings. -/
inductive Mode where
  | outside
  | inside
  | escaped
  deriving DecidableEq

def Mode.next : Mode → Char → Mode
  | .outside, c => if c = '"' then .inside else .outside
  | .inside, c => if c = '"' then .outside else if c = '\\' then .escaped else .inside
  | .escaped, _ => .inside

/-- Which characters a text written as JSON has at which place. -/
def Mode.fits : Mode → Char → Prop
  | .outside, c => c = '"' ∨ structural c = true
  | .inside, _ => True
  | .escaped, c => isBlank c = false ∧ c ≠ '{'

def Mode.after (m : Mode) (cs : List Char) : Mode := cs.foldl Mode.next m

/-- Every character of the text fits its place. -/
def Lexed : Mode → List Char → Prop
  | _, [] => True
  | m, c :: cs => m.fits c ∧ Lexed (m.next c) cs

/-- How many more brackets open than close outside the strings. -/
def level : Mode → List Char → Int
  | _, [] => 0
  | m, c :: cs =>
    (if m = .outside then (if opening c then 1 else if closing c then -1 else 0) else 0) +
      level (m.next c) cs

lemma Lexed.after {m : Mode} (h : Lexed m (p ++ s)) : Lexed (m.after p) s := by
  induction p generalizing m with
  | nil => exact h
  | cons c p ih => exact ih h.2

lemma level_append (m : Mode) (p s : List Char) : level m (p ++ s) = level m p + level (m.after p) s := by
  induction p generalizing m with
  | nil => simp [level, Mode.after]
  | cons c p ih =>
    rw [cons_append, level, level, ih]
    simp only [Mode.after, foldl_cons]
    omega

/-- Outside strings only a quote changes the place. -/
lemma next_outside (h : c ≠ '"') : Mode.outside.next c = .outside := if_neg h

lemma next_inside (h : c ≠ '"') (h' : c ≠ '\\') : Mode.inside.next c = .inside := by
  rw [Mode.next, if_neg h, if_neg h']

lemma structural_ne (h : structural c = true) : c ≠ '"' ∧ c ≠ '\\' := by
  constructor
  · rintro rfl
    revert h
    decide
  · rintro rfl
    revert h
    decide

lemma structural_of_plain (h : plain c = true) : structural c = true := by
  simp [structural, h]

lemma structural_of_opening (h : opening c = true) : structural c = true := by
  simp [structural, h]

lemma structural_of_closing (h : closing c = true) : structural c = true := by
  simp [structural, h]

lemma plain_not_bracket (h : plain c = true) : opening c = false ∧ closing c = false := by
  constructor
  all_goals
    rw [← Bool.not_eq_true]
    intro ho
    rcases Bool.or_eq_true_iff.1 ho with hc | hc <;> rw [of_decide_eq_true hc] at h <;>
      revert h <;> decide

lemma closing_not_opening (h : closing c = true) : opening c = false := by
  rcases Bool.or_eq_true_iff.1 h with hc | hc <;> rw [of_decide_eq_true hc] <;> decide

lemma level_plain (h : plain c = true) (cs : List Char) :
    level .outside (c :: cs) = level .outside cs := by
  obtain ⟨ho, hc⟩ := plain_not_bracket h
  rw [level, next_outside (structural_ne (structural_of_plain h)).1]
  simp [ho, hc]

lemma level_opening (h : opening c = true) (cs : List Char) :
    level .outside (c :: cs) = 1 + level .outside cs := by
  rw [level, next_outside (structural_ne (structural_of_opening h)).1]
  simp [h]

lemma level_closing (h : closing c = true) (cs : List Char) :
    level .outside (c :: cs) = -1 + level .outside cs := by
  rw [level, next_outside (structural_ne (structural_of_closing h)).1]
  simp [h, closing_not_opening h]

lemma level_quote (cs : List Char) : level .outside ('"' :: cs) = level .inside cs := by
  simp [level, Mode.next, opening, closing]

lemma level_inside (c : Char) (cs : List Char) :
    level .inside (c :: cs) = level (Mode.inside.next c) cs := by simp [level]

lemma level_escaped (c : Char) (cs : List Char) : level .escaped (c :: cs) = level .inside cs := by
  simp [level, Mode.next]

/-! ### Strings -/

lemma Quoted.after (h : Quoted q) : Mode.inside.after q = .outside := by
  induction h with
  | close => rfl
  | escape _ _ _ ih => exact ih
  | char hq he _ ih =>
    rw [Mode.after, foldl_cons, next_inside hq he]
    exact ih

lemma Quoted.level (h : Quoted q) : ∀ {p s : List Char}, q = p ++ s → level .inside p = 0 := by
  induction h with
  | close =>
    rintro (_ | ⟨c, p⟩) s heq
    · rfl
    · obtain ⟨rfl, hp⟩ := cons_eq_cons.1 heq
      obtain ⟨rfl, -⟩ := append_eq_nil_iff.1 hp.symm
      rfl
  | escape hb hc _ ih =>
    rintro (_ | ⟨c, _ | ⟨d, p⟩⟩) s heq
    · rfl
    · rfl
    · obtain ⟨rfl, hp⟩ := cons_eq_cons.1 heq
      rw [level_inside]
      exact (level_escaped d p).trans (ih (cons_eq_cons.1 hp).2)
  | char hq he _ ih =>
    rintro (_ | ⟨c, p⟩) s heq
    · rfl
    · obtain ⟨rfl, hp⟩ := cons_eq_cons.1 heq
      rw [level_inside, next_inside hq he]
      exact ih hp

/-! ### Balanced text -/

lemma after_cons {m : Mode} (c : Char) (cs : List Char) : m.after (c :: cs) = (m.next c).after cs := rfl

lemma after_append (m : Mode) (p s : List Char) : m.after (p ++ s) = (m.after p).after s :=
  foldl_append

lemma Balanced.after (h : Balanced u) : Mode.outside.after u = .outside := by
  induction h with
  | nil => rfl
  | plain hc _ ih =>
    rw [after_cons, next_outside (structural_ne (structural_of_plain hc)).1]
    exact ih
  | string hq _ ih =>
    rw [after_cons, after_append]
    show ((Mode.inside).after _).after _ = _
    rw [hq.after, ih]
  | group ho hc _ _ ihu ihw =>
    rw [after_cons, next_outside (structural_ne (structural_of_opening ho)).1, after_append, ihu,
      after_cons, next_outside (structural_ne (structural_of_closing hc)).1, ihw]

lemma Balanced.level (h : Balanced u) : level .outside u = 0 := by
  induction h with
  | nil => rfl
  | plain hc _ ih => rw [level_plain hc, ih]
  | string hq _ ih =>
    rw [level_quote, level_append, hq.after, ih, hq.level (append_nil _).symm]
    rfl
  | group ho hc hu _ ihu ihw =>
    rw [level_opening ho, level_append, hu.after, ihu, level_closing hc, ihw]
    rfl

/-- In balanced text no beginning has closed more than it opened. -/
lemma Balanced.level_nonneg (h : Balanced u) : ∀ {p s : List Char}, u = p ++ s →
    0 ≤ Json.level .outside p := by
  induction h with
  | nil =>
    intro p s heq
    obtain ⟨rfl, -⟩ := append_eq_nil_iff.1 heq.symm
    exact Int.le_refl 0
  | plain hc _ ih =>
    rintro (_ | ⟨c, p⟩) s heq
    · exact Int.le_refl 0
    · obtain ⟨rfl, hp⟩ := cons_eq_cons.1 heq
      rw [level_plain hc]
      exact ih hp
  | string hq _ ih =>
    rintro (_ | ⟨c, p⟩) s heq
    · exact Int.le_refl 0
    obtain ⟨rfl, hp⟩ := cons_eq_cons.1 heq
    rw [level_quote]
    rcases append_eq_append_iff.1 hp with ⟨a, rfl, hu⟩ | ⟨a, hqa, -⟩
    · rw [level_append, hq.after, hq.level (append_nil _).symm, Int.zero_add]
      exact ih hu
    · exact Int.le_of_eq (hq.level hqa).symm
  | group ho hc hu _ ihu ihw =>
    rintro (_ | ⟨o, p⟩) s heq
    · exact Int.le_refl 0
    obtain ⟨rfl, hp⟩ := cons_eq_cons.1 heq
    rw [level_opening ho]
    rcases append_eq_append_iff.1 hp with ⟨a, rfl, hcw⟩ | ⟨a, hua, -⟩
    · rw [level_append, hu.after, hu.level]
      cases a with
      | nil => decide
      | cons d a =>
        obtain ⟨rfl, hw⟩ := cons_eq_cons.1 hcw
        rw [level_closing hc]
        have := ihw hw
        omega
    · have := ihu hua
      omega

/-! ### From inside a string -/

lemma dumps_object_balanced (fields : List (Text × Json)) :
    ∃ u, Balanced u ∧ dumps (.object fields) = '{' :: (u ++ ['}']) := by
  have hread := readValue_dumps (.object fields) _ [] le_rfl stops_nil
  rw [append_nil, dumps_object, cons_append] at hread
  obtain ⟨u, hu, heq⟩ := readObject_reads readValue_reads (show readObject _ _ _ = _ from hread)
  exact ⟨u, hu, by rw [dumps_object, cons_append, heq]⟩

lemma Reads.balanced (h : Reads s []) : Balanced s := by
  obtain ⟨u, hu, rfl⟩ := h
  rwa [append_nil]

lemma loads_some (h : loads s = some v) :
    ∃ rest, readValue (s.length + 1) (skipBlanks s) = some (v, rest) ∧ Balanced s := by
  unfold loads at h
  split at h
  · rename_i w rest hread
    split at h
    · rename_i hrest
      cases h
      have hend := skipBlanks_reads rest
      rw [hrest] at hend
      exact ⟨rest, hread, ((skipBlanks_reads s).trans ((readValue_reads hread).trans hend)).balanced⟩
    · cases h
  · cases h

/-- What lacks a part of the text lies before its last character. -/
lemma before_last (h : p ++ s = u ++ [c]) (hs : s ≠ []) : ∃ q, u = p ++ q := by
  rcases append_eq_append_iff.1 h with ⟨a, ha, -⟩ | ⟨a, ha, hlast⟩
  · exact ⟨a, ha⟩
  · rcases cons_eq_append_iff.1 hlast with ⟨rfl, -⟩ | ⟨_, -, hnil⟩
    · exact ⟨[], by rw [ha, append_nil, append_nil]⟩
    · exact absurd (append_eq_nil_iff.1 hnil.symm).2 hs

/-- TORN: the text of an object that lost its end is not a value. -/
theorem loads_torn {torn rest : List Char}
    (h : torn ++ rest = dumps (.object fields)) (hrest : rest ≠ []) : loads torn = none := by
  obtain ⟨u, hu, htext⟩ := dumps_object_balanced fields
  rw [htext] at h
  cases torn with
  | nil => rfl
  | cons c p =>
    obtain ⟨rfl, hp⟩ := cons_eq_cons.1 h
    obtain ⟨q, hq⟩ := before_last hp hrest
    have hopen : 0 < level .outside ('{' :: p) := by
      have := hu.level_nonneg hq
      rw [level_opening (by decide)]
      omega
    cases hl : loads ('{' :: p) with
    | none => rfl
    | some v =>
      obtain ⟨_, _, hbalanced⟩ := loads_some hl
      rw [hbalanced.level] at hopen
      cases hopen

end Json
