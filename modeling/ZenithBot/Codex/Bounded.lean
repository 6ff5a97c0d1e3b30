import Mathlib
import ZenithBot.PyText

/-! What the Codex app-server sends with a request is cut to size before it is kept or shown: a hundred
    entries of each container, 240 characters of a key, and a budget of characters that the entries use
    up one after the other. An entry is given all that is left and charged afterwards, so the last one
    of an object goes over by its key, and the last one in it by another:

      remaining  ─▶  { key : { key : { key : … } } }     remaining + 240 + 240 + 240 -/

namespace Codex
open Py List

/-- What `json.loads` reads. A number is its literal; an array or object is the names of its entries,
    empty in an array, with the entry at each place. -/
inductive Value where
  | null
  | bool (b : Bool)
  | number (literal : Text)
  | str (s : Text)
  | node (object : Bool) (names : List Text) (item : Nat → Value)

namespace Value

/-- The characters of a string in `json.dumps(…, ensure_ascii=False)`. -/
def quoted (s : Text) : Nat :=
  2 + (s.map fun c => if c ∈ [8, 9, 10, 12, 13, 34, 92] then 2 else if c < 32 then 6 else 1).sum

/-- What the entries of a container weigh together. -/
def total (weight : Text → Nat) : List Text → (Nat → Nat) → Nat
  | [], _ => 0
  | name :: names, item => weight name + item 0 + total weight names fun i => item (i + 1)

/-- `len(json.dumps(value, ensure_ascii=False))`. -/
def width : Value → Nat
  | null => 4
  | bool b => if b then 4 else 5
  | number literal => literal.length
  | str s => quoted s
  | node object names item => 2 + 2 * (names.length - 1) +
    total (fun name => if object then quoted name + 2 else name.length) names fun i => (item i).width

/-- The characters of the strings and keys in a value. -/
def chars : Value → Nat
  | str s => s.length
  | node _ names item => total List.length names fun i => (item i).chars
  | _ => 0

/-- How many objects lie in one another. -/
def levels : Value → Nat
  | node object names item =>
    (if object then 1 else 0) + (Finset.range names.length).sup fun i => (item i).levels
  | _ => 0

/-- No two keys of one object agree in what is kept of them. -/
def Apart : Value → Prop
  | node object names item => (object = true → (names.map (List.take 240)).Nodup) ∧
    ∀ i < names.length, (item i).Apart
  | _ => True

end Value

def container (object : Bool) (es : List (Text × Value)) : Value :=
  .node object (es.map Prod.fst) fun i => (es.map Prod.snd).getD i .null

/-- `output_dict[key] = bounded`: a key that is there keeps its place. -/
def put : List (Text × Value) → Text × Value → List (Text × Value)
  | [], e => [e]
  | d :: ds, e => if d.1 = e.1 then e :: ds else d :: put ds e

def output (object : Bool) (es : List (Text × Value)) : Value :=
  container object (if object then es.foldl put [] else es)

/-- What is kept of a name. -/
def keyOf (object : Bool) (name : Text) : Text := if object then name.take 240 else []

/-- The loop over the entries of a container. -/
def boundedEntries (object : Bool) : List Text → (Nat → Nat → Value) → Nat → List (Text × Value)
  | [], _, _ => []
  | name :: names, bounded, budget =>
    let key := keyOf object name
    let item := bounded 0 budget
    let left := budget - (key.length + item.width)
    (key, item) :: if left = 0 then [] else boundedEntries object names (fun i => bounded (i + 1)) left

def boundedCodexInteractionValue : Value → Nat → Value
  | _, 0 => .str (text "[truncated]")
  | .str s, remaining => .str (s.take remaining)
  | .node object names item, remaining => output object
    (boundedEntries object (names.take 100) (fun i => boundedCodexInteractionValue (item i)) remaining)
  | value, _ => value

variable {object : Bool} {es ds : List (Text × Value)} {names : List Text}

/-! ### Size -/

lemma total_le {w w' : Text → Nat} (hw : ∀ k, w k ≤ w' k) : ∀ (ks : List Text) {f f' : Nat → Nat},
    (∀ i, f i ≤ f' i) → Value.total w ks f ≤ Value.total w' ks f'
  | [], _, _, _ => le_rfl
  | k :: ks, _, _, hf => Nat.add_le_add (Nat.add_le_add (hw k) (hf 0)) (total_le hw ks fun i => hf (i + 1))

lemma length_le_quoted (s : Text) : s.length ≤ Value.quoted s := by
  refine Nat.le_add_left_of_le ?_
  refine (length_map _).symm.le.trans (length_le_sum_of_one_le _ fun n hn => ?_)
  obtain ⟨c, -, rfl⟩ := mem_map.1 hn
  split
  · decide
  · split <;> decide

lemma chars_le_width (v : Value) : v.chars ≤ v.width := by
  induction v with
  | str s => exact length_le_quoted s
  | node object names item ih =>
    refine Nat.le_add_left_of_le (total_le (fun k => ?_) names ih)
    split
    · exact Nat.le_add_right_of_le (length_le_quoted k)
    · exact le_rfl
  | _ => exact Nat.zero_le _

lemma chars_cons (e : Text × Value) : (container object (e :: es)).chars =
    e.1.length + e.2.chars + (container object es).chars := rfl

lemma chars_put (e : Text × Value) : ∀ ds, (container object (put ds e)).chars ≤
    (container object ds).chars + (e.1.length + e.2.chars)
  | [] => (Nat.zero_add _).ge
  | d :: ds => by
    have := chars_put e ds
    unfold put
    split <;> simp only [chars_cons] at * <;> omega

lemma chars_foldl : ∀ es ds, (container object (es.foldl put ds)).chars ≤
    (container object ds).chars + (container object es).chars
  | [], _ => le_rfl
  | e :: es, ds => by
    have := chars_foldl es (put ds e)
    have := @chars_put object e ds
    simp only [foldl_cons, chars_cons] at *
    omega

lemma chars_output : (output object es).chars ≤ (container object es).chars := by
  unfold output
  split
  · exact (chars_foldl es []).trans (Nat.zero_add _).le
  · exact le_rfl

/-- LOOP: the entries before the last are paid for, and the last goes over by its key at most. -/
theorem chars_boundedEntries {K : Nat} : ∀ {names : List Text} {g : Nat → Nat → Value} {budget : Nat},
    0 < budget → (∀ i < names.length, ∀ b, 0 < b → (g i b).chars ≤ b + K) →
      (container object (boundedEntries object names g budget)).chars ≤
        budget + 240 * (if object then 1 else 0) + K
  | [], _, _, _, _ => Nat.zero_le _
  | name :: names, g, budget, hb, hg => by
    have hkey : (keyOf object name).length ≤ 240 * (if object then 1 else 0) := by
      cases object <;> simp [keyOf]
    have hitem := hg 0 (Nat.succ_pos _) budget hb
    have hwidth := chars_le_width (g 0 budget)
    simp only [boundedEntries, chars_cons]
    split
    · exact (Nat.add_le_add hkey hitem).trans (by omega)
    · have hrest := @chars_boundedEntries K _ (fun i => g (i + 1)) _ (Nat.pos_of_ne_zero ‹_›)
        fun i hi => hg (i + 1) (Nat.succ_lt_succ hi)
      omega

/-- SIZE: the budget, and a key for each level of objects. -/
theorem chars_bounded (v : Value) : ∀ {n : Nat}, 0 < n →
    (boundedCodexInteractionValue v n).chars ≤ n + 240 * v.levels := by
  induction v with
  | str s =>
    rintro (_ | n) hn
    · cases hn
    · simp [boundedCodexInteractionValue, Value.chars]
  | node object names item ih =>
    rintro (_ | n) hn
    · cases hn
    have hitem : ∀ i < (names.take 100).length, ∀ b, 0 < b →
        (boundedCodexInteractionValue (item i) b).chars ≤
          b + 240 * (Finset.range names.length).sup fun i => (item i).levels := by
      intro i hi b hb
      have hlevel := Finset.le_sup (f := fun i => (item i).levels)
        (Finset.mem_range.2 (hi.trans_le (length_take_le' _ _)))
      exact (ih i hb).trans (by omega)
    refine chars_output.trans ((chars_boundedEntries hn hitem).trans ?_)
    rw [Value.levels]
    omega
  | _ =>
    rintro (_ | n) hn
    · cases hn
    · exact Nat.zero_le _

/-! ### Again -/

lemma put_new (e : Text × Value) : ∀ {ds : List (Text × Value)}, e.1 ∉ ds.map Prod.fst → put ds e = ds ++ [e]
  | [], _ => rfl
  | d :: ds, h => by
    rw [map_cons, mem_cons, not_or] at h
    rw [put, if_neg (Ne.symm h.1), put_new e h.2, cons_append]

lemma foldl_put : ∀ {es ds : List (Text × Value)}, ((ds ++ es).map Prod.fst).Nodup →
    es.foldl put ds = ds ++ es
  | [], ds, _ => (append_nil ds).symm
  | e :: es, ds, h => by
    have hnew : e.1 ∉ ds.map Prod.fst := by
      simp only [map_append, map_cons, nodup_append] at h
      exact fun he => h.2.2 _ he _ mem_cons_self rfl
    rw [foldl_cons, put_new e hnew, foldl_put (by simpa using h)]
    simp

lemma output_eq (h : object = true → (es.map Prod.fst).Nodup) : output object es = container object es := by
  unfold output
  split
  · rename_i ho
    rw [foldl_put (by simpa using h ho), nil_append]
  · rfl

lemma keyOf_keyOf (name : Text) : keyOf object (keyOf object name) = keyOf object name := by
  cases object <;> simp [keyOf]

lemma boundedEntries_keys : ∀ (names : List Text) (g : Nat → Nat → Value) (budget : Nat),
    (boundedEntries object names g budget).map Prod.fst <+: names.map (keyOf object)
  | [], _, _ => prefix_rfl
  | name :: names, g, budget => by
    simp only [boundedEntries, map_cons, prefix_cons_inj]
    split
    · exact nil_prefix
    · exact boundedEntries_keys names _ _

/-- LOOP: entries that bounding leaves alone are given the same budgets, and left alone. -/
theorem boundedEntries_again {f : Value → Nat → Value} : ∀ {names : List Text} {g : Nat → Nat → Value}
    {budget : Nat}, 0 < budget → (∀ i < names.length, ∀ b, 0 < b → f (g i b) b = g i b) →
    let es := boundedEntries object names g budget
    boundedEntries object (es.map Prod.fst) (fun i => f ((es.map Prod.snd).getD i .null)) budget = es
  | [], _, _, _, _ => rfl
  | name :: names, g, budget, hb, hg => by
    have hitem := hg 0 (Nat.succ_pos _) budget hb
    simp only [boundedEntries, map_cons, getD_cons_zero, getD_cons_succ, keyOf_keyOf, hitem]
    split
    · rfl
    · rw [boundedEntries_again (Nat.pos_of_ne_zero ‹_›) fun i hi => hg (i + 1) (Nat.succ_lt_succ hi)]

/-- AGAIN: where keys stay apart, bounding with the same budget changes nothing. -/
theorem bounded_again (v : Value) : v.Apart → ∀ {n : Nat}, 0 < n →
    boundedCodexInteractionValue (boundedCodexInteractionValue v n) n = boundedCodexInteractionValue v n := by
  induction v with
  | str s =>
    rintro - (_ | n) hn
    · cases hn
    · simp [boundedCodexInteractionValue, take_take]
  | node object names item ih =>
    rintro ⟨hnames, hitems⟩ (_ | n) hn
    · cases hn
    have hagain := @boundedEntries_again object boundedCodexInteractionValue (names.take 100)
      (fun i => boundedCodexInteractionValue (item i)) _ hn fun i hi b hb =>
        ih i (hitems i (hi.trans_le (length_take_le' _ _))) hb
    have hkeys := @boundedEntries_keys object (names.take 100)
      (fun i => boundedCodexInteractionValue (item i)) (n + 1)
    simp only [boundedCodexInteractionValue]
    generalize boundedEntries object (names.take 100) _ _ = es at hagain hkeys
    have hnodup : object = true → (es.map Prod.fst).Nodup := by
      rintro rfl
      exact (hnames rfl).sublist (hkeys.sublist.trans ((take_sublist 100 names).map _))
    have hcut : (es.map Prod.fst).take 100 = es.map Prod.fst :=
      take_of_length_le (hkeys.length_le.trans (by simp))
    rw [output_eq hnodup]
    simp only [container, boundedCodexInteractionValue, hcut, hagain, output_eq hnodup]
  | _ =>
    rintro - (_ | n) hn
    · cases hn
    · rfl

/-- BOUNDED: at most the budget and one key for each level of objects; and where no two keys of one
    object agree in what is kept of them, bounding again changes nothing. -/
theorem bounded_value (v : Value) (n : Nat) (hn : 0 < n) :
    (boundedCodexInteractionValue v n).chars ≤ n + 240 * v.levels ∧
    (v.Apart → boundedCodexInteractionValue (boundedCodexInteractionValue v n) n =
      boundedCodexInteractionValue v n) :=
  ⟨chars_bounded v hn, fun h => bounded_again v h hn⟩

/-- Two keys, an object in an object, and a string of which eleven characters are kept. -/
theorem bounded_value_nested :
    let v := container true [([97], container true [([98], .str (replicate 9 98))]),
      ([99], .str (replicate 20 100))]
    0 < 30 ∧ v.Apart ∧ (boundedCodexInteractionValue v 30).chars = 1 + (1 + 9) + (1 + 11) ∧
      (boundedCodexInteractionValue v 30).chars ≤ 30 + 240 * v.levels ∧
      boundedCodexInteractionValue (boundedCodexInteractionValue v 30) 30 =
        boundedCodexInteractionValue v 30 := by
  intro v
  have happart : v.Apart := by
    refine ⟨fun _ => by decide, fun i hi => ?_⟩
    match i with
    | 0 => exact ⟨fun _ => by decide, fun j hj => by cases Nat.lt_one_iff.1 hj; trivial⟩
    | 1 => trivial
  have h := bounded_value v 30 (by decide)
  exact ⟨by decide, happart, by decide +kernel, h.1, h.2 happart⟩

/-- Three nested objects keep 720 characters of a budget of one; and a longer value in the place of an
    earlier one leaves less for the next. -/
theorem bounded_overruns :
    let key := List.replicate 240 97
    let nested := container true [(key, container true [(key, container true [(key, .null)])])]
    let clash := container true
      [(key ++ [1], .null), ([98], .str (List.replicate 8 98)), (key ++ [2], .str [1, 1])]
    1 + 251 < (boundedCodexInteractionValue nested 1).chars ∧
    boundedCodexInteractionValue (boundedCodexInteractionValue clash 257) 257 ≠
      boundedCodexInteractionValue clash 257 := by
  intro key nested clash
  refine ⟨by decide +kernel, fun h => ?_⟩
  have := congrArg Value.chars h
  revert this
  decide +kernel

end Codex
