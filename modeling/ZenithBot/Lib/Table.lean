import Mathlib.Data.List.Nodup

/-! Tables as a database keeps them: a list of rows, no two with the same primary key. The key
    constraint is a field of the structure, so a table that breaks it cannot be built; `updateWhere`
    asks for a proof that the assignment leaves the key alone, `insert?` refuses a key in use.
    Each operation comes with its effect on membership and on lookup by key. -/

/-- Rows in insertion order, no two with the same `key`. -/
structure Table (ρ κ : Type) (key : ρ → κ) where
  rows : List ρ
  nodup : (rows.map key).Nodup

namespace Table
open List

variable {ρ κ : Type} {key : ρ → κ}
variable {t t' : Table ρ κ key} {p : ρ → Bool} {f : ρ → ρ} {r r' : ρ} {β : Type}
  {hf : ∀ r, key (f r) = key r} {col : ρ → Option β} {ok : ρ → ρ → Bool} {Q : ρ → Prop} {r0 : ρ}

instance : Membership ρ (Table ρ κ key) := ⟨fun t r => r ∈ t.rows⟩

lemma mem_def : r ∈ t ↔ r ∈ t.rows := Iff.rfl

/-- The table without rows. -/
def empty : Table ρ κ key := ⟨[], nodup_nil⟩

@[simp] lemma not_mem_empty (r : ρ) : r ∉ (empty : Table ρ κ key) := not_mem_nil

lemma eq_of_key (t : Table ρ κ key) (h : r ∈ t) (h' : r' ∈ t) (hk : key r = key r') :
    r = r' := inj_on_of_nodup_map t.nodup h h' hk

/-- `UPDATE … SET f WHERE p`. -/
def updateWhere (t : Table ρ κ key) (p : ρ → Bool) (f : ρ → ρ) (hf : ∀ r, key (f r) = key r) :
    Table ρ κ key where
  rows := t.rows.map fun r => if p r then f r else r
  nodup := by
    have hk : (key ∘ fun r => if p r then f r else r) = key := by
      funext r; by_cases h : p r <;> simp [h, hf]
    rw [map_map, hk]; exact t.nodup

lemma mem_updateWhere :
    r' ∈ t.updateWhere p f hf ↔ ∃ r ∈ t, (if p r then f r else r) = r' := mem_map

/-- A row after an update, and the row it was. Stated on the rows, so that it applies to an update
    whatever the proof that its key is kept. -/
lemma updateWhere_cases (h : r' ∈ t.rows.map fun r => if p r then f r else r) :
    ∃ r ∈ t, (p r = true ∧ r' = f r) ∨ (p r = false ∧ r' = r) := by
  obtain ⟨r, hr, rfl⟩ := mem_map.1 h
  refine ⟨r, hr, ?_⟩
  cases hp : p r <;> simp

lemma exists_updateWhere (h : r ∈ t) (hy : p r = true → Q (f r))
    (hn : p r = false → Q r) : ∃ r' ∈ t.rows.map fun r => if p r then f r else r, Q r' := by
  refine ⟨if p r then f r else r, mem_map_of_mem h, ?_⟩
  cases hp : p r with
  | true => exact hy hp
  | false => exact hn hp

/-- What a row keeps when it is updated holds of all rows after the update. -/
lemma forall_updateWhere (h : ∀ r ∈ t, Q r) (hf : ∀ r, Q r → Q (f r)) :
    ∀ r' ∈ t.rows.map fun r => if p r then f r else r, Q r' := by
  intro r' hr'
  obtain ⟨r, hr, ⟨_, rfl⟩ | ⟨_, rfl⟩⟩ := updateWhere_cases hr'
  · exact hf r (h r hr)
  · exact h r' hr

/-- An update that hits exactly the row `r₀`. -/
lemma mem_updateWhere_one (hr0 : r0 ∈ t) (hp : ∀ r ∈ t, p r = true ↔ r = r0) :
    (r' ∈ t.rows.map fun r => if p r then f r else r) ↔ (r' ∈ t ∧ r' ≠ r0) ∨ r' = f r0 := by
  rw [mem_map]
  constructor
  · rintro ⟨r, hr, rfl⟩
    by_cases hpr : p r = true
    · rw [if_pos hpr, (hp r hr).1 hpr]; exact .inr rfl
    · rw [if_neg hpr]; exact .inl ⟨hr, fun h => hpr ((hp r hr).2 h)⟩
  · rintro (⟨hr, hne⟩ | rfl)
    · exact ⟨r', hr, if_neg fun h => hne ((hp r' hr).1 h)⟩
    · exact ⟨r0, hr0, if_pos ((hp r0 hr0).2 rfl)⟩

lemma mem_updateWhere_key (hr0 : r0 ∈ t) (hit : p r0 = true)
    (hk : ∀ r, p r = true → key r = key r0) :
    (r' ∈ t.rows.map fun r => if p r then f r else r) ↔ (r' ∈ t ∧ r' ≠ r0) ∨ r' = f r0 :=
  mem_updateWhere_one hr0 fun r hr => ⟨fun h => t.eq_of_key hr hr0 (hk r h), fun h => h ▸ hit⟩

/-- An `UPDATE` under row constraints: `none` when a row it changes would break `ok old new`. -/
def update? (t : Table ρ κ key) (p : ρ → Bool) (f : ρ → ρ) (hf : ∀ r, key (f r) = key r)
    (ok : ρ → ρ → Bool) : Option (Table ρ κ key) :=
  if ∀ r ∈ t.rows, p r = true → ok r (f r) = true then some (t.updateWhere p f hf) else none

lemma update?_eq_some (h : t.update? p f hf ok = some t') :
    t' = t.updateWhere p f hf ∧ ∀ r ∈ t, p r = true → ok r (f r) = true := by
  unfold update? at h
  split at h
  · rename_i hok
    exact ⟨(Option.some.inj h).symm, hok⟩
  · cases h

lemma update?_of_ok (h : ∀ r ∈ t, p r = true → ok r (f r) = true) :
    t.update? p f hf ok = some (t.updateWhere p f hf) := if_pos h

/-- `DELETE … WHERE p`. -/
def deleteWhere (t : Table ρ κ key) (p : ρ → Bool) : Table ρ κ key where
  rows := t.rows.filter fun r => !p r
  nodup := t.nodup.sublist (Sublist.map key filter_sublist)

lemma mem_deleteWhere : r ∈ t.deleteWhere p ↔ r ∈ t ∧ p r = false := by
  simp [mem_def, deleteWhere]

/-- `INSERT`; `none` is a violated primary key. -/
def insert? [DecidableEq κ] (t : Table ρ κ key) (r : ρ) : Option (Table ρ κ key) :=
  if h : ∀ r' ∈ t.rows, key r' ≠ key r then
    some ⟨t.rows ++ [r], by
      rw [map_append, nodup_append]
      refine ⟨t.nodup, by simp, ?_⟩
      intro k hk k' hk'
      obtain ⟨r', hr', rfl⟩ := mem_map.1 hk
      simp only [map_cons, map_nil, mem_singleton] at hk'
      exact hk' ▸ h r' hr'⟩
  else none

lemma insert?_eq_some [DecidableEq κ] (h : t.insert? r = some t') :
    t'.rows = t.rows ++ [r] ∧ ∀ r' ∈ t, key r' ≠ key r := by
  unfold insert? at h
  split at h
  · rename_i hk
    cases h; exact ⟨rfl, hk⟩
  · cases h

lemma insert?_of_new [DecidableEq κ] (h : ∀ r' ∈ t, key r' ≠ key r) :
    ∃ t', t.insert? r = some t' := ⟨_, dif_pos h⟩

lemma mem_insert? [DecidableEq κ] {x : ρ} (h : t.insert? r = some t') :
    x ∈ t' ↔ x ∈ t ∨ x = r := by
  rw [mem_def, (insert?_eq_some h).1, mem_append, mem_singleton, mem_def]

/-- `SELECT COUNT(*) … WHERE p`. -/
def countWhere (t : Table ρ κ key) (p : ρ → Bool) : Nat := t.rows.countP p

lemma countWhere_updateWhere_le {q : ρ → Bool}
    (h : ∀ r ∈ t, p r = true → q (f r) = true → q r = true) :
    (t.updateWhere p f hf).countWhere q ≤ t.countWhere q := by
  unfold countWhere updateWhere
  rw [countP_map]
  apply countP_mono_left
  intro r hr hq
  simp only [Function.comp_apply] at hq
  split at hq
  · rename_i hp
    exact h r hr hp hq
  · exact hq

lemma countWhere_deleteWhere_le (t : Table ρ κ key) (p q : ρ → Bool) :
    (t.deleteWhere p).countWhere q ≤ t.countWhere q :=
  Sublist.countP_le filter_sublist

lemma countWhere_insert? [DecidableEq κ] (q : ρ → Bool) (h : t.insert? r = some t') :
    t'.countWhere q ≤ t.countWhere q + 1 := by
  unfold countWhere
  rw [(insert?_eq_some h).1, countP_append, countP_singleton]
  split <;> omega

/-- The values of a nullable column carry a unique index. -/
def UniqueOn {β : Type} (t : Table ρ κ key) (col : ρ → Option β) : Prop :=
  (t.rows.filterMap col).Nodup

instance {β : Type} [DecidableEq β] (t : Table ρ κ key) (col : ρ → Option β) :
    Decidable (t.UniqueOn col) := inferInstanceAs (Decidable (Nodup _))

lemma UniqueOn.eq (h : t.UniqueOn col) (hr : r ∈ t) (hr' : r' ∈ t) {b : β}
    (hb : col r = some b) (hb' : col r' = some b) : r = r' := by
  have aux : ∀ l : List ρ, (l.filterMap col).Nodup → r ∈ l → r' ∈ l → r = r' := by
    intro l
    induction l with
    | nil => intro _ h; cases h
    | cons x xs ih =>
      intro hn h1 h2
      have later : ∀ y ∈ xs, col y = some b → col x = some b → False := by
        intro y hy hyb hxb
        rw [filterMap_cons_some hxb, nodup_cons] at hn
        exact hn.1 (mem_filterMap.2 ⟨y, hy, hyb⟩)
      have tail : (xs.filterMap col).Nodup := by
        cases hx : col x with
        | none => rwa [filterMap_cons_none hx] at hn
        | some c => rw [filterMap_cons_some hx, nodup_cons] at hn; exact hn.2
      rcases mem_cons.1 h1 with rfl | h1' <;> rcases mem_cons.1 h2 with rfl | h2'
      · rfl
      · exact (later r' h2' hb' hb).elim
      · exact (later r h1' hb hb').elim
      · exact ih tail h1' h2'
  exact aux t.rows h hr hr'

lemma UniqueOn.updateWhere (h : t.UniqueOn col)
    (hc : ∀ r, col (f r) = col r) : (t.updateWhere p f hf).UniqueOn col := by
  have hcol : (col ∘ fun r => if p r then f r else r) = col := by
    funext r; by_cases hp : p r <;> simp [hp, hc]
  unfold UniqueOn Table.updateWhere
  rw [filterMap_map, hcol]; exact h

lemma UniqueOn.deleteWhere (h : t.UniqueOn col) (p : ρ → Bool) : (t.deleteWhere p).UniqueOn col :=
  h.sublist (filter_sublist.filterMap col)

lemma UniqueOn.insert? [DecidableEq κ] (h : t.UniqueOn col) (hr : col r = none)
    (hi : t.insert? r = some t') : t'.UniqueOn col := by
  unfold UniqueOn
  rw [(insert?_eq_some hi).1, filterMap_append, filterMap_cons_none hr,
    filterMap_nil, append_nil]
  exact h

section Find
variable [DecidableEq κ]
variable {k : κ}

/-- `SELECT * … WHERE key = k`. -/
def find? (t : Table ρ κ key) (k : κ) : Option ρ := t.rows.find? fun r => key r = k

lemma find?_eq_some : t.find? k = some r ↔ r ∈ t ∧ key r = k := by
  constructor
  · intro h
    exact ⟨mem_of_find?_eq_some h, by simpa using find?_some h⟩
  · rintro ⟨hr, rfl⟩
    cases hf : t.find? (key r) with
    | none => simpa using find?_eq_none.1 hf r hr
    | some r' =>
      have hk : key r' = key r := by simpa using find?_some hf
      rw [t.eq_of_key (mem_of_find?_eq_some hf) hr hk]

lemma find?_mem (h : t.find? k = some r) : r ∈ t :=
  (find?_eq_some.1 h).1

lemma find?_key (h : t.find? k = some r) : key r = k :=
  (find?_eq_some.1 h).2

lemma find?_eq_none : t.find? k = none ↔ ∀ r ∈ t, key r ≠ k := by
  simp [find?, mem_def]

lemma find?_updateWhere :
    (t.updateWhere p f hf).find? k = (t.find? k).map fun r => if p r then f r else r := by
  have hk : ((fun r => decide (key r = k)) ∘ fun r => if p r then f r else r) =
      fun r => decide (key r = k) := by
    funext r; by_cases hp : p r <;> simp [hp, hf]
  rw [find?, updateWhere, find?_map, hk, find?]

end Find

end Table
