import Mathlib.Data.List.Basic

/-! Guarded computations: a function that checks its input in order and raises at the first check
    that fails. A checked function is a `do` block of the three steps below (refuse, look up, check
    every element), and `bind_ok` peels a successful run of it apart into the facts each step left
    behind, so no proof about such a function has to unfold or split it. -/

namespace Lib

variable {ε α β : Type}
variable {x : Except ε α} {f : α → Except ε β} {e : ε} {bad : Prop} {P : ε → Prop} {o : Option α}
  {b : β} {a : α}

/-- `if bad: raise e`. -/
def refuseIf (bad : Prop) [Decidable bad] (e : ε) : Except ε Unit :=
  if bad then .error e else .ok ()

/-- A lookup whose failure raises `e`. -/
def getOr (o : Option α) (e : ε) : Except ε α :=
  match o with
  | some a => .ok a
  | none => .error e

/-- `for a in as: check a`. -/
def checkAll (check : α → Except ε Unit) : List α → Except ε Unit
  | [] => .ok ()
  | a :: as => do check a; checkAll check as

lemma bind_ok (h : x >>= f = .ok b) : ∃ a, x = .ok a ∧ f a = .ok b := by
  cases x with
  | error e => cases h
  | ok a => exact ⟨a, rfl, h⟩

lemma map_ok {f : α → β} (h : x.map f = .ok b) : ∃ a, x = .ok a ∧ b = f a := by
  cases x with
  | error e => cases h
  | ok a => cases h; exact ⟨a, rfl, rfl⟩

lemma bind_error (h : x >>= f = .error e) : x = .error e ∨ ∃ a, x = .ok a ∧ f a = .error e := by
  cases x with
  | error e' => exact .inl (by cases h; rfl)
  | ok a => exact .inr ⟨a, rfl, h⟩

/-- What holds of the errors of both parts holds of the errors of the whole. -/
lemma bind_errors (hx : ∀ e, x = .error e → P e)
    (hf : ∀ a, x = .ok a → ∀ e, f a = .error e → P e) (e : ε) (h : x >>= f = .error e) : P e := by
  rcases bind_error h with h | ⟨a, ha, h⟩
  · exact hx e h
  · exact hf a ha e h

lemma ok_bind (a : α) (f : α → Except ε β) : (Except.ok a >>= f) = f a := rfl

/-- Two continuations need only agree on what the first part can yield. -/
lemma bind_congr_ok {g : α → Except ε β} (h : ∀ a, x = .ok a → f a = g a) :
    x >>= f = x >>= g := by
  cases x with
  | error e => rfl
  | ok a => exact h a rfl

lemma refuseIf_ok [Decidable bad] {u : Unit} (h : refuseIf bad e = .ok u) : ¬bad := by
  unfold refuseIf at h
  split at h
  · cases h
  · assumption

lemma refuseIf_of_not [Decidable bad] (h : ¬bad) : refuseIf bad e = .ok () := if_neg h

lemma getOr_ok (h : getOr o e = .ok a) : o = some a := by
  cases o with
  | none => cases h
  | some b => cases h; rfl

/-- What a check that passed has shown. -/
lemma refuse_ok [Decidable bad] {g : Unit → Except ε β} (h : refuseIf bad e >>= g = .ok b) :
    ¬bad ∧ g () = .ok b := by
  obtain ⟨_, hr, h⟩ := bind_ok h
  exact ⟨refuseIf_ok hr, h⟩

lemma found_ok (h : getOr o e >>= f = .ok b) : ∃ a, o = some a ∧ f a = .ok b := by
  obtain ⟨a, ha, h⟩ := bind_ok h
  exact ⟨a, getOr_ok ha, h⟩

lemma ok_errors (e : ε) (h : Except.ok a = .error e) : P e := nomatch h

lemma refuseIf_errors [Decidable bad] (he : P e) (e' : ε)
    (h : refuseIf bad e = .error e') : P e' := by
  unfold refuseIf at h
  split at h <;> cases h
  exact he

lemma getOr_errors (he : P e) (e' : ε) (h : getOr o e = .error e') : P e' := by
  cases o <;> cases h
  exact he

lemma mapError_ok {ε' : Type} {f : ε → ε'} (h : x.mapError f = .ok a) : x = .ok a := by
  cases x with
  | error e => cases h
  | ok b => cases h; rfl

lemma checkAll_ok {check : α → Except ε Unit} : ∀ {as : List α} {u : Unit},
    checkAll check as = .ok u → ∀ a ∈ as, check a = .ok ()
  | [], _, _ => by simp
  | a :: as, u, h => by
    obtain ⟨_, ha, has⟩ := bind_ok h
    rw [List.forall_mem_cons]
    exact ⟨ha, checkAll_ok has⟩

end Lib
