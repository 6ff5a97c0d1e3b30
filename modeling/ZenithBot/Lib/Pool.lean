import Mathlib.Data.List.Basic

/-! A pool of tasks that share a state. Each task is at one of its program points; a move starts a
    task or lets one of those there are take its next step, and a step may change the shared state.
    An interleaving is a list of moves. What befalls a step (it goes through, it fails, the task is
    cancelled) is an argument of the move. -/

namespace Lib

structure Pool (σ τ : Type) where
  shared : σ
  tasks : List τ := []

namespace Pool
variable {σ τ α ο : Type}

/-- A task starts, or one that was started goes on. -/
inductive Move (α ο : Type) where
  | start (a : α)
  | advance (i : Nat) (o : ο)

variable (start : σ → α → σ × τ) (advance : σ → τ → ο → σ × τ)

def step (p : Pool σ τ) : Move α ο → Pool σ τ
  | .start a => ⟨(start p.shared a).1, p.tasks ++ [(start p.shared a).2]⟩
  | .advance i o =>
    match p.tasks[i]? with
    | none => p
    | some t => ⟨(advance p.shared t o).1, p.tasks.set i (advance p.shared t o).2⟩

variable {start advance} {p : Pool σ τ}

lemma step_none {i : Nat} {o : ο} (h : p.tasks[i]? = none) :
    p.step start advance (.advance i o) = p := by
  simp only [step, h]

lemma step_some {i : Nat} {o : ο} {t : τ} (h : p.tasks[i]? = some t) :
    p.step start advance (.advance i o) =
      ⟨(advance p.shared t o).1, p.tasks.set i (advance p.shared t o).2⟩ := by
  simp only [step, h]

end Pool

/-- A task of the pool after one of them has changed: the changed one, or another one as it was. -/
lemma getElem?_set_cases {τ : Type} {l : List τ} {i j : Nat} {t u : τ}
    (h : (l.set i t)[j]? = some u) : (j = i ∧ u = t) ∨ (j ≠ i ∧ l[j]? = some u) := by
  rw [List.getElem?_set] at h
  split at h
  · next heq =>
    split at h
    · exact .inl ⟨heq.symm, (Option.some.inj h).symm⟩
    · cases h
  · next hne => exact .inr ⟨Ne.symm hne, h⟩

lemma getElem?_concat_cases {τ : Type} {l : List τ} {j : Nat} {t u : τ}
    (h : (l ++ [t])[j]? = some u) : (j = l.length ∧ u = t) ∨ (j < l.length ∧ l[j]? = some u) := by
  by_cases hj : j < l.length
  · rw [List.getElem?_append_left hj] at h
    exact .inr ⟨hj, h⟩
  · rw [List.getElem?_append_right (by omega)] at h
    cases hk : j - l.length with
    | zero =>
      rw [hk] at h
      exact .inl ⟨by omega, (Option.some.inj h).symm⟩
    | succ k =>
      rw [hk] at h
      cases h

end Lib
