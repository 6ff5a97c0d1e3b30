import Mathlib.Data.List.Basic

/-! Runs of a machine given by a total step function: a state, an operation, the next state.
    Everything an operation depends on (arguments, clock readings, generated identifiers, which of
    its effects fail) is part of the operation, so a run is a list of operations and "for every
    interleaving" is "for every list". The rules below package the induction over a run once:
    invariants (`run_inv`), invariants under a condition on each step (`run_inv_along`) and
    relations between an earlier and a later state (`run_rel`). -/

namespace Lib

variable {σ ο : Type*}
variable {R : σ → σ → Prop}

/-- The state reached from `s` by performing `ops` in order. -/
def run (step : σ → ο → σ) (s : σ) (ops : List ο) : σ := ops.foldl step s

variable (step : σ → ο → σ)

@[simp] lemma run_nil (s : σ) : run step s [] = s := rfl

@[simp] lemma run_cons (s : σ) (o : ο) (ops : List ο) :
    run step s (o :: ops) = run step (step s o) ops := rfl

lemma run_append (s : σ) (xs ys : List ο) :
    run step s (xs ++ ys) = run step (run step s xs) ys := List.foldl_append

/-- `A` holds of every operation of the run, at the state in which it is performed. -/
def Along (A : σ → ο → Prop) : σ → List ο → Prop
  | _, [] => True
  | s, o :: ops => A s o ∧ Along A (step s o) ops

instance decidableAlong {A : σ → ο → Prop} [∀ s o, Decidable (A s o)] :
    ∀ (s : σ) (ops : List ο), Decidable (Along step A s ops)
  | _, [] => isTrue trivial
  | s, o :: ops =>
    have := decidableAlong (A := A) (step s o) ops
    inferInstanceAs (Decidable (A s o ∧ Along step A (step s o) ops))

variable {step} {P : σ → Prop} {A : σ → ο → Prop}

/-- INVARIANT RULE: what every operation keeps, every run keeps. -/
theorem run_inv (hstep : ∀ s o, P s → P (step s o)) :
    ∀ (ops : List ο) (s : σ), P s → P (run step s ops)
  | [], _, h => h
  | o :: ops, s, h => run_inv hstep ops (step s o) (hstep s o h)

/-- INVARIANT RULE under a condition on each step of the run. -/
theorem run_inv_along (hstep : ∀ s o, A s o → P s → P (step s o)) :
    ∀ (ops : List ο) (s : σ), Along step A s ops → P s → P (run step s ops)
  | [], _, _, h => h
  | o :: ops, s, hA, h => run_inv_along hstep ops (step s o) hA.2 (hstep s o hA.1 h)

lemma along_append : ∀ (xs ys : List ο) (s : σ),
    Along step A s (xs ++ ys) ↔ Along step A s xs ∧ Along step A (run step s xs) ys
  | [], _, _ => (iff_of_eq (true_and _)).symm
  | x :: xs, ys, s => by
    exact (and_congr_right fun _ => along_append xs ys (step s x)).trans and_assoc.symm

/-- A condition on the operations alone. -/
lemma along_of_forall {B : ο → Prop} :
    ∀ (ops : List ο) (s : σ), (∀ o ∈ ops, B o) → Along step (fun _ => B) s ops
  | [], _, _ => trivial
  | o :: ops, s, h => ⟨h o List.mem_cons_self, along_of_forall ops (step s o) fun x hx =>
      h x (List.mem_cons_of_mem o hx)⟩

/-- RELATION RULE: a preorder that relates the states around every step relates the two ends of
    every run. -/
theorem run_rel (refl : ∀ s, R s s) (trans : ∀ a b c, R a b → R b c → R a c)
    (hinv : ∀ s o, P s → P (step s o)) (hstep : ∀ s o, P s → R s (step s o)) :
    ∀ (ops : List ο) (s : σ), P s → R s (run step s ops)
  | [], s, _ => refl s
  | o :: ops, s, h =>
    trans _ _ _ (hstep s o h) (run_rel refl trans hinv hstep ops (step s o) (hinv s o h))

/-! ### Histories -/

/-- The states a run passes through, both ends included. -/
def trace (step : σ → ο → σ) : σ → List ο → List σ
  | s, [] => [s]
  | s, o :: ops => s :: trace step (step s o) ops

lemma mem_trace : ∀ {ops : List ο} {s u : σ}, u ∈ trace step s ops ↔
    ∃ xs ys, ops = xs ++ ys ∧ u = run step s xs
  | [], s, u => by
    rw [trace, List.mem_singleton]
    constructor
    · rintro rfl
      exact ⟨[], [], rfl, rfl⟩
    · rintro ⟨xs, ys, h, rfl⟩
      rw [(List.append_eq_nil_iff.1 h.symm).1, run_nil]
  | o :: ops, s, u => by
    rw [trace, List.mem_cons, mem_trace]
    constructor
    · rintro (rfl | ⟨xs, ys, rfl, rfl⟩)
      · exact ⟨[], _, rfl, rfl⟩
      · exact ⟨o :: xs, ys, rfl, rfl⟩
    · rintro ⟨xs, ys, h, rfl⟩
      cases xs with
      | nil => exact .inl rfl
      | cons x xs =>
        obtain ⟨rfl, rfl⟩ := List.cons.inj h
        exact .inr ⟨xs, ys, rfl, rfl⟩

/-- HISTORY RULE: a transitive relation that relates the states around every step relates every
    earlier to every later state of a history. -/
theorem trace_pairwise (trans : ∀ a b c, R a b → R b c → R a c)
    (hinv : ∀ s o, A s o → P s → P (step s o)) (hstep : ∀ s o, A s o → P s → R s (step s o)) :
    ∀ (ops : List ο) (s : σ), Along step A s ops → P s → (trace step s ops).Pairwise R
  | [], _, _, _ => List.pairwise_singleton _ _
  | o :: ops, s, hA, h => by
    have hrest := trace_pairwise trans hinv hstep ops (step s o) hA.2 (hinv s o hA.1 h)
    refine List.pairwise_cons.2 ⟨fun u hu => ?_, hrest⟩
    have hfirst := hstep s o hA.1 h
    cases ops with
    | nil => rw [List.mem_singleton.1 hu]; exact hfirst
    | cons o' ops =>
      rcases List.mem_cons.1 hu with rfl | hu
      · exact hfirst
      · exact trans _ _ _ hfirst ((List.pairwise_cons.1 hrest).1 u hu)

/-- Such a relation relates the first state of a history to all of them. -/
lemma trace_head (refl : ∀ s, R s s) {ops : List ο} {s : σ} (h : (trace step s ops).Pairwise R) :
    ∀ u ∈ trace step s ops, R s u := by
  intro u hu
  cases ops with
  | nil => rw [List.mem_singleton.1 hu]; exact refl s
  | cons o ops =>
    rcases List.mem_cons.1 hu with rfl | hu
    · exact refl _
    · exact (List.pairwise_cons.1 h).1 u hu

end Lib
