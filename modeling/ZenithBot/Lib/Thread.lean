import Mathlib.Data.List.Chain

/-! Threads: two parties take turns, each message naming the one it answers and carrying its number.
    The messages are of any type; a `View` says where their fields are. A thread starts with number
    one and no parent, and every later message answers the one before it from the other side. -/

namespace Lib

/-- Where the fields of a message are. -/
structure View (μ ι ρ : Type) where
  id : μ → ι
  parent : μ → Option ι
  number : μ → Nat
  source : μ → ρ
  target : μ → ρ

variable {μ ι ρ : Type} (v : View μ ι ρ)

/-- `b` answers `a`: it names `a`, has the next number and goes back the way `a` came. -/
structure View.Answers (a b : μ) : Prop where
  parent : v.parent b = some (v.id a)
  number : v.number b = v.number a + 1
  source : v.source b = v.target a
  target : v.target b = v.source a

/-- The messages form one conversation, oldest first. -/
structure Thread (ms : List μ) : Prop where
  first : ∀ m ∈ ms.head?, v.number m = 1 ∧ v.parent m = none
  linked : ms.IsChain v.Answers

variable {v}

namespace Thread

variable {ms : List μ}

lemma nil : Thread v [] := ⟨by simp, .nil⟩

lemma single {m : μ} (hn : v.number m = 1) (hp : v.parent m = none) : Thread v [m] :=
  ⟨by simp [hn, hp], .singleton m⟩

/-- A message that answers the last one extends the thread. -/
lemma snoc {m last : μ} (h : Thread v ms) (hl : ms.getLast? = some last) (ha : v.Answers last m) :
    Thread v (ms ++ [m]) where
  first := by
    cases ms with
    | nil => simp at hl
    | cons x xs => simpa using h.first
  linked := by
    rw [List.isChain_append]
    refine ⟨h.linked, .singleton m, ?_⟩
    intro x hx y hy
    simp only [List.head?_cons, Option.mem_def, Option.some.injEq] at hy
    rw [Option.mem_def, hl, Option.some.injEq] at hx
    exact hx ▸ hy ▸ ha

lemma answers (h : Thread v ms) {k : Nat} {a b : μ} (ha : ms[k]? = some a) (hb : ms[k + 1]? = some b) :
    v.Answers a b := by
  obtain ⟨hk, rfl⟩ := List.getElem?_eq_some_iff.1 ha
  obtain ⟨hk', rfl⟩ := List.getElem?_eq_some_iff.1 hb
  exact List.isChain_iff_getElem.1 h.linked k hk'

lemma number (h : Thread v ms) : ∀ {k : Nat} {m : μ}, ms[k]? = some m → v.number m = k + 1
  | 0, m, hm => (h.first m (by rw [List.head?_eq_getElem?]; exact hm)).1
  | k + 1, m, hm => by
    have hk : k < ms.length := by
      have := (List.getElem?_eq_some_iff.1 hm).1
      omega
    have ha : ms[k]? = some ms[k] := List.getElem?_eq_getElem hk
    rw [(h.answers ha hm).number, h.number ha]

lemma last_number {last : μ} (h : Thread v ms) (hl : ms.getLast? = some last) :
    v.number last = ms.length := by
  rw [List.getLast?_eq_getElem?] at hl
  have hne : ms ≠ [] := by rintro rfl; simp at hl
  have hpos := List.length_pos_iff.2 hne
  rw [h.number hl]
  omega

end Thread

end Lib
