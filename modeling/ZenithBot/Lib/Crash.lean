import Mathlib.Logic.Basic

/-! Programs in a world that does not keep its promises. A program acts on the world step by step; what
    befalls its actions is a list of fates, unknown to the program: the action happens, it fails, the
    process dies before it, or another party acts first. So a program is done, has raised or has died, and
    leaves a world behind in all three cases.

    `Ensures` is the weakest precondition over every list of fates, with one postcondition for each end
    and one rule for each way to build a program. A theorem about a crash at any point has the invariant
    as its postcondition for `died`. -/

namespace Lib

/-- What befalls an action; `other` is a move of another party. -/
inductive Fate (ο : Type) where
  | happens
  | fails
  | dies
  | other (o : ο)

/-- How a program ends. -/
inductive End (ε α : Type) where
  | done (a : α)
  | raised (e : ε)
  | died
  deriving DecidableEq

/-- A program on worlds `σ`, among parties that make moves `ο`. -/
def Prog (σ ο ε α : Type) : Type := σ → List (Fate ο) → End ε α × σ × List (Fate ο)

namespace Prog

variable {σ ο ε α β : Type}
variable {h : ε → Prog σ ο ε α} {m : Prog σ ο ε α} {a : α} {f : σ → σ} {x : Except ε α}
  {fs fs' : List (Fate ο)} {bad : Prop} {s' : σ} {e : ε} {P : α → σ → Prop}
  {body : β → α → Prog σ ο ε β} {k : α → Prog σ ο ε β} {fates : List (Fate ο)}

protected def pure (a : α) : Prog σ ο ε α := fun s fs => (.done a, s, fs)

protected def bind (m : Prog σ ο ε α) (k : α → Prog σ ο ε β) : Prog σ ο ε β := fun s fs =>
  match m s fs with
  | (.done a, s', fs') => k a s' fs'
  | (.raised e, s', fs') => (.raised e, s', fs')
  | (.died, s', fs') => (.died, s', fs')

instance : Monad (Prog σ ο ε) where
  pure := Prog.pure
  bind := Prog.bind

def raise (e : ε) : Prog σ ο ε α := fun s fs => (.raised e, s, fs)

/-- `if bad: raise e`. -/
def refuse (bad : Prop) [Decidable bad] (e : ε) : Prog σ ο ε Unit :=
  if bad then raise e else Prog.pure ()

/-- A computation that only raises. -/
def lift : Except ε α → Prog σ ο ε α
  | .ok a => Prog.pure a
  | .error e => raise e

def read (f : σ → α) : Prog σ ο ε α := fun s fs => (.done (f s), s, fs)

/-- A look at the world that may raise. -/
def look (f : σ → Except ε α) : Prog σ ο ε α := fun s fs =>
  match f s with
  | .ok a => (.done a, s, fs)
  | .error e => (.raised e, s, fs)

/-- An action: it changes the world by `f`, or raises `e` and changes nothing. The others wait. -/
def act (e : ε) (f : σ → σ) : Prog σ ο ε Unit
  | s, [] => (.done (), f s, [])
  | s, .happens :: fs => (.done (), f s, fs)
  | s, .fails :: fs => (.raised e, s, fs)
  | s, .dies :: fs => (.died, s, fs)
  | s, .other _ :: fs => act e f s fs

/-- An action that changes nothing and may fail all the same. -/
def attempt (e : ε) : Prog σ ο ε Unit := act e id

/-- An action that cannot fail: it happens, unless the process dies before it. -/
def perform (f : σ → σ) : Prog σ ο ε Unit
  | s, [] => (.done (), f s, [])
  | s, .happens :: fs => (.done (), f s, fs)
  | s, .fails :: fs => (.done (), f s, fs)
  | s, .dies :: fs => (.died, s, fs)
  | s, .other _ :: fs => perform f s fs

/-- The others have the floor. -/
protected def yield (move : σ → ο → σ) : Prog σ ο ε Unit
  | s, .other o :: fs => Prog.yield move (move s o) fs
  | s, fs => (.done (), s, fs)

/-- `try: m except: h`; nothing handles the death of the process. -/
def handle (m : Prog σ ο ε α) (h : ε → Prog σ ο ε α) : Prog σ ο ε α := fun s fs =>
  match m s fs with
  | (.raised e, s', fs') => h e s' fs'
  | r => r

/-- `try: m finally: f`. -/
def finallyDo (m : Prog σ ο ε α) (f : Prog σ ο ε Unit) : Prog σ ο ε α := do
  let a ← handle m fun e => do f; raise e
  f
  return a

/-- The program under fates of its own. -/
def under (fates : List (Fate ο)) (m : Prog σ ο ε α) : Prog σ ο ε α := fun s fs =>
  let r := m s fates
  (r.1, r.2.1, fs)

/-- `for a in as`, with an accumulator. -/
def forEach (body : β → α → Prog σ ο ε β) : β → List α → Prog σ ο ε β
  | b, [] => Prog.pure b
  | b, a :: as => do
    let b ← body b a
    forEach body b as

/-! ### Postconditions -/

/-- What is to hold of the world at each of the three ends. -/
structure Post (σ ε α : Type) where
  done : α → σ → Prop
  raised : ε → σ → Prop
  died : σ → Prop

/-- The same at every end. -/
def Post.always (P : σ → Prop) : Post σ ε α := ⟨fun _ => P, fun _ => P, P⟩

/-- The postcondition `P` in place of the one for `done`. -/
def Post.andThen (post : Post σ ε β) (P : α → σ → Prop) : Post σ ε α := ⟨P, post.raised, post.died⟩

def Post.Met (post : Post σ ε α) : End ε α × σ × List (Fate ο) → Prop
  | (.done a, s, _) => post.done a s
  | (.raised e, s, _) => post.raised e s
  | (.died, s, _) => post.died s

/-- From `s` the program ends as `post` says, whatever befalls it. -/
def Ensures (m : Prog σ ο ε α) (post : Post σ ε α) (s : σ) : Prop := ∀ fs, post.Met (m s fs)

section Rules
variable {m : Prog σ ο ε α} {k : α → Prog σ ο ε β} {post : Post σ ε α} {after : Post σ ε β} {s : σ}
  {e : ε}

lemma Ensures.met (h : m.Ensures post s) (fs : List (Fate ο)) : post.Met (m s fs) := h fs

lemma Ensures.always {P : σ → Prop} (h : m.Ensures (.always P) s) (fs : List (Fate ο)) :
    P (m s fs).2.1 := by
  have met := h fs
  revert met
  match m s fs with
  | (.done _, _, _) => exact id
  | (.raised _, _, _) => exact id
  | (.died, _, _) => exact id

lemma Ensures.mono {post' : Post σ ε α} (h : m.Ensures post s)
    (hd : ∀ a s', post.done a s' → post'.done a s')
    (hr : ∀ e s', post.raised e s' → post'.raised e s') (hx : ∀ s', post.died s' → post'.died s') :
    m.Ensures post' s := by
  intro fs
  have met := h fs
  revert met
  match m s fs with
  | (.done a, s', _) => exact hd a s'
  | (.raised e, s', _) => exact hr e s'
  | (.died, s', _) => exact hx s'

lemma ensures_true : m.Ensures (.always fun _ => True) s := by
  intro fs
  match m s fs with
  | (.done _, _, _) => trivial
  | (.raised _, _, _) => trivial
  | (.died, _, _) => trivial

lemma ensures_pure (h : post.done a s) : (Pure.pure a : Prog σ ο ε α).Ensures post s := fun _ => h

lemma ensures_raise (h : post.raised e s) : (raise e : Prog σ ο ε α).Ensures post s := fun _ => h

lemma ensures_read {f : σ → α} (h : post.done (f s) s) :
    (read f : Prog σ ο ε α).Ensures post s := fun _ => h

lemma ensures_bind (h : m.Ensures (after.andThen fun a s' => (k a).Ensures after s') s) :
    (m >>= k).Ensures after s := by
  intro fs
  have met := h fs
  show after.Met (Prog.bind m k s fs)
  unfold Prog.bind
  revert met
  match m s fs with
  | (.done a, s', fs') => exact fun met => met fs'
  | (.raised _, _, _) => exact id
  | (.died, _, _) => exact id

lemma Ensures.imp (h : m.Ensures (post.andThen P) s)
    (hd : ∀ a s', P a s' → post.done a s') : m.Ensures post s :=
  h.mono hd (fun _ _ => id) fun _ => id

lemma Ensures.next (h : m.Ensures (after.andThen P) s)
    (hk : ∀ a s', P a s' → (k a).Ensures after s') : (m >>= k).Ensures after s :=
  ensures_bind (h.mono hk (fun _ _ => id) fun _ => id)

/-- BIND with the specification of the first part: what it ensures goes on to the second. -/
theorem Ensures.bind {first : Post σ ε α} (h : m.Ensures first s)
    (hd : ∀ a s', first.done a s' → (k a).Ensures after s')
    (hr : ∀ e s', first.raised e s' → after.raised e s')
    (hx : ∀ s', first.died s' → after.died s') : (m >>= k).Ensures after s :=
  ensures_bind (h.mono hd hr hx)

/-- BIND where one property holds at every end. -/
theorem always_then {P : σ → Prop} (h : m.Ensures (.always P) s)
    (hk : ∀ a s', P s' → (k a).Ensures (.always P) s') : (m >>= k).Ensures (.always P) s :=
  h.bind hk (fun _ _ => id) fun _ => id

lemma ensures_act {post : Post σ ε Unit} (hd : post.done () (f s)) (hr : post.raised e s)
    (hx : post.died s) : (act e f : Prog σ ο ε Unit).Ensures post s := by
  intro fs
  induction fs with
  | nil => exact hd
  | cons fate fs ih =>
    cases fate with
    | happens => exact hd
    | fails => exact hr
    | dies => exact hx
    | other => exact ih

lemma ensures_attempt {post : Post σ ε Unit} (hd : post.done () s) (hr : post.raised e s)
    (hx : post.died s) : (attempt e : Prog σ ο ε Unit).Ensures post s := ensures_act hd hr hx

lemma ensures_perform {post : Post σ ε Unit} (hd : post.done () (f s)) (hx : post.died s) :
    (perform f : Prog σ ο ε Unit).Ensures post s := by
  intro fs
  induction fs with
  | nil => exact hd
  | cons fate fs ih =>
    cases fate with
    | happens | fails => exact hd
    | dies => exact hx
    | other => exact ih

lemma ensures_refuse [Decidable bad] {post : Post σ ε Unit} (hr : bad → post.raised e s)
    (hd : ¬bad → post.done () s) : (refuse bad e : Prog σ ο ε Unit).Ensures post s := by
  unfold refuse
  split
  · exact ensures_raise (hr ‹_›)
  · exact ensures_pure (hd ‹_›)

lemma ensures_lift (hd : ∀ a, x = .ok a → post.done a s) (hr : ∀ e, x = .error e → post.raised e s) :
    (lift x : Prog σ ο ε α).Ensures post s := by
  cases x with
  | ok a => exact ensures_pure (hd a rfl)
  | error e => exact ensures_raise (hr e rfl)

/-! BIND of a part that changes nothing: what holds before it holds when it stops the program. -/

lemma attempt_then {k : Unit → Prog σ ο ε β} (hr : after.raised e s) (hx : after.died s)
    (hk : (k ()).Ensures after s) : (attempt e >>= k).Ensures after s :=
  ensures_bind (ensures_attempt hk hr hx)

lemma refuse_then [Decidable bad] {k : Unit → Prog σ ο ε β} (hr : after.raised e s)
    (hk : ¬bad → (k ()).Ensures after s) : (refuse bad e >>= k).Ensures after s :=
  ensures_bind (ensures_refuse (fun _ => hr) hk)

lemma read_then {f : σ → α} (hk : (k (f s)).Ensures after s) :
    ((read f : Prog σ ο ε α) >>= k).Ensures after s := ensures_bind (ensures_read hk)

lemma ensures_lift_bind (hd : ∀ a, x = .ok a → (k a).Ensures after s)
    (hr : ∀ e, x = .error e → after.raised e s) : (lift x >>= k).Ensures after s :=
  ensures_bind (ensures_lift hd hr)

lemma ensures_look {f : σ → Except ε α} (hd : ∀ a, f s = .ok a → post.done a s)
    (hr : ∀ e, f s = .error e → post.raised e s) : (look f : Prog σ ο ε α).Ensures post s := by
  intro fs
  unfold look
  cases hf : f s with
  | ok a => exact hd a hf
  | error e => exact hr e hf

/-- BIND of a look where one property holds at every end. -/
theorem look_then {f : σ → Except ε α} {P : σ → Prop} (hs : P s)
    (hk : ∀ a, f s = .ok a → (k a).Ensures (.always P) s) : (look f >>= k).Ensures (.always P) s :=
  ensures_bind (ensures_look hk fun _ _ => hs)

lemma ensures_yield {move : σ → ο → σ} {P : σ → Prop} (hmove : ∀ s o, P s → P (move s o))
    {post : Post σ ε Unit} (hd : ∀ s', P s' → post.done () s') (hs : P s) :
    (Prog.yield move : Prog σ ο ε Unit).Ensures post s := by
  intro fs
  induction fs generalizing s with
  | nil => exact hd s hs
  | cons fate fs ih =>
    cases fate with
    | other o => exact ih (hmove s o hs)
    | happens | fails | dies => exact hd s hs

lemma ensures_handle (hm : m.Ensures ⟨post.done, fun e s' => (h e).Ensures post s', post.died⟩ s) :
    (handle m h).Ensures post s := by
  intro fs
  have met := hm fs
  unfold handle
  revert met
  match m s fs with
  | (.done _, _, _) => exact id
  | (.raised e, s', fs') => exact fun met => met fs'
  | (.died, _, _) => exact id

lemma ensures_under (h : m.Ensures post s) : (under fates m).Ensures post s := by
  intro fs
  have met := h fates
  show post.Met ((m s fates).1, (m s fates).2.1, fs)
  revert met
  match m s fates with
  | (.done _, _, _) => exact id
  | (.raised _, _, _) => exact id
  | (.died, _, _) => exact id

/-- LOOP: what every round keeps, the loop keeps. -/
theorem ensures_forEach {I : β → σ → Prop}
    {as : List α} (hbody : ∀ a ∈ as, ∀ b s', I b s' → (body b a).Ensures (after.andThen I) s')
    (hd : ∀ b s', I b s' → after.done b s') :
    ∀ {b : β} {s : σ}, I b s → (forEach body b as).Ensures after s := by
  induction as with
  | nil => exact fun hs => ensures_pure (hd _ _ hs)
  | cons a as ih =>
    intro b s hs
    refine (hbody a List.mem_cons_self b s hs).next fun b' s' h => ?_
    exact ih (fun x hx => hbody x (List.mem_cons_of_mem _ hx)) h

end Rules

/-! ### One run -/

lemma bind_done {s : σ} (h : m s fs = (.done a, s', fs')) : (m >>= k) s fs = k a s' fs' := by
  show Prog.bind m k s fs = _
  unfold Prog.bind
  rw [h]

lemma bind_died {s : σ} (h : m s fs = (.died, s', fs')) : (m >>= k) s fs = (.died, s', fs') := by
  show Prog.bind m k s fs = _
  unfold Prog.bind
  rw [h]

lemma refuse_done [Decidable bad] (hb : ¬bad) (s : σ) (fs : List (Fate ο)) :
    (refuse bad e : Prog σ ο ε Unit) s fs = (.done (), s, fs) := by
  unfold refuse
  rw [if_neg hb]
  rfl

lemma attempt_nil (s : σ) : (attempt e : Prog σ ο ε Unit) s [] = (.done (), s, []) := rfl

lemma attempt_happens (s : σ) (fs : List (Fate ο)) :
    (attempt e : Prog σ ο ε Unit) s (.happens :: fs) = (.done (), s, fs) := rfl

lemma handle_done {s : σ} (hm : m s fs = (.done a, s', fs')) :
    handle m h s fs = (.done a, s', fs') := by
  unfold handle
  rw [hm]

lemma handle_died {s : σ} (hm : m s fs = (.died, s', fs')) : handle m h s fs = (.died, s', fs') := by
  unfold handle
  rw [hm]

/-! ### Programs that succeed when left alone -/

/-- From `s` the program ends as `post` says, and when nothing befalls it, it is done. -/
structure Sure (m : Prog σ ο ε α) (post : Post σ ε α) (s : σ) : Prop where
  safe : m.Ensures post s
  calm : ∃ a s', m s [] = (.done a, s', []) ∧ post.done a s'

section SureRules
variable {m : Prog σ ο ε α} {k : α → Prog σ ο ε β} {post : Post σ ε α} {after : Post σ ε β} {s : σ}
  {e : ε}

lemma sure_pure (h : post.done a s) : (Pure.pure a : Prog σ ο ε α).Sure post s :=
  ⟨ensures_pure h, a, s, rfl, h⟩

lemma sure_read {f : σ → α} (h : post.done (f s) s) : (read f : Prog σ ο ε α).Sure post s :=
  ⟨ensures_read h, f s, s, rfl, h⟩

lemma sure_act {post : Post σ ε Unit} (hd : post.done () (f s)) (hr : post.raised e s)
    (hx : post.died s) : (act e f : Prog σ ο ε Unit).Sure post s :=
  ⟨ensures_act hd hr hx, (), f s, rfl, hd⟩

lemma sure_attempt {post : Post σ ε Unit} (hd : post.done () s) (hr : post.raised e s)
    (hx : post.died s) : (attempt e : Prog σ ο ε Unit).Sure post s := sure_act hd hr hx

lemma sure_perform {post : Post σ ε Unit} (hd : post.done () (f s)) (hx : post.died s) :
    (perform f : Prog σ ο ε Unit).Sure post s :=
  ⟨ensures_perform hd hx, (), f s, rfl, hd⟩

lemma sure_refuse [Decidable bad] {post : Post σ ε Unit} (hb : ¬bad) (hd : post.done () s) :
    (refuse bad e : Prog σ ο ε Unit).Sure post s := by
  unfold refuse
  rw [if_neg hb]
  exact sure_pure hd

lemma sure_lift (hx : x = .ok a) (hd : post.done a s) :
    (lift x : Prog σ ο ε α).Sure post s := hx ▸ sure_pure hd

lemma sure_look {f : σ → Except ε α} (hf : f s = .ok a) (hd : post.done a s) :
    (look f : Prog σ ο ε α).Sure post s := by
  refine ⟨ensures_look (fun b hb => ?_) (fun e he => ?_), a, s, ?_, hd⟩
  · rw [hf] at hb
    cases hb
    exact hd
  · rw [hf] at he
    cases he
  · unfold look
    rw [hf]

lemma Sure.mono {post' : Post σ ε α} (h : m.Sure post s)
    (hd : ∀ a s', post.done a s' → post'.done a s')
    (hr : ∀ e s', post.raised e s' → post'.raised e s') (hx : ∀ s', post.died s' → post'.died s') :
    m.Sure post' s := by
  obtain ⟨hsafe, a, s', hrun, hpost⟩ := h
  exact ⟨hsafe.mono hd hr hx, a, s', hrun, hd a s' hpost⟩

lemma Sure.imp (h : m.Sure (post.andThen P) s)
    (hd : ∀ a s', P a s' → post.done a s') : m.Sure post s :=
  h.mono hd (fun _ _ => id) fun _ => id

/-- BIND where only the calm run of the first part leads to a second part that is sure to be done. -/
theorem sure_bind_calm (h : m.Ensures (after.andThen fun a s' => (k a).Ensures after s') s)
    (hrun : m s [] = (.done a, s', [])) (hk : (k a).Sure after s') : (m >>= k).Sure after s := by
  obtain ⟨b, s'', hrun', hpost⟩ := hk.calm
  exact ⟨ensures_bind h, b, s'', (bind_done hrun).trans hrun', hpost⟩

lemma sure_bind (h : m.Sure (after.andThen fun a s' => (k a).Sure after s') s) :
    (m >>= k).Sure after s := by
  obtain ⟨hsafe, a, s', hrun, hk⟩ := h
  exact sure_bind_calm (hsafe.imp fun _ _ h => h.safe) hrun hk

/-- BIND with the specification of the first part. -/
theorem Sure.next (h : m.Sure (after.andThen P) s)
    (hk : ∀ a s', P a s' → (k a).Sure after s') : (m >>= k).Sure after s :=
  sure_bind (h.mono hk (fun _ _ => id) fun _ => id)

lemma Sure.bind {first : Post σ ε α} (h : m.Sure first s)
    (hd : ∀ a s', first.done a s' → (k a).Sure after s')
    (hr : ∀ e s', first.raised e s' → after.raised e s')
    (hx : ∀ s', first.died s' → after.died s') : (m >>= k).Sure after s :=
  sure_bind (h.mono hd hr hx)

lemma sure_handle (hm : m.Sure ⟨post.done, fun e s' => (h e).Ensures post s', post.died⟩ s) :
    (handle m h).Sure post s := by
  obtain ⟨hsafe, a, s', hrun, hpost⟩ := hm
  exact ⟨ensures_handle hsafe, a, s', handle_done hrun, hpost⟩

/-- A part of the program that nothing befalls. -/
lemma sure_under (h : m.Sure post s) :
    (under [] m).Sure ⟨post.done, fun _ _ => False, fun _ => False⟩ s := by
  obtain ⟨_, a, s', hrun, hpost⟩ := h
  refine ⟨fun fs => ?_, a, s', ?_, hpost⟩
  · show Post.Met _ ((m s []).1, (m s []).2.1, fs)
    rw [hrun]
    exact hpost
  · show ((m s []).1, (m s []).2.1, _) = _
    rw [hrun]

/-- The process does not die once a part of the program has begun. -/
def Unbroken (fates : List (Fate ο)) : Prop := fates = [] ∨ ∃ rest, fates = .dies :: rest

/-- A part of the program that happens as a whole or not at all. -/
lemma ensures_unbroken (hu : Unbroken fates) (h : m.Sure post s)
    (hdies : ∀ rest, m s (.dies :: rest) = (.died, s, rest)) :
    (under fates m).Ensures ⟨post.done, fun _ _ => False, fun s' => s' = s⟩ s := by
  rcases hu with rfl | ⟨rest, rfl⟩
  · exact (sure_under h).safe.mono (fun _ _ => id) (fun _ _ => id) fun _ => False.elim
  · intro fs
    show Post.Met _ ((m s (.dies :: rest)).1, (m s (.dies :: rest)).2.1, fs)
    rw [hdies]
    exact rfl

/-- LOOP: the invariant speaks of what is still to do. -/
theorem sure_forEach {I : List α → β → σ → Prop}
    (hbody : ∀ a as b s', I (a :: as) b s' → (body b a).Sure (after.andThen (I as)) s')
    (hd : ∀ b s', I [] b s' → after.done b s') :
    ∀ {as : List α} {b : β} {s : σ}, I as b s → (forEach body b as).Sure after s
  | [], _, _, hs => sure_pure (hd _ _ hs)
  | a :: as, b, s, hs => by
    refine (hbody a as b s hs).next fun b' s' h => ?_
    exact sure_forEach hbody hd h

end SureRules

-- from here on a program is taken apart by the rules, not by running it
attribute [irreducible] Ensures

end Prog

end Lib
