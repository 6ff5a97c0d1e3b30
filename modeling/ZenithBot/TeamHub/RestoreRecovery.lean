import ZenithBot.TeamHub.Restore

/-! A restore is all or nothing. `Stage` lists the states a data directory can be in between two calls:
    nothing begun, a prepared transaction with every file either in place or waiting in `previous`, a
    committed one, and a finished one. Every action leads from one stage to another, so a death at any point
    leaves a stage; and from each the recovery, left alone, goes through (`Sure`).

    Two things are needed. Receipt and journal are committed by two writes, and nothing may befall the
    restore between them: a recovery rolls the journal back and can die before it takes the receipt
    away. And no call may leave a staging directory with a hard link in it and no journal (`Unlinked`):
    every later lock refuses it. -/

namespace TeamHub.Restore
open Lib Prog List

variable {φ : Type}
variable {n name : String} {f : Root φ → Root φ} {j : Journal}

/-! ### The snapshot and the directory -/

/-- A snapshot that passes the checks of its manifest, whose proofs are among the names looked at. -/
structure Site.Valid (site : Site φ) : Prop where
  named : ∀ p ∈ site.snapshot.proofs, isProofName p.1 = true
  nodup : (site.snapshot.proofs.map Prod.fst).Nodup
  few : site.snapshot.proofs.length ≤ 4096
  known : ∀ p ∈ site.snapshot.proofs, p.1 = bootstrapProof ∨ p.1 ∈ site.proofNames
  proofNames : ∀ n ∈ site.proofNames, isProofName n = true
  handoff : site.handoffMatches = true

/-- A data directory fenced for the restore, in which none has begun. -/
structure Fenced (site : Site φ) (w : Root φ) : Prop where
  database : (w.live database).isSome = true
  signingKey : (w.live signingKey).isSome = true
  fence : ∃ file, w.live fence = some file ∧ site.fenceMatches file = true ∧
    site.privateFence file = false
  few : ((site.managed.filter fun n => (w.live n).isSome).dedup).length ≤ 4104
  clean : w.staging = none ∧ w.journal = none ∧ w.receipt = none

/-- The live files after the restore: the snapshot's in place of the managed ones. -/
def Site.installed (site : Site φ) (old : String → Option φ) (n : String) : Option φ :=
  if n ∈ site.managed then site.fileOf n else old n

section Names
variable {files : List (String × φ)} {p : String × φ}

lemma fileIn_isSome : (fileIn files n).isSome = true ↔ n ∈ files.map Prod.fst := by
  simp [fileIn]

lemma fileIn_none (h : n ∉ files.map Prod.fst) : fileIn files n = none := by
  cases hf : fileIn files n with
  | none => rfl
  | some _ => exact absurd (fileIn_isSome.1 (by rw [hf]; rfl)) h

lemma fileIn_append (xs ys : List (String × φ)) (n : String) :
    fileIn (xs ++ ys) n = (fileIn xs n).or (fileIn ys n) := by
  unfold fileIn
  rw [find?_append]
  cases xs.find? fun p => p.1 = n <;> rfl

@[simp] lemma fileIn_singleton (p : String × φ) : fileIn [p] p.1 = some p.2 := by
  simp [fileIn]

lemma fileIn_concat (h : p.1 ∉ files.map Prod.fst) :
    fileIn (files ++ [p]) = Function.update (fileIn files) p.1 (some p.2) := by
  funext n
  rw [fileIn_append]
  by_cases hn : n = p.1
  · subst hn
    rw [fileIn_none h, Function.update_self, fileIn_singleton]
    rfl
  · have hnone : fileIn [p] n = none := fileIn_none (by simpa using hn)
    rw [Function.update_of_ne hn, hnone, Option.or_none]

lemma fileIn_of_mem (hn : (files.map Prod.fst).Nodup) (hp : p ∈ files) :
    fileIn files p.1 = some p.2 := by
  unfold fileIn
  cases hf : files.find? fun q => q.1 = p.1 with
  | none => exact absurd (find?_eq_none.1 hf p hp) (by simp)
  | some q =>
    have hq : q.1 = p.1 := by simpa using find?_some hf
    rw [inj_on_of_nodup_map hn (mem_of_find?_eq_some hf) hp hq]
    rfl

variable {site : Site φ}

lemma mem_files : n ∈ site.files.map Prod.fst ↔ n = database ∨ n = signingKey ∨
    n ∈ site.snapshot.proofs.map Prod.fst ∨ n = attachments := by
  simp [Site.files, Site.flatFiles]

lemma mem_proofs (hn : n ∈ site.files.map Prod.fst) (hp : isProofName n = true) :
    n ∈ site.snapshot.proofs.map Prod.fst := by
  rcases mem_files.1 hn with rfl | rfl | hmem | rfl
  · exact absurd hp (by decide)
  · exact absurd hp (by decide)
  · exact hmem
  · exact absurd hp (by decide)

lemma mem_managed : n ∈ site.managed ↔ n = database ∨ n = signingKey ∨ n = wal ∨
    n = shm ∨ n = bootstrapProof ∨ n = fence ∨ n ∈ site.proofNames ∨ n = attachments := by
  simp [Site.managed]

variable (h : site.Valid)
include h

lemma Site.Valid.managed_of_file (hn : n ∈ site.files.map Prod.fst) : n ∈ site.managed := by
  rw [mem_managed]
  rcases mem_files.1 hn with rfl | rfl | hp | rfl
  · exact .inl rfl
  · exact .inr (.inl rfl)
  · obtain ⟨p, hpm, rfl⟩ := mem_map.1 hp
    have := h.known p hpm
    tauto
  · simp

lemma Site.Valid.not_proof (hn : isProofName n = false) :
    n ∉ site.snapshot.proofs.map Prod.fst := by
  intro hmem
  obtain ⟨p, hp, rfl⟩ := mem_map.1 hmem
  rw [h.named p hp] at hn
  cases hn

lemma Site.Valid.nodup_flat : (site.flatFiles.map Prod.fst).Nodup := by
  have hd := h.not_proof (n := database) (by decide)
  have hk := h.not_proof (n := signingKey) (by decide)
  show (database :: signingKey :: site.snapshot.proofs.map Prod.fst).Nodup
  refine nodup_cons.2 ⟨?_, nodup_cons.2 ⟨hk, h.nodup⟩⟩
  exact not_mem_cons_of_ne_of_not_mem (by decide) hd

lemma Site.Valid.attachments_not_flat : attachments ∉ site.flatFiles.map Prod.fst := by
  have ha := h.not_proof (n := attachments) (by decide)
  show attachments ∉ database :: signingKey :: site.snapshot.proofs.map Prod.fst
  exact not_mem_cons_of_ne_of_not_mem (by decide)
    (not_mem_cons_of_ne_of_not_mem (by decide) ha)

lemma Site.Valid.nodup_files : (site.files.map Prod.fst).Nodup := by
  rw [Site.files, map_append, nodup_append]
  refine ⟨h.nodup_flat, by simp, fun a ha b hb => ?_⟩
  obtain rfl : b = attachments := by simpa using hb
  rintro rfl
  exact h.attachments_not_flat ha

lemma Site.Valid.fileOf_mem (hp : p ∈ site.files) : site.fileOf p.1 = some p.2 :=
  fileIn_of_mem h.nodup_files hp

/-- Files that are the snapshot's have its digests. -/
lemma Site.Valid.holds {files : String → Option φ}
    (hf : ∀ n ∈ site.files.map Prod.fst, files n = site.fileOf n) :
    site.holds files site.generation = true := by
  have at_file {p : String × φ} (hp : p ∈ site.files) : files p.1 = some p.2 :=
    (hf p.1 (mem_map_of_mem hp)).trans (h.fileOf_mem hp)
  have hd : files database = some site.snapshot.database :=
    at_file (p := (database, _)) (by simp [Site.files, Site.flatFiles])
  have hk : files signingKey = some site.snapshot.signingKey :=
    at_file (p := (signingKey, _)) (by simp [Site.files, Site.flatFiles])
  have ha : files attachments = some site.snapshot.attachments :=
    at_file (p := (attachments, _)) (by simp [Site.files])
  have hp : ∀ p ∈ site.snapshot.proofs, files p.1 = some p.2 := fun p hp =>
    at_file (by simp [Site.files, Site.flatFiles, hp])
  simp only [Site.holds, Site.verified, Site.generation, hd, hk, ha, Option.map_some, decide_true,
    Bool.true_and, Bool.and_true, all_map, all_eq_true, Function.comp_apply, decide_eq_true_eq]
  intro p hpm
  rw [hp p hpm]
  rfl

lemma isTarget_managed (hn : n ∈ site.managed) : isTarget n = true := by
  rcases mem_managed.1 hn with rfl | rfl | rfl | rfl | rfl | rfl | hp | rfl
  case inr.inr.inr.inr.inr.inr.inl => simp [isTarget, h.proofNames n hp]
  all_goals decide

end Names

section Start
variable {site : Site φ} {w₀ : Root φ} {live : String → Option φ} {state : Phase}

lemma sorted_perm (names : List String) : (sorted names).Perm names := perm_insertionSort _ _

lemma mem_oldTargets :
    n ∈ (site.journal live name state).oldTargets ↔ n ∈ site.managed ∧ (live n).isSome = true := by
  simp [Site.journal, (sorted_perm _).mem_iff]

lemma nodup_oldTargets : (site.journal live name state).oldTargets.Nodup :=
  (sorted_perm _).nodup_iff.2 (nodup_dedup _)

lemma mem_newTargets :
    n ∈ (site.journal live name state).newTargets ↔ n ∈ site.files.map Prod.fst :=
  (sorted_perm _).mem_iff

lemma Journal.mem_names : n ∈ j.names ↔ n ∈ j.oldTargets ∨ n ∈ j.newTargets := by
  by_cases ho : n ∈ j.oldTargets <;> simp [Journal.names, (sorted_perm _).mem_iff, ho]

/-- A name of the snapshot that is not an old target had no file. -/
lemma Site.Valid.not_old (h : site.Valid)
    (hn : n ∈ site.files.map Prod.fst) (ho : n ∉ (site.journal live name state).oldTargets) :
    live n = none := by
  cases hl : live n with
  | none => rfl
  | some _ => exact absurd (mem_oldTargets.2 ⟨h.managed_of_file hn, by rw [hl]; rfl⟩) ho

lemma generation_names : site.generation.proofs.map Prod.fst = site.snapshot.proofs.map Prod.fst := by
  simp [Site.generation]

lemma Site.Valid.retired_not_file (h : site.Valid) (hn : n ∈ [wal, shm, fence]) :
    n ∉ site.files.map Prod.fst := by
  intro hmem
  have hproof : isProofName n = false := by
    clear hmem
    revert n
    decide
  rcases mem_files.1 hmem with rfl | rfl | hp | rfl
  · revert hn; decide
  · revert hn; decide
  · exact h.not_proof hproof hp
  · revert hn; decide

lemma journal_valid (h : site.Valid) (hf : Fenced site w₀) (name : String) (state : Phase) :
    (site.journal w₀.live name state).Valid := by
  obtain ⟨file, hfile, _⟩ := hf.fence
  have hgen : (site.journal w₀.live name state).newGeneration.proofs.map Prod.fst =
      site.snapshot.proofs.map Prod.fst := generation_names
  refine ⟨⟨(sorted_perm _).length_eq.trans_le hf.few,
      fun n hn => isTarget_managed h (mem_oldTargets.1 hn).1, nodup_oldTargets⟩,
    ⟨(sorted_perm _).length_eq.trans_le ?_,
      fun n hn => isTarget_managed h (h.managed_of_file (mem_newTargets.1 hn)),
      (sorted_perm _).nodup_iff.2 h.nodup_files⟩, ?_, ?_,
    fun n hn hnew => h.retired_not_file hn (mem_newTargets.1 hnew), ?_⟩
  · have := h.few
    simp [Site.files, Site.flatFiles]
    omega
  · simp [mem_oldTargets, mem_managed, hf.database, hf.signingKey, hfile]
  · simp only [mem_newTargets, mem_files]
    simp
  · refine ⟨?_, hgen ▸ h.nodup, fun n hn => ?_, fun n hn hp => ?_⟩
    · simpa [Site.journal, Site.generation] using h.few
    · rw [hgen] at hn
      obtain ⟨p, hp, rfl⟩ := mem_map.1 hn
      exact ⟨h.named p hp, mem_newTargets.2 (mem_files.2 (.inr (.inr (.inl hn))))⟩
    · rw [hgen]
      exact mem_proofs (mem_newTargets.1 hn) hp

end Start

/-! ### Stages -/

section Stages
variable (site : Site φ) (old : String → Option φ)

/-- The old file of the name is in place. -/
def Kept (w : Root φ) (n : String) : Prop := w.prior n = none ∧ w.live n = old n

/-- Where the files of a name are while the transaction is prepared. -/
inductive Placed (w : Root φ) (n : String) : Prop
  | kept (h : Kept old w n)
  | moved (managed : n ∈ site.managed) (was : (old n).isSome = true) (prior : w.prior n = old n)
      (live : w.live n = none ∨ w.live n = site.fileOf n)
  | added (file : n ∈ site.files.map Prod.fst) (was : old n = none) (prior : w.prior n = none)
      (live : w.live n = site.fileOf n)

/-- Nothing has begun but copies. -/
structure Idle (w : Root φ) : Prop where
  live : w.live = old
  journal : w.journal = none
  receipt : w.receipt = none ∨ w.receipt = some (site.receipt .prepared)

/-- The directory is the one the journal names. -/
def Staged (name : String) (w : Root φ) : Prop := ∀ s, w.staging.map Prod.fst = some s → s = name

/-- The transaction is prepared. -/
structure Halfway (name : String) (w : Root φ) : Prop where
  staged : Staged name w
  journal : w.journal = some (site.journal old name .prepared)
  receipt : w.receipt = some (site.receipt .prepared)
  placed : ∀ n, Placed site old w n
  before : w.hasPrevious = false → w.live = old

/-- The transaction is committed. -/
structure Committed (name : String) (w : Root φ) : Prop where
  staged : Staged name w
  journal : w.journal = some (site.journal old name .committed)
  receipt : w.receipt = some (site.receipt .committed)
  live : w.live = site.installed old

/-- The restore is over. -/
structure Installed (w : Root φ) : Prop where
  staging : w.staging = none
  journal : w.journal = none
  receipt : w.receipt = some (site.receipt .committed)
  live : w.live = site.installed old

/-- The states a data directory can be in. -/
inductive Stage (w : Root φ) : Prop
  | idle (h : Idle site old w)
  | halfway (name : String) (h : Halfway site old name w)
  | committed (name : String) (h : Committed site old name w)
  | installed (h : Installed site old w)

/-- No abandoned staging directory holds a hard link. -/
def Unlinked (w : Root φ) : Prop :=
  w.journal.isSome = true ∨ ∀ p ∈ w.staging, p.2.linked = false

instance (w : Root φ) : Decidable (Unlinked w) := inferInstanceAs (Decidable (_ ∨ _))

/-- Done with `Q`, and at a stage at the other two ends. -/
def toward {α : Type} (Q : Root φ → Prop) : Post (Root φ) Err α :=
  ⟨fun _ => Q, fun _ => Stage site old, Stage site old⟩

end Stages

section Ends
variable {site : Site φ} {old : String → Option φ} {w : Root φ} {Q : Root φ → Prop}
  {k : Unit → Job φ Unit} (hs : Stage site old w)
include hs

/-- What changes nothing may end at the stage it was begun at. -/
lemma sure_anyOp (hQ : Q w) : (anyOp : Job φ Unit).Sure (toward site old Q) w :=
  sure_attempt hQ hs hs

lemma sure_anyOp_bind (hk : (k ()).Sure (toward site old Q) w) :
    (anyOp >>= k).Sure (toward site old Q) w := sure_bind (sure_attempt hk hs hs)

lemma sure_act_bind (hk : (k ()).Sure (toward site old Q) (f w)) :
    (act .os f >>= k).Sure (toward site old Q) w := sure_bind (sure_act hk hs hs)

end Ends

/-! ### Moving one file -/

/-- Only the files of one name differ. -/
structure Touch (n : String) (w w' : Root φ) : Prop where
  staging : w'.staging.map Prod.fst = w.staging.map Prod.fst
  journal : w'.journal = w.journal
  receipt : w'.receipt = w.receipt
  hasPrevious : w'.hasPrevious = w.hasPrevious
  live : ∀ m, m ≠ n → w'.live m = w.live m
  prior : ∀ m, m ≠ n → w'.prior m = w.prior m
  copy : ∀ m, m ≠ n → w'.copy m = w.copy m

section Moves
variable {w : Root φ} {n : String} (file : Option φ)

lemma Touch.refl : Touch n w w :=
  ⟨rfl, rfl, rfl, rfl, fun _ _ => rfl, fun _ _ => rfl, fun _ _ => rfl⟩

lemma touch_setLive : Touch n w (w.setLive n file) :=
  { Touch.refl with live := fun _ hm => Function.update_of_ne hm _ _ }

/-- A file put into, or taken out of, `previous`. -/
lemma touch_setPrevious : Touch n w (w.onStaging fun s => s.setPrevious n file) := by
  obtain ⟨_, _ | ⟨name, linked, staged, _ | previous⟩, _, _⟩ := w
  · exact .refl
  · exact .refl
  · exact { Touch.refl with prior := fun _ hm => Function.update_of_ne hm _ _ }

lemma Touch.trans {w' w'' : Root φ} (h : Touch n w w') (h' : Touch n w' w'') : Touch n w w'' where
  staging := h'.staging.trans h.staging
  journal := h'.journal.trans h.journal
  receipt := h'.receipt.trans h.receipt
  hasPrevious := h'.hasPrevious.trans h.hasPrevious
  live m hm := (h'.live m hm).trans (h.live m hm)
  prior m hm := (h'.prior m hm).trans (h.prior m hm)
  copy m hm := (h'.copy m hm).trans (h.copy m hm)

lemma touch_putBack : Touch n w (w.putBack n) := (touch_setPrevious _).trans (touch_setLive _)

@[simp] lemma setLive_live_self : (w.setLive n file).live n = file :=
  Function.update_self _ _ _

@[simp] lemma putBack_live_self : (w.putBack n).live n = w.prior n := Function.update_self _ _ _

@[simp] lemma putBack_prior_self : (w.putBack n).prior n = none := by
  obtain ⟨_, _ | ⟨name, linked, staged, _ | previous⟩, _, _⟩ := w
  · rfl
  · rfl
  · exact Function.update_self _ _ _

lemma prior_none (h : w.hasPrevious = false) (n : String) : w.prior n = none := by
  obtain ⟨_, _ | ⟨name, linked, staged, _ | previous⟩, _, _⟩ := w
  · rfl
  · rfl
  · cases h

/-- The directory with the old files is the one the journal names. -/
lemma Staged.hasStaging (h : Staged name w) (hp : w.hasPrevious = true) :
    w.hasStaging name = true := by
  obtain ⟨_, _ | ⟨s, _⟩, _, _⟩ := w
  · cases hp
  · exact decide_eq_true (h s rfl)

lemma Staged.none (h : Staged name w) (hs : w.hasStaging name = false) : w.staging = none := by
  obtain ⟨_, _ | ⟨s, _⟩, _, _⟩ := w
  · rfl
  · exact absurd (h s rfl) (of_decide_eq_false hs)

variable {w' : Root φ} {site : Site φ} {old : String → Option φ} {name m : String}

lemma Touch.kept (h : Touch n w w') (hm : m ≠ n) (hk : Kept old w m) : Kept old w' m :=
  ⟨(h.prior m hm).trans hk.1, (h.live m hm).trans hk.2⟩

lemma Touch.placed (h : Touch n w w') (hm : m ≠ n) (hp : Placed site old w m) :
    Placed site old w' m := by
  have hprior := h.prior m hm
  have hlive := h.live m hm
  cases hp with
  | kept hk => exact .kept (h.kept hm hk)
  | moved managed was prior live => exact .moved managed was (hprior.trans prior) (hlive ▸ live)
  | added file was prior live => exact .added file was (hprior.trans prior) (hlive.trans live)

/-- MOVE: a transaction stays prepared when the files of one name move to another allowed place. -/
theorem Halfway.touch (hw : Halfway site old name w) (h : Touch n w w') (hp : w.hasPrevious = true)
    (hn : Placed site old w' n) : Halfway site old name w' where
  staged s hs := hw.staged s (h.staging ▸ hs)
  journal := h.journal.trans hw.journal
  receipt := h.receipt.trans hw.receipt
  placed m := by
    by_cases hm : m = n
    · exact hm ▸ hn
    · exact h.placed hm (hw.placed m)
  before hf := by
    rw [h.hasPrevious, hp] at hf
    cases hf

end Moves

/-! ### Recovery -/

section Recovery
variable {site : Site φ} {old : String → Option φ} {w : Root φ} {name : String}

/-- The transaction is still written down, and every old file is in place again. -/
structure Undone (site : Site φ) (old : String → Option φ) (name : String) (w : Root φ) : Prop where
  staged : Staged name w
  journal : w.journal = some (site.journal old name .prepared)
  receipt : w.receipt = some (site.receipt .prepared)
  kept : ∀ n, Kept old w n

lemma Undone.live (h : Undone site old name w) : w.live = old := funext fun n => (h.kept n).2

lemma Undone.stage (h : Undone site old name w) : Stage site old w :=
  .halfway name ⟨h.staged, h.journal, h.receipt, fun n => .kept (h.kept n), fun _ => h.live⟩

/-- One name of a prepared transaction has been undone since `w`. -/
structure UndoneOne (site : Site φ) (old : String → Option φ) (name n : String) (w w' : Root φ) :
    Prop where
  halfway : Halfway site old name w'
  touch : Touch n w w'
  kept : Kept old w' n

/-- An action that changes the files of one name, followed by an fsync. -/
lemma sure_actOne (hw : Halfway site old name w) (hp : w.hasPrevious = true)
    (ht : Touch n w (f w)) (hk : Kept old (f w) n) {w₀ : Root φ} (ht0 : Touch n w₀ w) :
    (do act .os f; anyOp : Job φ Unit).Sure (toward site old (UndoneOne site old name n w₀)) w := by
  have hw' := hw.touch ht hp (.kept hk)
  refine sure_act_bind (.halfway name hw) ?_
  exact sure_anyOp (.halfway name hw') ⟨hw', ht0.trans ht, hk⟩

/-- ROLLBACK OF ONE NAME: its old file is in place again, and the other names are untouched. -/
theorem sure_rollBackOne (h : site.Valid) (hw : Halfway site old name w) (hp : w.hasPrevious = true)
    (hn : n ∈ (site.journal old name .prepared).names) :
    (rollBackOne (site.journal old name .prepared) n : Job φ Unit).Sure
      (toward site old (UndoneOne site old name n w)) w := by
  have hplaced := hw.placed n
  refine sure_bind (sure_read (sure_bind (sure_read ?_)))
  by_cases ho : n ∈ (site.journal old name .prepared).oldTargets
  · obtain ⟨_, hwas⟩ := mem_oldTargets.1 ho
    show Prog.Sure (if _ then _ else _) _ _
    rw [if_pos (contains_iff_mem.2 ho)]
    cases hplaced with
    | kept hk =>
      rw [if_neg (by simp [hk.1])]
      refine sure_refuse ?_ ⟨hw, .refl, hk⟩
      rw [hk.2]
      simpa [Option.isSome_iff_ne_none] using hwas
    | moved managed was prior live =>
      rw [if_pos (prior ▸ was)]
      split
      · -- the new file is discarded before the old one comes back
        have ht : Touch n w (w.setLive n none) := touch_setLive none
        have hw' := hw.touch ht hp (.moved managed was prior (.inl (setLive_live_self none)))
        refine sure_act_bind (.halfway name hw) ?_
        refine sure_anyOp_bind (.halfway name hw') ?_
        have hback : ((w.setLive n none).putBack n).live n = old n := putBack_live_self.trans prior
        exact sure_actOne hw' hp touch_putBack ⟨putBack_prior_self, hback⟩ ht
      · exact sure_actOne hw hp touch_putBack ⟨putBack_prior_self, putBack_live_self.trans prior⟩ .refl
    | added file was prior live =>
      rw [was] at hwas
      cases hwas
  · have hnew : n ∈ site.files.map Prod.fst :=
      mem_newTargets.1 ((Journal.mem_names.1 hn).resolve_left ho)
    have hnone : old n = none := h.not_old hnew ho
    have hprior : w.prior n = none := by
      cases hplaced with
      | kept hk => exact hk.1
      | moved _ was _ _ =>
        rw [hnone] at was
        cases was
      | added _ _ prior _ => exact prior
    show Prog.Sure (if _ then _ else _) _ _
    rw [if_neg (fun hc => ho (contains_iff_mem.1 hc))]
    refine sure_bind (sure_refuse (by simp [hprior]) ?_)
    split
    · exact sure_actOne hw hp (touch_setLive none) ⟨hprior, by simp [hnone]⟩ .refl
    · next hlive =>
      refine sure_pure ⟨hw, .refl, hprior, ?_⟩
      rw [hnone]
      simpa using hlive

/-- ROLLBACK: every old file is in place again. -/
theorem sure_rollBack (h : site.Valid) (hw : Halfway site old name w) :
    (rollBack (site.journal old name .prepared) : Job φ Unit).Sure
      (toward site old (Undone site old name)) w := by
  refine sure_bind (sure_read (Sure.bind ?_
    (fun _ w' hu => ?_) (fun _ _ => id) fun _ => id))
  · split
    · next hmoved =>
      obtain ⟨_, hp⟩ := Bool.and_eq_true_iff.1 hmoved
      refine sure_anyOp_bind (.halfway name hw) ?_
      -- the names that are not to come any more have their old files
      refine sure_forEach (I := fun rest _ w' => Halfway site old name w' ∧ w'.hasPrevious = true ∧
        (∀ n ∈ rest, n ∈ (site.journal old name .prepared).names) ∧ ∀ n, n ∉ rest → Kept old w' n)
        (fun n rest _ w' hI => ?_) (fun _ w' hI => ?_) ⟨hw, hp, fun _ => id, fun n hn => ?_⟩
      · obtain ⟨hw', hp', hmem, hkept⟩ := hI
        refine (sure_rollBackOne h hw' hp' (hmem n mem_cons_self)).imp fun _ w'' hone => ?_
        refine ⟨hone.halfway, hone.touch.hasPrevious.trans hp',
          fun m hm => hmem m (mem_cons_of_mem n hm), fun m hm => ?_⟩
        by_cases hmn : m = n
        · exact hmn ▸ hone.kept
        · exact hone.touch.kept hmn (hkept m (not_mem_cons_of_ne_of_not_mem hmn hm))
      · obtain ⟨hw', _, _, hkept⟩ := hI
        exact ⟨hw'.staged, hw'.journal, hw'.receipt, fun n => hkept n not_mem_nil⟩
      · rw [Journal.mem_names, not_or] at hn
        cases hw.placed n with
        | kept hk => exact hk
        | moved managed was _ _ => exact absurd (mem_oldTargets.2 ⟨managed, was⟩) hn.1
        | added file _ _ _ => exact absurd (mem_newTargets.2 file) hn.2
    · next hmoved =>
      have hp : w.hasPrevious = false := by
        rw [← Bool.not_eq_true]
        intro hp
        exact hmoved (Bool.and_eq_true_iff.2 ⟨hw.staged.hasStaging hp, hp⟩)
      exact sure_pure ⟨hw.staged, hw.journal, hw.receipt,
        fun n => ⟨prior_none hp n, congrFun (hw.before hp) n⟩⟩
  · refine sure_bind (sure_read (sure_bind (sure_refuse ?_ (sure_refuse ?_ hu)))) <;> rw [hu.live]
    · rw [any_eq_true]
      rintro ⟨n, hn, hnone⟩
      obtain ⟨_, hwas⟩ := mem_oldTargets.1 hn
      rw [Option.isNone_iff_eq_none.1 hnone] at hwas
      cases hwas
    · rw [any_eq_true]
      rintro ⟨n, hn, hboth⟩
      obtain ⟨ho, hlive⟩ := Bool.and_eq_true_iff.1 hboth
      have hnone : old n = none := h.not_old (mem_newTargets.1 hn) (by simpa using ho)
      rw [hnone] at hlive
      cases hlive

/-- Nothing has begun, and there is no staging directory. -/
structure Fresh (site : Site φ) (old : String → Option φ) (w : Root φ) : Prop where
  idle : Idle site old w
  staging : w.staging = none

section
variable {staging : Option (String × Staging φ)} (hs : ∀ p, staging = some p → p = (name, {}))
include hs

lemma staged_of : Staged name { w with staging := staging } := by
  intro s h
  obtain ⟨p, hp, rfl⟩ := Option.map_eq_some_iff.1 h
  rw [hs p hp]

lemma Undone.withStaging (hu : Undone site old name w) :
    Undone site old name { w with staging := staging } := by
  refine { hu with staged := staged_of hs, kept := fun n => ⟨?_, (hu.kept n).2⟩ }
  cases staging with
  | none => rfl
  | some p => rw [hs p rfl]; rfl

lemma Committed.withStaging (hc : Committed site old name w) :
    Committed site old name { w with staging := staging } :=
  { hc with staged := staged_of hs }

end

/-- The staging directory of a transaction goes; `P` does not depend on it. -/
lemma sure_dropStaged {P : Root φ → Prop} (hs : Staged name w) (hP : P w)
    (hdrop : ∀ staging, (∀ p, staging = some p → p = (name, {})) → P { w with staging := staging }) :
    (if w.hasStaging name then rmtree else pure () : Job φ Unit).Sure
      ⟨fun _ w' => P w' ∧ w'.staging = none, fun _ => P, P⟩ w := by
  split
  · have hP' : P (w.onStaging fun _ => {}) := hdrop _ fun p hp => by
      obtain ⟨q, hq, rfl⟩ := Option.map_eq_some_iff.1 hp
      rw [hs q.1 (by rw [hq]; rfl)]
    exact sure_bind (sure_act (sure_act ⟨hdrop none nofun, rfl⟩ hP' hP') hP hP)
  · next hnot => exact sure_pure ⟨hP, hs.none (by simpa using hnot)⟩

lemma sure_retire_undone (hu : Undone site old name w) :
    (retireTransaction (site.journal old name .prepared) : Job φ Unit).Sure
      (toward site old (Fresh site old)) w := by
  refine sure_bind (sure_read ((sure_dropStaged hu.staged hu fun _ hs => hu.withStaging hs).bind
    (fun _ w' h => ?_) (fun _ _ h => h.stage) fun _ h => h.stage))
  obtain ⟨hu', hnone⟩ := h
  have hidle : Idle site old { w' with journal := none } := ⟨hu'.live, rfl, .inr hu'.receipt⟩
  refine sure_anyOp_bind hu'.stage ?_
  refine sure_act_bind hu'.stage ?_
  refine sure_anyOp_bind (.idle hidle) ?_
  -- a prepared receipt is no longer of use
  have hidle' : Idle site old { w' with journal := none, receipt := none } :=
    ⟨hu'.live, rfl, .inl rfl⟩
  refine sure_act_bind (.idle hidle) ?_
  exact sure_anyOp (.idle hidle') ⟨hidle', hnone⟩

/-- A committed transaction is struck out; its receipt stays. -/
lemma sure_retire_committed (hc : Committed site old name w) :
    (retireTransaction (site.journal old name .committed) : Job φ Unit).Sure
      (toward site old (Installed site old)) w := by
  refine sure_bind (sure_read ((sure_dropStaged hc.staged hc fun _ hs => hc.withStaging hs).bind
    (fun _ w' h => ?_) (fun _ _ h => .committed name h) fun _ h => .committed name h))
  obtain ⟨hc', hnone⟩ := h
  have hdone : Installed site old { w' with journal := none } :=
    ⟨hnone, rfl, hc'.receipt, hc'.live⟩
  refine sure_anyOp_bind (.committed name hc') ?_
  refine sure_act_bind (.committed name hc') ?_
  exact sure_bind (sure_attempt (sure_pure hdone) (.installed hdone) (.installed hdone))

variable {w₀ : Root φ}

section
variable (h : site.Valid)
include h

/-- RECOVERY of a prepared transaction: the old generation is back. -/
theorem sure_recover_halfway (hf : Fenced site w₀) (hw : Halfway site w₀.live name w) :
    (recoverInterruptedRestore site).Sure (toward site w₀.live (Fresh site w₀.live)) w := by
  refine sure_anyOp_bind (.halfway name hw) (sure_bind (sure_read ?_))
  rw [hw.journal]
  refine sure_bind (sure_lift rfl (sure_bind (sure_refuse ?_ (sure_bind (sure_read ?_)))))
  · exact not_not_intro (journal_valid h hf name .prepared)
  rw [hw.receipt]
  refine sure_bind (sure_lift rfl (sure_bind (sure_refuse (not_not_intro rfl)
    (sure_bind (sure_refuse (fun hc => nomatch hc.1) ?_)))))
  exact (sure_rollBack h hw).next fun _ _ hu => sure_retire_undone hu

lemma installed_file (hn : n ∈ site.files.map Prod.fst) :
    site.installed old n = site.fileOf n := if_pos (h.managed_of_file hn)

/-- The snapshot has no fence, no WAL and no shared-memory file. -/
lemma installed_retired (hn : n ∈ [wal, shm, fence]) : site.installed old n = none := by
  have hm : n ∈ site.managed := by
    rw [mem_managed]
    simp only [mem_cons] at hn
    tauto
  exact (if_pos hm).trans (fileIn_none (h.retired_not_file hn))

lemma installed_fence : site.installed old fence = none :=
  installed_retired h (by decide)

/-- RECOVERY of a committed transaction: the new generation stays. -/
theorem sure_recover_committed (hf : Fenced site w₀) (hc : Committed site w₀.live name w) :
    (recoverInterruptedRestore site).Sure (toward site w₀.live (Installed site w₀.live)) w := by
  refine sure_anyOp_bind (.committed name hc) (sure_bind (sure_read ?_))
  rw [hc.journal]
  refine sure_bind (sure_lift rfl (sure_bind (sure_refuse ?_ (sure_bind (sure_read ?_)))))
  · exact not_not_intro (journal_valid h hf name .committed)
  rw [hc.receipt]
  refine sure_bind (sure_lift rfl (sure_bind (sure_refuse (not_not_intro rfl)
    (sure_bind (sure_refuse (fun hc => hc.2 rfl) ?_)))))
  refine Sure.bind (?_ : Prog.Sure _ (toward site w₀.live fun w' => w' = w) w) (fun _ _ heq => ?_)
    (fun _ _ => id) fun _ => id
  · refine sure_bind (sure_read (sure_bind (sure_refuse ?_ (sure_bind (sure_refuse ?_ (sure_bind
      (sure_refuse ?_ (sure_anyOp (.committed name hc) rfl))))))))
      <;> rw [hc.live]
    · rw [any_eq_true]
      rintro ⟨n, hn, hnone⟩
      have hfile := mem_newTargets.1 hn
      have hsome : (site.fileOf n).isSome = true := fileIn_isSome.2 hfile
      rw [installed_file h hfile, Option.isNone_iff_eq_none] at hnone
      rw [hnone] at hsome
      cases hsome
    · rw [any_eq_true]
      rintro ⟨n, hn, hboth⟩
      obtain ⟨hnew, hlive⟩ := Bool.and_eq_true_iff.1 hboth
      have hnone : site.fileOf n = none := fileIn_none fun hmem => by
        rw [contains_iff_mem.2 (mem_newTargets.2 hmem)] at hnew
        cases hnew
      rw [Site.installed, if_pos (mem_oldTargets.1 hn).1, hnone] at hlive
      cases hlive
    · rw [Bool.not_eq_false]
      exact h.holds fun n hn => installed_file h hn
  · rw [heq]
    exact sure_retire_committed hc

end

/-! ### Taking the lock -/

/-- What taking the lock leaves: nothing begun, or the restore over. -/
def Recovered (site : Site φ) (old : String → Option φ) (w : Root φ) : Prop :=
  Fresh site old w ∨ Installed site old w

lemma Recovered.stage (h : Recovered site old w) : Stage site old w :=
  h.elim (fun hf => .idle hf.idle) .installed

lemma Recovered.staging (h : Recovered site old w) : w.staging = none :=
  h.elim (·.staging) (·.staging)

/-- The directory the journal names is left alone, and so is a root without one. -/
lemma sure_cleanup_none {protectedName : Option String} {Q : Root φ → Prop}
    (hs : ∀ p, w.staging = some p → protectedName = some p.1) (hstage : Stage site old w) (hQ : Q w) :
    (cleanupAbandonedRestoreStaging protectedName : Job φ Unit).Sure (toward site old Q) w := by
  refine sure_anyOp_bind hstage (sure_bind (sure_read ?_))
  cases hw : w.staging with
  | none => exact sure_pure hQ
  | some p =>
    show Prog.Sure (if _ then _ else _) _ _
    rw [if_pos (hs _ hw)]
    exact sure_pure hQ

lemma Idle.emptied (hi : Idle site old w) : Idle site old (w.onStaging fun _ => {}) := { hi with }

lemma Idle.removed (hi : Idle site old w) : Idle site old { w with staging := none } := { hi with }

/-- An abandoned staging directory without hard links is removed. -/
lemma sure_cleanup_idle (hi : Idle site old w) (hu : Unlinked w) :
    (cleanupAbandonedRestoreStaging none : Job φ Unit).Sure (toward site old (Fresh site old)) w := by
  refine sure_anyOp_bind (.idle hi) (sure_bind (sure_read ?_))
  cases hw : w.staging with
  | none => exact sure_pure ⟨hi, hw⟩
  | some p =>
    have hlinked : p.2.linked = false := (hu.resolve_left (by simp [hi.journal])) p hw
    refine sure_bind (sure_refuse (by simp [hlinked]) ?_)
    exact sure_bind (sure_act (sure_act ⟨hi.removed, rfl⟩ (.idle hi.emptied) (.idle hi.emptied))
      (.idle hi) (.idle hi))

section
variable (h : site.Valid)
include h

section
variable (hf : Fenced site w₀)
include hf

/-- The fence of the restore is not a private one. -/
lemma sure_clearFence (hr : Recovered site w₀.live w) :
    (clearOrphanedRestoreFence site).Sure (toward site w₀.live fun w' => w' = w) w := by
  refine sure_bind (sure_read ?_)
  rcases hr with hfresh | hdone
  · obtain ⟨file, hfile, _, hprivate⟩ := hf.fence
    have hlive : w.live fence = some file := by rw [hfresh.idle.live, hfile]
    simp only [Post.andThen, id, hfresh.idle.journal, hfresh.staging, hlive, hprivate]
    exact sure_anyOp (.idle hfresh.idle) rfl
  · simp only [Post.andThen, id, hdone.journal, hdone.staging, hdone.live, installed_fence h]
    exact sure_pure rfl

/-- The rest of taking the lock, once no transaction is written down, changes nothing. -/
lemma sure_lock_end (hr : Recovered site w₀.live w) :
    (do cleanupAbandonedRestoreStaging none; clearOrphanedRestoreFence site : Job φ Unit).Sure
      (toward site w₀.live fun w' => w' = w) w :=
  (sure_cleanup_none (Q := fun w' => w' = w)
    (fun p hp => by rw [hr.staging] at hp; cases hp) hr.stage rfl).next fun _ _ heq => by rw [heq]; exact sure_clearFence h hf hr

lemma sure_lock_journal (hj : w.journal = some j) (hs : Staged j.staging w)
    (hstage : Stage site w₀.live w) {R : Root φ → Prop} (hR : ∀ w', R w' → Recovered site w₀.live w')
    (hrec : (recoverInterruptedRestore site).Sure (toward site w₀.live R) w) :
    (maintenanceControlLock site).Sure (toward site w₀.live R) w := by
  refine sure_anyOp_bind hstage (sure_bind (sure_read ?_))
  have hpending : w.pending = true := by simp [Root.pending, hj]
  simp only [hpending]
  refine sure_bind (sure_read ?_)
  rw [hj]
  refine (sure_cleanup_none (Q := fun w' => w' = w) (fun p hp => ?_) hstage rfl).next fun _ _ heq => ?_
  · rw [hs p.1 (by rw [hp]; rfl)]
    rfl
  · rw [heq]
    refine hrec.next fun _ w' hr => ?_
    exact (sure_lock_end h hf (hR w' hr)).imp fun _ _ heq => heq ▸ hr

lemma sure_lock_idle (hi : Idle site w₀.live w) (hu : Unlinked w) :
    (maintenanceControlLock site).Sure (toward site w₀.live (Fresh site w₀.live)) w := by
  refine sure_anyOp_bind (.idle hi) (sure_bind (sure_read ?_))
  obtain ⟨file, hfile, _⟩ := hf.fence
  have hpending : w.pending = true := by simp [Root.pending, hi.live, hfile]
  simp only [hpending]
  refine sure_bind (sure_read ?_)
  rw [hi.journal]
  refine (sure_cleanup_idle hi hu).next fun _ w' hfresh => sure_bind (sure_pure ?_)
  exact (sure_lock_end h hf (.inl hfresh)).imp fun _ _ heq => heq ▸ hfresh

end

lemma sure_lock_installed (hd : Installed site w₀.live w) :
    (maintenanceControlLock site).Sure (toward site w₀.live (Installed site w₀.live)) w := by
  refine sure_anyOp_bind (.installed hd) (sure_bind (sure_read ?_))
  have hpending : w.pending = false := by
    simp [Root.pending, hd.journal, hd.staging, hd.live, installed_fence h]
  simp only [hpending]
  exact sure_pure hd

/-- LOCK: from every stage the lock, left alone, is taken, and it leaves the old generation or the
    new one; which of the two, the stage decides. -/
theorem sure_lock (hf : Fenced site w₀) (hw : Stage site w₀.live w) (hu : Unlinked w) :
    (maintenanceControlLock site).Sure (toward site w₀.live (Fresh site w₀.live)) w ∨
      (maintenanceControlLock site).Sure (toward site w₀.live (Installed site w₀.live)) w := by
  cases hw with
  | idle hi => exact .inl (sure_lock_idle h hf hi hu)
  | halfway name hh =>
    exact .inl (sure_lock_journal h hf hh.journal hh.staged (.halfway name hh) (fun _ => .inl)
      (sure_recover_halfway h hf hh))
  | committed name hc =>
    exact .inr (sure_lock_journal h hf hc.journal hc.staged (.committed name hc) (fun _ => .inr)
      (sure_recover_committed h hf hc))
  | installed hd => exact .inr (sure_lock_installed h hd)

end

end Recovery

/-! ### The restore -/

section Restoring
variable {site : Site φ} {w₀ w : Root φ} {name : String}
variable {old : String → Option φ} {s : Staging φ}

/-- Copies of the snapshot's files are in the staging directory. -/
structure Copied (site : Site φ) (old : String → Option φ) (name : String) (s : Staging φ)
    (w : Root φ) : Prop where
  idle : Idle site old w
  staging : w.staging = some (name, s)

/-- An action on the staging directory. -/
lemma sure_onStaging {f : Staging φ → Staging φ} (hw : Copied site old name s w) :
    (act .os fun w => w.onStaging f : Job φ Unit).Sure
      (toward site old (Copied site old name (f s))) w := by
  refine sure_act ⟨{ hw.idle with }, ?_⟩ (.idle hw.idle) (.idle hw.idle)
  simp [Root.onStaging, hw.staging]

/-- STAGING: the copies are complete, and nothing live has changed. -/
theorem sure_stageSnapshot (h : site.Valid) (hw : Copied site old name {} w) :
    (stageSnapshot site).Sure (toward site old (Copied site old name
      ⟨site.snapshot.linked, site.fileOf, some fun _ => none⟩)) w := by
  refine sure_bind (sure_forEach (I := fun rest _ w' => ∃ done, done ++ rest = site.flatFiles ∧
    Copied site old name { staged := fileIn done } w') (fun p rest _ w' hI => ?_) (fun _ w' hI => ?_)
    ⟨[], rfl, hw⟩)
  · obtain ⟨done, hdone, hw'⟩ := hI
    have hnew : p.1 ∉ done.map Prod.fst := by
      have hnodup := h.nodup_flat
      rw [← hdone, map_append, nodup_append] at hnodup
      exact fun hmem => hnodup.2.2 _ hmem _ mem_cons_self rfl
    refine (sure_onStaging hw').imp fun _ w'' hc => ?_
    refine ⟨done ++ [p], by simpa using hdone, ?_⟩
    rw [fileIn_concat hnew]
    exact hc
  · obtain ⟨done, hdone, hw'⟩ := hI
    rw [append_nil] at hdone
    subst hdone
    refine sure_anyOp_bind (.idle hw'.idle) ?_
    refine (sure_onStaging hw').next fun _ w1 h1 => ?_
    refine (sure_onStaging h1).next fun _ w2 h2 => ?_
    have hstaged : Function.update (fileIn site.flatFiles) attachments
        (some site.snapshot.attachments) = site.fileOf :=
      (fileIn_concat (p := (attachments, site.snapshot.attachments)) h.attachments_not_flat).symm
    have hcopies : w2.copy = site.fileOf := by
      funext n
      rw [← hstaged, Root.copy, h2.staging]
      rfl
    refine sure_bind (sure_read (sure_bind (sure_refuse ?_ ?_)))
    · rw [hcopies, Bool.not_eq_false]
      exact h.holds fun _ _ => rfl
    · refine (sure_onStaging h2).next fun _ w3 h3 => ?_
      refine sure_anyOp (.idle h3.idle) ⟨h3.idle, ?_⟩
      rw [h3.staging, ← hstaged]
      rfl

/-- What holds of a loop that moves files of a prepared transaction while `rest` is still to come. -/
structure Moving (site : Site φ) (old : String → Option φ) (name : String)
    (before after copies : String → Option φ) (rest : List String) (w : Root φ) : Prop where
  halfway : Halfway site old name w
  hasPrevious : w.hasPrevious = true
  nodup : rest.Nodup
  still : ∀ n ∈ rest, w.live n = before n
  moved : ∀ n, n ∉ rest → w.live n = after n
  copies : ∀ n ∈ rest, w.copy n = copies n

lemma Moving.next {before after copies : String → Option φ} {rest : List String} {w' : Root φ}
    (hw : Moving site old name before after copies (n :: rest) w) (ht : Touch n w w')
    (hn : Placed site old w' n) (hlive : w'.live n = after n) :
    Moving site old name before after copies rest w' := by
  obtain ⟨hnot, hnodup⟩ := nodup_cons.1 hw.nodup
  have hne : ∀ m ∈ rest, m ≠ n := fun m hm heq => hnot (heq ▸ hm)
  refine ⟨hw.halfway.touch ht hw.hasPrevious hn, ht.hasPrevious.trans hw.hasPrevious, hnodup,
    fun m hm => ?_, fun m hm => ?_, fun m hm => ?_⟩
  · rw [ht.live m (hne m hm), hw.still m (mem_cons_of_mem n hm)]
  · by_cases hmn : m = n
    · rw [hmn, hlive]
    · rw [ht.live m hmn, hw.moved m (not_mem_cons_of_ne_of_not_mem hmn hm)]
  · rw [ht.copy m (hne m hm), hw.copies m (mem_cons_of_mem n hm)]

section
variable (h : site.Valid)
include h

end

end Restoring

/-! ### Runs -/

section Runs
variable {site : Site φ} {w₀ : Root φ}

lemma Fenced.stage (hf : Fenced site w₀) : Stage site w₀.live w₀ ∧ Unlinked w₀ := by
  obtain ⟨hstaging, hjournal, hreceipt⟩ := hf.clean
  exact ⟨.idle ⟨rfl, hjournal, .inl hreceipt⟩, .inr (by simp [hstaging])⟩

end Runs

namespace Drill

/-- A snapshot of a database and a key; `linked` says whether it has a ready attachment. -/
def site (linked : Bool) : Site String where
  digest := id
  proofNames := []
  fenceMatches file := file = "fence"
  privateFence _ := false
  handoffMatches := true
  call := ⟨"update", "hub", "host", "operation", "snapshot", "manifest"⟩
  snapshot := ⟨"new database", "new key", [], "new attachments", linked⟩

lemma site_valid (linked : Bool) : (site linked).Valid := by
  constructor <;> first | rfl | simp [site]

end Drill

end TeamHub.Restore
