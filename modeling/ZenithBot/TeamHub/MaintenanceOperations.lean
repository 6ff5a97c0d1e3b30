import ZenithBot.TeamHub.MaintenanceRecovery

/-! What the maintenance operations keep, and what they can count on. Each operation has two lemmas:
    whatever befalls it, it leaves a directory with `Inv` (`ensures_`), and it succeeds when left alone,
    from the states in which its caller may expect that (`sure_`). So no run ends in a directory nobody can
    get out of.

    The control files that are written in place (the fence of a snapshot, the journal of a rebase, the
    handoff of a reactivation), the two names of a fence being linked, and a hard link in a staged
    snapshot are the windows in which a kill is not recovered from; `Spared` excludes them, and
    `kills_wedge` shows that it has to. -/

namespace TeamHub.Maintenance

open Lib Lib.Prog

variable {digest host operationId reason : String} {f : Fence} {writing : List (Fate Empty)} {i k : Nat}
  {state : HandoffState} {e : Expected} {w' : Root} {b : Backups} {j : Rebase} {call : SnapshotCall}
  {inodes : Nat}

/-! ### Changes of single files -/

section Files
variable {site : Site} {w : Root} {fenceStaging : Option (String × File Fence)}
  {fence : Option (File Fence)}

lemma Apart.more (h : Apart inodes fence fenceStaging) : Apart (inodes + 1) fence fenceStaging :=
  ⟨Nat.succ_pos _, fun f hf => Nat.lt_succ_of_lt (h.fenceBelow f hf),
    fun p hp => Nat.lt_succ_of_lt (h.stagingBelow p hp), h.apart⟩

lemma Handed.unfenced
    {handoff : Option (File Handoff)} (h : Handed site fence fenceStaging handoff) :
    Handed site none fenceStaging handoff := by
  cases h with
  | nobody hnone _ => exact .nobody hnone nofun
  | owner i h handoff own =>
    exact .owner i h handoff { own with owns := nofun }

lemma Settled.unfence (hs : Settled site w) : Settled site { w with fence := none } where
  inv := ⟨⟨hs.inv.apart.pos, nofun, hs.inv.apart.stagingBelow, nofun⟩, .free rfl, hs.inv.handed.unfenced,
    .still hs.rebase nofun, hs.inv.loose⟩
  rebase := hs.rebase
  retired := hs.retired
  staging := hs.staging

/-- The handoff goes once its fence is gone. -/
lemma Inv.unhand (hi : Inv site w) (hf : w.fence = none) : Inv site { w with handoff := none } :=
  { hi with handed := .nobody rfl (hf ▸ nofun) }

lemma readHandoff_ok (hi : Inv site w) : ∃ h, w.readHandoff = .ok h ∧
    ((h = none ∧ w.handoff = none) ∨ ∃ i h', h = some h' ∧ w.handoff = some ⟨i, .whole h'⟩ ∧
      Owner site w.fence w.fenceStaging h') := by
  cases hi.handed with
  | nobody hnone _ => exact ⟨none, readHandoff_none hnone, .inl ⟨rfl, hnone⟩⟩
  | owner i h handoff own =>
    exact ⟨some h, readHandoff_whole handoff own.valid, .inr ⟨i, h, rfl, handoff, own⟩⟩

variable {α : Type} {slot : Slot α} {value : α} {post : Post Root Err Nat}

/-- A slot whose last writing is what it holds. -/
def Slot.Lawful (slot : Slot α) : Prop :=
  ∀ a b w, slot.set a (slot.set b w) = slot.set a w

/-- CREATION of a control file in a free place. -/
theorem sure_create (hl : slot.Lawful) (hfree : slot.get w = none) (hx0 : post.died w)
    (hx : ∀ text, post.died (slot.set (some ⟨w.inodes, text⟩) { w with inodes := w.inodes + 1 }))
    (hd : post.done w.inodes
      (slot.set (some ⟨w.inodes, .whole value⟩) { w with inodes := w.inodes + 1 })) :
    (create slot value).Sure post w := by
  refine sure_bind (sure_read (sure_bind (sure_refuse (by simp [hfree]) ?_)))
  refine sure_bind (sure_read (sure_bind (sure_perform ?_ hx0)))
  refine sure_bind (sure_perform ?_ (hx _))
  rw [hl]
  refine sure_bind (sure_perform ?_ (hx _))
  rw [hl]
  exact sure_pure hd

lemma create_dies (hfree : slot.get w = none) (rest : List (Fate Empty)) :
    create slot value w (.dies :: rest) = (.died, w, rest) := by
  show Prog.bind _ _ w (.dies :: rest) = _
  simp only [Prog.bind, hfree]
  rfl

/-- CREATION of a control file in one stroke. -/
theorem ensures_create (hl : slot.Lawful) (hu : Unbroken writing)
    (hr : (slot.get w).isSome = true → ∀ e, post.raised e w) (hx : post.died w) (hd : slot.get w = none
      → post.done w.inodes (slot.set (some ⟨w.inodes, .whole value⟩) { w with inodes := w.inodes + 1 })) :
    (under writing (create slot value)).Ensures post w := by
  cases hfree : slot.get w with
  | none =>
    have hcreated : (create slot value).Sure ⟨fun i w' => i = w.inodes ∧ w' =
        slot.set (some ⟨w.inodes, .whole value⟩) { w with inodes := w.inodes + 1 },
        fun _ _ => True, fun _ => True⟩ w :=
      sure_create hl hfree trivial (fun _ => trivial) ⟨rfl, rfl⟩
    refine (ensures_unbroken hu hcreated (create_dies hfree)).mono (fun i w' h => ?_)
      (fun _ _ => False.elim) fun w' h => h ▸ hx
    obtain ⟨rfl, rfl⟩ := h
    exact hd hfree
  | some file =>
    refine ensures_under (ensures_bind (ensures_read (ensures_bind (ensures_refuse (fun hsome => hr hsome _)
      fun hnot => ?_))))
    rw [hfree] at hnot
    exact absurd rfl hnot

end Files

/-! ### Snapshot and fence -/

section SnapshotAndFence
variable {site : Site} {w : Root}

lemma Taken.held (h : Taken site reason call w w')
    (hd : site.manifestDigest w' (.snapshot call.name.text) = some digest) :
    Held site w'.backups (.snapshot call.name.text) reason digest := by
  cases hg : w'.backups.lookup (.snapshot call.name.text) with
  | none =>
    have hgen : w'.generation (.snapshot call.name.text) = none := hg
    rw [Site.manifestDigest, hgen] at hd
    cases hd
  | some g =>
    have hgen : w'.generation (.snapshot call.name.text) = some g := hg
    rw [Site.manifestDigest, hgen, h.complete g hg] at hd
    refine ⟨g, hg, ?_⟩
    rw [h.complete g hg]
    exact ⟨rfl, _, rfl, rfl, rfl, rfl, Option.some.inj hd⟩

/-- A fence with the digest of its generation. -/
lemma fenceOk_new (hsite : site.Valid) {value : String} {name : SnapshotName}
    (hreason : boundedText value "reason" 1 80 = .ok reason)
    (hop : maintenanceOperationId operationId = .ok operationId)
    (hheld : Held site b (.snapshot name.text) reason digest) :
    FenceOk site ⟨1, reason, operationId, site.hubId, site.host, name.text, some digest⟩ := by
  obtain ⟨_, hlo, hhi⟩ := boundedText_ok hreason
  obtain ⟨hid, _⟩ := maintenanceOperationId_ok hop
  obtain ⟨g, _, _, m, _, _, _, _, rfl⟩ := hheld
  refine ⟨⟨.inl rfl, hsite.hubId, hsite.host, ⟨hlo, hhi⟩, hid, name.named, fun d hd => ?_⟩, rfl, rfl,
    rfl, boundedText_again hreason, hop⟩
  cases hd
  exact hsite.digest m

lemma ensures_snapshotAndFence (hsite : site.Valid) {keep : Int}
    (hcall : call.Spared) (hwriting : Unbroken writing) (hreason : Py.strip reason ≠ hostReactivation)
    (hi : Inv site w) :
    (maintenanceSnapshotAndFence site reason operationId keep call writing).Ensures
      (.always (Inv site)) w := by
  refine ensures_lift_bind (fun opId hop => ?_) fun _ _ => hi
  refine (sure_lock hi).safe.next fun _ w1 h1 => ?_
  obtain ⟨hs1, _⟩ := h1
  refine read_then (refuse_then hs1.inv fun hnone => ?_)
  have hfence : w1.fence = none := by
    rw [← Option.not_isSome_iff_eq_none]
    exact hnone
  refine (ensures_snapshot hs1 (fun h => absurd h Bool.false_ne_true) hcall).next fun name w2 h2 => ?_
  obtain ⟨rfl, clean, hclean, htaken⟩ := h2
  have hi2 := htaken.settled.inv
  refine ensures_lift_bind (fun clean' hclean' => ?_) fun _ _ => hi2
  cases hclean.symm.trans hclean'
  refine look_then hi2 fun digest hdigest => ?_
  have hheld := htaken.held (getOr_ok hdigest)
  have hok := fenceOk_new hsite hclean (maintenanceOperationId_ok hop).2 hheld
  have hplain : clean ≠ hostReactivation := (boundedText_ok hclean).1 ▸ hreason
  refine ensures_handle (ensures_bind (ensures_create (fun _ _ _ => rfl) hwriting (fun _ e => ?_) hi2
    fun _ => ensures_pure ?_))
  · -- a fence that is not this one's is left, and so is none
    refine look_then hi2 fun existing _ => ?_
    show Prog.Ensures (if _ then _ else _) _ _
    split
    · exact ensures_pure hi2
    · exact ensures_raise hi2
  · refine ⟨hi2.apart.newFence _, .fenced _ _ rfl hok, hi2.handed.plain hplain,
      .still htaken.settled.rebase fun i f hf => ?_, hi2.loose⟩
    cases hf
    exact ⟨digest, rfl, hheld⟩

end SnapshotAndFence

/-! ### Clearing a fence -/

section Clear
variable {site : Site} {w : Root} {inode : Option Nat}

/-- A handoff goes when its fence is gone, or stays. -/
lemma ensures_consume (hi : Inv site w) (hf : w.fence = none) :
    (consumeHostReactivationHandoff e state).Ensures
      (.always fun w' => Inv site w' ∧ w'.fence = none) w := by
  refine look_then ⟨hi, hf⟩ fun handoff _ => ?_
  cases handoff with
  | none => exact ensures_pure ⟨hi, hf⟩
  | some h =>
    refine refuse_then ⟨hi, hf⟩ fun _ => ?_
    exact ensures_perform ⟨hi.unhand hf, hf⟩ ⟨hi, hf⟩

lemma ensures_clearFence (hs : Settled site w) :
    (clearFence e).Ensures (.always (Inv site)) w := by
  refine look_then hs.inv fun _ _ => ?_
  refine ensures_bind (ensures_perform ?_ hs.inv)
  have hi := hs.unfence.inv
  refine ensures_handle ?_
  split
  · refine (ensures_consume hi rfl).bind (fun _ _ h => ensures_pure h.1) (fun _ w' h => ?_)
      fun _ h => h.1
    refine read_then ?_
    rw [h.2]
    exact ensures_pure h.1
  · exact ensures_bind (ensures_pure (ensures_pure hi))

lemma ensures_clear (hi : Inv site w) {snapshot : String} :
    (clearMaintenanceFence site reason operationId snapshot).Ensures (.always (Inv site)) w := by
  refine ensures_lift_bind (fun _ _ => ?_) fun _ _ => hi
  refine ensures_lift_bind (fun _ _ => ?_) fun _ _ => hi
  refine (sure_lock hi).safe.next fun _ w1 h1 => ?_
  refine look_then h1.1.inv fun marker _ => ?_
  cases marker with
  | none => exact ensures_pure h1.1.inv
  | some f => exact ensures_clearFence h1.1

lemma ensures_clearControl (hi : Inv site w) :
    (clearMaintenanceFenceControl site e inode).Ensures (.always (Inv site)) w := by
  refine (sure_lock hi).safe.next fun _ w1 h1 => ?_
  refine look_then h1.1.inv fun marker _ => ?_
  cases marker with
  | none => exact ensures_pure h1.1.inv
  | some f =>
    refine read_then (refuse_then h1.1.inv fun _ => ?_)
    exact ensures_clearFence h1.1

/-- A fence that its clearer may clear: one of a reactivation was adopted. -/
structure Clearable (site : Site) (w : Root) (i : Nat) (f : Fence) : Prop where
  fence : w.fence = some ⟨i, .whole f⟩
  adopted : f.reason = hostReactivation → ∀ k h, w.handoff = some ⟨k, .whole h⟩ → h.state = .adopted

lemma Inv.fenceOk (hi : Inv site w) (hf : w.fence = some ⟨i, .whole f⟩) : FenceOk site f := by
  cases hi.whole with
  | free hnone =>
    rw [hnone] at hf
    cases hf
  | fenced k f' hf' ok =>
    rw [hf] at hf'
    cases hf'
    exact ok

lemma Inv.ownerOf (hi : Inv site w) (hf : w.fence = some ⟨i, .whole f⟩)
    (hr : f.reason = hostReactivation) : ∃ k h, w.handoff = some ⟨k, .whole h⟩ ∧ h.Valid ∧
      h.fenceInode = i ∧ h.expected = f.expected site ∧ h.Matches (f.expected site) h.state := by
  cases hi.handed with
  | nobody _ hplain => exact absurd hr (hplain i f hf)
  | owner k h handoff own =>
    obtain ⟨rfl, hop, hsnap⟩ := own.owns i f hf hr
    refine ⟨k, h, handoff, own.valid, rfl, ?_, own.hubId, own.host, hop.symm, hsnap.symm, rfl⟩
    rw [Handoff.expected, Fence.expected, own.hubId, own.host, hr, hop, hsnap]

lemma checkHandoff_ok {h : Handoff} (hf : w.fence = some ⟨i, .whole f⟩)
    (hh : w.handoff = some ⟨k, .whole h⟩) (hv : h.Valid) (hi : h.fenceInode = i)
    (hm : h.Matches e state) : checkHandoff w e state = .ok () := by
  simp [checkHandoff, readHandoff_whole hh hv, ok_bind, refuseIf, hm, hf, getOr, hi]

lemma sure_clearFence (hs : Settled site w) (hc : Clearable site w i f) :
    (clearFence (f.expected site)).Sure (toward site fun r w' => r = true ∧ w'.fence = none ∧
      Inv site w') w := by
  have hi := hs.unfence.inv
  by_cases hr : f.reason = hostReactivation
  · obtain ⟨k, h, handoff, hv, hinode, _, hm⟩ := hs.inv.ownerOf hc.fence hr
    rw [hc.adopted hr k h handoff] at hm
    have hcheck : (if (f.expected site).reason = hostReactivation then
        checkHandoff w (f.expected site) .adopted else .ok ()) = .ok () :=
      (if_pos hr).trans (checkHandoff_ok hc.fence handoff hv hinode hm)
    refine sure_bind (sure_look hcheck (sure_bind (sure_perform (sure_handle ?_) hs.inv)))
    rw [if_pos (show (f.expected site).reason = hostReactivation from hr)]
    refine sure_bind (sure_bind (sure_look (readHandoff_whole handoff hv) (sure_bind
      (sure_refuse (not_not_intro hm) (sure_perform (sure_pure ?_) hi)))))
    exact ⟨rfl, rfl, hi.unhand rfl⟩
  · have hcheck : (if (f.expected site).reason = hostReactivation then
        checkHandoff w (f.expected site) .adopted else .ok ()) = .ok () := if_neg hr
    refine sure_bind (sure_look hcheck (sure_bind (sure_perform (sure_handle ?_) hs.inv)))
    rw [if_neg (show (f.expected site).reason ≠ hostReactivation from hr)]
    exact sure_bind (sure_pure (sure_pure ⟨rfl, rfl, hi⟩))

/-- Taking the lock leaves a clearable fence clearable under the same names. -/
lemma Follows.clearable (h : Follows w w') (hc : Clearable site w i f) :
    ∃ i' f', Clearable site w' i' f' ∧
      f'.expected site = f.expected site ∧ (w.rebase = none → i' = i) := by
  rcases h.fence with ⟨_, hsame⟩ | ⟨k, j, l, f1, i', d, hj, hf1, hreason, _, hf', _⟩
  · refine ⟨i, f, ⟨hsame.trans hc.fence, fun hr k h' hh' => ?_⟩, rfl, fun _ => rfl⟩
    exact hc.adopted hr k h' (h.handoff ▸ hh')
  · rw [hc.fence] at hf1
    cases hf1
    refine ⟨i', _, ⟨hf', fun hr => absurd (hreason.symm.trans hr) serverUpdate_ne⟩, rfl, fun hnone => ?_⟩
    rw [hnone] at hj
    cases hj

lemma Settled.control (hs : Settled site w) (hf : w.fence = some ⟨i, .whole f⟩) :
    maintenanceFenceControl site w (f.expected site) true = .ok (some f) :=
  control_whole hs.inv.apart.hardLinked hf (hs.inv.fenceOk hf) fun _ => hs.inv.sealed hs.rebase hf

lemma sure_clear (hi : Inv site w) (hc : Clearable site w i f) :
    (clearMaintenanceFence site f.reason f.operationId f.snapshot).Sure
      (toward site fun r w' => r = true ∧ w'.fence = none ∧ Inv site w') w := by
  have hok := hi.fenceOk hc.fence
  refine sure_bind (sure_lift hok.reason (sure_bind (sure_lift hok.operationId ?_)))
  refine (sure_lock hi).next fun _ w1 h1 => ?_
  obtain ⟨hs1, hfollows⟩ := h1
  obtain ⟨i', f', hc', heq, _⟩ := hfollows.clearable hc
  have hcontrol := hs1.control hc'.fence
  have hclear := sure_clearFence hs1 hc'
  rw [heq] at hcontrol hclear
  exact sure_bind (sure_look hcontrol hclear)

lemma sure_clearControl (hi : Inv site w) (hc : Clearable site w i f)
    (hinode : ∀ k ∈ inode, k = i ∧ w.rebase = none) :
    (clearMaintenanceFenceControl site (f.expected site) inode).Sure
      (toward site fun r w' => r = true ∧ w'.fence = none ∧ Inv site w') w := by
  refine (sure_lock hi).next fun _ w1 h1 => ?_
  obtain ⟨hs1, hfollows⟩ := h1
  obtain ⟨i', f', hc', heq, hsame⟩ := hfollows.clearable hc
  have hcontrol := hs1.control hc'.fence
  have hclear := sure_clearFence hs1 hc'
  rw [heq] at hcontrol hclear
  refine sure_bind (sure_look hcontrol (sure_bind (sure_read (sure_bind (sure_refuse ?_ hclear)))))
  rintro ⟨k, hk, hne⟩
  obtain ⟨rfl, hnone⟩ := hinode k hk
  rw [hc'.fence, hsame hnone] at hne
  exact hne rfl

end Clear

/-! ### Rebase -/

section RebaseOperation
variable {site : Site} {w : Root}

lemma Held.isDigest (hsite : site.Valid) {p : Place} (h : Held site b p reason digest) :
    isDigest digest = true := by
  obtain ⟨_, _, _, m, _, _, _, _, rfl⟩ := h
  exact hsite.digest m

lemma verifyFencedSnapshot_ok (h : verifyFencedSnapshot site w e = .ok ()) :
    ∃ i f, w.fence = some ⟨i, .whole f⟩ ∧ f.hubId = e.hubId ∧ f.hostServerIdentity = e.host ∧
      f.reason = e.reason ∧ maintenanceOperationId e.operationId = .ok f.operationId ∧
      f.snapshot = e.snapshot := by
  obtain ⟨marker, hcontrol, h⟩ := bind_ok h
  obtain ⟨hsome, _⟩ := refuse_ok h
  rcases control_ok hcontrol with ⟨rfl, _⟩ | ⟨i, f, _, hf, hrest⟩
  · exact absurd rfl hsome
  · exact ⟨i, f, hf, hrest⟩

section
variable (hi : Inv site w) (ok : JournalOk site j) (hf : w.fence = some ⟨k, .whole f⟩)
  (of : FenceOf site j f)
  (target : Held site w.backups (.snapshot j.target) serverUpdate j.targetManifestSha256) (replacement
    : Held site w.backups (.snapshot j.replacement) serverUpdate j.replacementManifestSha256)
include ok hf of target replacement

include hi in
/-- The two generations change places, and the fence is bound to the new one. -/
lemma ensures_swap (hj : w.rebase = some ⟨i, .whole j⟩)
    (retired : w.backups.lookup (.retired j.retired) = none) :
    (do
      rename (.snapshot j.target) (.retired j.retired)
      rename (.snapshot j.replacement) (.snapshot j.target)
      recoverSnapshotRebase site : Job Unit).Ensures (.always (Inv site)) w := by
  have hTR : Place.snapshot j.replacement ≠ .snapshot j.target := fun h =>
    ok.valid.2.2.1 (Place.snapshot.inj h)
  obtain ⟨g, hg, hc⟩ := target
  refine ensures_bind (sure_rename (by simp) hg retired ?_ fun b hb => ?_).safe
  · exact hi.relaid hj ok hf of hi.loose (.begun ⟨g, hg, hc⟩ replacement.has retired)
  · have hnone : b.lookup (.snapshot j.target) = none := hb.source
    have hold := hb.held ⟨g, hg, hc⟩
    have hnew := hb.held_other hTR (by simp) replacement
    have hloose : Loose b := hb.loose (by simp) hi.loose
    have hretired := hi.relaid hj ok hf of hloose (.retired hnone hnew hold)
    obtain ⟨g', hg', hc'⟩ := hnew
    refine ensures_bind (sure_rename hTR hg' hnone hretired fun b' hb' => ?_).safe
    have hreplaced := hi.relaid hj ok hf of (hb'.loose (by simp) hloose)
      (.replaced (hb'.held ⟨g', hg', hc'⟩) hb'.source (hb'.held_other (by simp) (by simp) hold))
    exact (sure_recoverRebase hreplaced).safe.imp fun _ _ h => h.1

/-- The journal is written, and then the generations change places. -/
lemma ensures_journaled (hwriting : Unbroken writing) (hs : Settled site w) :
    (do
      let _ ← under writing (create rebaseSlot j)
      handle (do
          rename (.snapshot j.target) (.retired j.retired)
          rename (.snapshot j.replacement) (.snapshot j.target)
          recoverSnapshotRebase site)
        fun err => do
          recoverSnapshotRebase site
          raise err
      return j.target : Job String).Ensures (.always (Inv site)) w := by
  have hi := hs.inv
  refine ensures_bind (ensures_create (fun _ _ _ => rfl) hwriting (fun _ _ => hi) hi fun _ => ?_)
  have hbegun : Inv site { w with
      inodes := w.inodes + 1
      rebase := some ⟨w.inodes, .whole j⟩ } :=
    ⟨hi.apart.more, hi.whole, hi.handed, .swapping _ j rfl ok k f hf of
      (.begun target replacement.has (hs.retired _)), hi.loose⟩
  refine ensures_bind (ensures_handle ((ensures_swap hbegun ok hf of target replacement rfl
    (hs.retired _)).mono (fun _ _ h => ensures_pure h) (fun _ w' h => ?_) fun _ => id))
  exact (sure_recoverRebase h).safe.next fun _ _ h => ensures_raise h.1

end

lemma ensures_rebase (hsite : site.Valid) {hubId target : String}
    {token : Token} (hcall : call.Spared) (hwriting : Unbroken writing) (hi : Inv site w) :
    (rebaseMaintenanceSnapshot site host hubId operationId target call token writing).Ensures
      (.always (Inv site)) w := by
  refine ensures_lift_bind (fun opId hop => ?_) fun _ _ => hi
  refine (sure_lock hi).safe.next fun _ w1 h1 => ?_
  obtain ⟨hs1, _⟩ := h1
  refine look_then hs1.inv fun _ hverified => ?_
  obtain ⟨k, f, hf, hhub, hhost, hreason, hfop, hsnap⟩ := verifyFencedSnapshot_ok hverified
  have hserver : boundedText serverUpdate "reason" 1 80 = .ok serverUpdate := by decide +kernel
  refine (ensures_snapshot hs1 (fun _ => .inl hserver) hcall).next fun name w2 h2 => ?_
  obtain ⟨rfl, clean, hclean, htaken⟩ := h2
  cases hserver.symm.trans hclean
  have hs2 := htaken.settled
  have hi2 := hs2.inv
  refine refuse_then hi2 fun _ => ?_
  refine look_then hi2 fun oldDigest hold => ?_
  refine look_then hi2 fun newDigest hnew => ?_
  have hf2 : w2.fence = some ⟨k, .whole f⟩ := by
    obtain ⟨b, rfl⟩ := htaken.same
    exact hf
  have hok := hi2.fenceOk hf2
  -- the digests of the journal are those of the two complete generations
  obtain ⟨d, _, hheld⟩ := hi2.sealed hs2.rebase hf2
  rw [hsnap, hreason] at hheld
  cases (getOr_ok hold).symm.trans hheld.manifestDigest
  have hheld' := htaken.held (getOr_ok hnew)
  have hne : call.name.text ≠ target := by
    rintro rfl
    obtain ⟨_, _, g, hg, _⟩ := hs1.inv.sealed hs1.rebase hf
    rw [hsnap, htaken.fresh] at hg
    cases hg
  have htarget : isSnapshotName target = true := by
    have h := hok.valid.snapshot
    rwa [hsnap] at h
  exact ensures_journaled ⟨⟨htarget, call.name.named, hne, hheld.isDigest hsite,
      hheld'.isDigest hsite, isRetiredName_token token⟩, hhub.symm.trans hok.hubId,
      hhost.symm.trans hok.host⟩ hf2
    ⟨hok, hreason, Except.ok.inj (hfop.symm.trans (maintenanceOperationId_ok hop).2), hsnap⟩
    hheld hheld' hwriting hs2

end RebaseOperation

/-! ### Recovery of a handoff -/

section HandoffRecovery
variable {site : Site} {w : Root} {h : Handoff} {message : String}

def Reactivating (w : Root) : Prop :=
  w.fence = none ∨ ∃ i f, w.fence = some ⟨i, .whole f⟩ ∧ f.reason = hostReactivation

lemma Reactivating.fenced (hr : Reactivating w) (hf : w.fence = some ⟨i, .whole f⟩) :
    f.reason = hostReactivation := by
  rcases hr with hnone | ⟨_, f', hf', hreason⟩
  · cases hnone.symm.trans hf
  · cases hf'.symm.trans hf
    exact hreason

lemma ownFence_ok {owned : Bool} (h' : ownFence site w h message = .ok owned) : Reactivating w := by
  obtain ⟨marker, hcontrol, _⟩ := bind_ok h'
  rcases control_ok hcontrol with ⟨_, hnone⟩ | ⟨i, f, _, hf, _, _, hreason, _⟩
  · exact .inl hnone
  · exact .inr ⟨i, f, hf, hreason⟩

lemma Settled.ownFence (hs : Settled site w) (hh : w.handoff = some ⟨k, .whole h⟩)
    (hr : Reactivating w) : ownFence site w h message = .ok w.fence.isSome := by
  rcases hr with hnone | ⟨i, f, hf, hreason⟩
  · simp [Maintenance.ownFence, control_none hnone, hnone]
    rfl
  · obtain ⟨k', h', hh', _, hinode, hexp, _⟩ := hs.inv.ownerOf hf hreason
    rw [hh] at hh'
    cases hh'
    simp [Maintenance.ownFence, hexp, hs.control hf, hf, hinode, ok_bind, refuseIf]

/-- A fence with the handoff's inode and a staged fence would be the same file. -/
lemma Inv.unstaged (hi : Inv site w) (own : Owner site w.fence w.fenceStaging h) {file : File Fence}
    (hf : w.fence = some file) (hinode : ¬file.inode ≠ h.fenceInode) : w.fenceStaging = none := by
  cases hst : w.fenceStaging with
  | none => rfl
  | some p =>
    refine absurd (hi.apart.apart file p hf hst) (not_not_intro ?_)
    rw [(own.staged p hst).inode, not_not.1 hinode]

/-- The staged fence goes; its handoff may stay. -/
lemma Settled.unstage (hs : Settled site w) : Settled site { w with fenceStaging := none } where
  inv := by
    refine ⟨⟨hs.inv.apart.pos, hs.inv.apart.fenceBelow, nofun, nofun⟩, hs.inv.whole, ?_,
      hs.inv.backed, hs.inv.loose⟩
    cases hs.inv.handed with
    | nobody hnone hfence => exact .nobody hnone hfence
    | owner i h handoff own =>
      exact .owner i h handoff { own with staged := nofun }
  rebase := hs.rebase
  retired := hs.retired
  staging _ := rfl

lemma Settled.unhand (hs : Settled site w) (hf : w.fence = none) (hst : w.fenceStaging = none) :
    Settled site { w with handoff := none } :=
  ⟨hs.inv.unhand hf, hs.rebase, hs.retired, fun _ => hst⟩

/-- A directory without any of the files of a reactivation. -/
structure Bare (site : Site) (w w' : Root) : Prop where
  settled : Settled site w'
  handoff : w'.handoff = none
  fence : w'.fence = none
  backups : w'.backups = w.backups

section
variable (hs : Settled site w)
include hs

/-- A fence that nobody adopted goes, then its handoff. -/
lemma sure_retireUnclaimed (hh : w.handoff = some ⟨k, .whole h⟩) (hst : w.fenceStaging = none)
    (hr : Reactivating w) :
    (retireUnclaimed site h).Sure (surely site fun r w' => r = none ∧ Bare site w w') w := by
  refine sure_bind (sure_look (hs.ownFence hh hr) ?_)
  show Prog.Sure ((if w.fence.isSome = true then _ else _) >>= _) _ _
  split
  · refine sure_bind (sure_perform ?_ hs.inv)
    refine sure_bind (sure_perform (sure_pure ?_) hs.unfence.inv)
    exact ⟨rfl, hs.unfence.unhand rfl hst, rfl, rfl, rfl⟩
  · next hnot =>
    have hf : w.fence = none := Option.not_isSome_iff_eq_none.1 hnot
    refine sure_bind (sure_pure (sure_bind (sure_perform (sure_pure ?_) hs.inv)))
    exact ⟨rfl, hs.unhand hf hst, rfl, hf, rfl⟩

/-- What a reactivation left that was killed is removed. -/
lemma sure_recoverCreating (hh : w.handoff = some ⟨k, .whole h⟩)
    (own : Owner site w.fence w.fenceStaging h) (hr : Reactivating w) :
    (recoverCreating site h).Sure (surely site fun r w' => r = none ∧ Bare site w w') w := by
  have hmarker : ¬∃ f ∈ w.fence, f.inode ≠ h.fenceInode := by
    rintro ⟨f, hf, hne⟩
    rcases hr with hnone | ⟨i, f', hf', hreason⟩
    · cases hnone.symm.trans hf
    · cases hf'.symm.trans hf
      exact hne (own.owns i f' hf' hreason).1
  cases hst : w.fenceStaging with
  | none =>
    have hget : (fenceStagingSlot h.fenceStaging).get w = none := by simp [fenceStagingSlot, hst]
    refine sure_bind (sure_read (sure_bind (sure_read ?_)))
    rw [hget]
    refine sure_bind (sure_refuse ?_ ?_)
    · rintro (hbad | ⟨f, hf, _⟩)
      · exact hmarker hbad
      · cases hf
    · cases hf : w.fence with
      | none =>
        refine sure_bind (sure_perform (sure_pure ?_) hs.inv)
        exact ⟨rfl, hs.unhand hf hst, rfl, hf, rfl⟩
      | some file => exact sure_retireUnclaimed hs hh hst hr
  | some p =>
    have staged := own.staged p hst
    have hget : (fenceStagingSlot h.fenceStaging).get w = some p.2 := by
      simp [fenceStagingSlot, hst, staged.name]
    refine sure_bind (sure_read (sure_bind (sure_read ?_)))
    rw [hget]
    refine sure_bind (sure_refuse ?_ ?_)
    · rintro (hbad | ⟨f, hf, hne⟩)
      · exact hmarker hbad
      · cases hf
        exact hne staged.inode
    · cases hf : w.fence with
      | none =>
        refine sure_bind (sure_lift staged.fence (sure_bind (sure_perform ?_ hs.inv)))
        refine sure_bind (sure_perform (sure_pure ?_) hs.unstage.inv)
        exact ⟨rfl, hs.unstage.unhand hf rfl, rfl, hf, rfl⟩
      | some file =>
        cases hst.symm.trans (hs.inv.unstaged own hf fun hne => hmarker ⟨file, hf, hne⟩)

/-- HANDOFF RECOVERY: what nobody adopted is gone, what was adopted is found. -/
theorem sure_recoverHandoff (hr : Reactivating w) :
    (recoverHostReactivationHandoff site).Sure (surely site fun r w' =>
      r = none ∧ Bare site w w' ∨ w' = w ∧ ∃ k h, r = some h ∧ w.handoff = some ⟨k, .whole h⟩ ∧
        h.state = .adopted ∧ w.fence.isSome = true) w := by
  obtain ⟨r, hread, ⟨rfl, hnone⟩ | ⟨k, h, rfl, hh, own⟩⟩ := readHandoff_ok hs.inv
  · refine sure_bind (sure_look hread (sure_pure (.inl ⟨rfl, hs, hnone, ?_, rfl⟩)))
    rcases hr with hf | ⟨i, f, hf, hreason⟩
    · exact hf
    · obtain ⟨_, _, hh, _⟩ := hs.inv.ownerOf hf hreason
      rw [hnone] at hh
      cases hh
  · refine sure_bind (sure_look hread ?_)
    have hst : h.state ≠ .creating → w.fenceStaging = none := by
      intro hne
      cases hst : w.fenceStaging with
      | none => rfl
      | some p => exact absurd (own.staged p hst).state hne
    cases hstate : h.state with
    | creating =>
      simp only [Post.andThen, hstate]
      exact (sure_recoverCreating hs hh own hr).imp fun _ _ => .inl
    | unclaimed =>
      simp only [Post.andThen, hstate]
      exact (sure_retireUnclaimed hs hh (hst (by simp [hstate])) hr).imp fun _ _ => .inl
    | adopted =>
      simp only [Post.andThen, hstate]
      refine sure_bind (sure_look (hs.ownFence hh hr) ?_)
      show Prog.Sure (if w.fence.isSome = true then _ else _) _ _
      split
      · next hsome => exact sure_pure (.inr ⟨rfl, k, h, rfl, hh, hstate, hsome⟩)
      · next hnot =>
        have hf : w.fence = none := Option.not_isSome_iff_eq_none.1 hnot
        refine sure_bind (sure_perform (sure_pure (.inl ⟨rfl, ?_, rfl, hf, rfl⟩)) hs.inv)
        exact hs.unhand hf (hst (by simp [hstate]))

/-- Under a fence that is not a reactivation's the recovery of a handoff changes nothing. -/
lemma ensures_recoverHandoff_plain (hr : ¬Reactivating w) :
    (recoverHostReactivationHandoff site).Ensures
      ⟨fun _ w' => w' = w ∧ w.handoff = none, fun _ w' => w' = w, fun _ => False⟩ w := by
  obtain ⟨r, hread, ⟨rfl, hnone⟩ | ⟨k, h, rfl, hh, own⟩⟩ := readHandoff_ok hs.inv
  · refine ensures_bind (sure_look hread ?_).safe
    exact ensures_pure ⟨rfl, hnone⟩
  · have hretire : (retireUnclaimed site h).Ensures
        ⟨fun _ w' => w' = w ∧ w.handoff = none, fun _ w' => w' = w, fun _ => False⟩ w :=
      ensures_bind (ensures_look (fun _ hok => absurd (ownFence_ok hok) hr) fun _ _ => rfl)
    refine ensures_bind (sure_look hread ?_).safe
    cases hstate : h.state with
    | creating =>
      simp only [Post.andThen, hstate]
      cases hf : w.fence with
      | none => exact absurd (.inl hf) hr
      | some file =>
        refine read_then (read_then (refuse_then rfl fun hnot => ?_))
        rw [hf] at hnot ⊢
        have hst := hs.inv.unstaged own hf fun hne => hnot (.inl ⟨file, rfl, hne⟩)
        have hget : (fenceStagingSlot h.fenceStaging).get w = none := by simp [fenceStagingSlot, hst]
        rw [hget]
        exact hretire
    | unclaimed =>
      simp only [Post.andThen, hstate]
      exact hretire
    | adopted =>
      simp only [Post.andThen, hstate]
      exact ensures_bind (ensures_look (fun _ hok => absurd (ownFence_ok hok) hr) fun _ _ => rfl)

lemma ensures_recoverHandoff :
    (recoverHostReactivationHandoff site).Ensures (toward site fun r w' =>
      Inv site w' ∧ (r = none → Settled site w' ∧ w'.handoff = none)) w := by
  by_cases hr : Reactivating w
  · refine (sure_recoverHandoff hs hr).safe.mono (fun r w' h => ?_) (fun _ _ => False.elim)
      fun _ => id
    rcases h with ⟨_, hbare⟩ | ⟨rfl, _, h, rfl, _⟩
    · exact ⟨hbare.settled.inv, fun _ => ⟨hbare.settled, hbare.handoff⟩⟩
    · exact ⟨hs.inv, nofun⟩
  · refine (ensures_recoverHandoff_plain hs hr).mono (fun r w' h => ?_) (fun _ w' h => ?_)
      fun _ => False.elim
    · obtain ⟨rfl, hnone⟩ := h
      exact ⟨hs.inv, fun _ => ⟨hs, hnone⟩⟩
    · exact h ▸ hs.inv

end

end HandoffRecovery

/-! ### Preparing a reactivation -/

section Prepare
variable {site : Site} {w : Root}
variable {call : PrepareCall} {inode : Nat} {post : Post Root Err Unit} {name : String}

lemma boundedText_reactivation :
    boundedText hostReactivation "reason" 1 80 = .ok hostReactivation := by decide +kernel

def PrepareCall.marker (call : PrepareCall) (site : Site) (digest : String) : Fence :=
  ⟨1, hostReactivation, call.operationId, site.hubId, site.host, call.snapshot.name.text, some digest⟩

/-- The handoff of a reactivation. -/
def PrepareCall.handoff (call : PrepareCall) (site : Site) (state : HandoffState) (inode : Nat) :
    Handoff :=
  ⟨state, site.hubId, site.host, call.operationId, call.snapshot.name.text, inode, call.fenceStaging⟩

lemma PrepareCall.handoffValid (hsite : site.Valid) (call : PrepareCall) (hi : 0 < inode) :
    (call.handoff site state inode).Valid :=
  ⟨hsite.hubId, hsite.host, isReactivationId_operationId call, call.snapshot.name.named, hi,
    isFenceStaging_fenceStaging call⟩

/-- The directory with the handoff and the staged fence. -/
def PrepareCall.offered (call : PrepareCall) (site : Site) (digest : String) (w : Root) : Root :=
  { w with
    inodes := w.inodes + 1 + 1
    fenceStaging := some (call.fenceStaging, ⟨w.inodes, .whole (call.marker site digest)⟩)
    handoff := some ⟨w.inodes + 1, .whole (call.handoff site .creating w.inodes)⟩ }

/-- The directory with the fence and its handoff. -/
def PrepareCall.published (call : PrepareCall) (site : Site) (digest : String) (w : Root)
    (inodes i : Nat) (state : HandoffState) : Root :=
  { w with
    inodes := inodes
    fence := some ⟨w.inodes, .whole (call.marker site digest)⟩
    fenceStaging := none
    handoff := some ⟨i, .whole (call.handoff site state w.inodes)⟩ }

/-- A directory in which a reactivation can be published. -/
structure Ready (site : Site) (call : PrepareCall) (digest : String) (w : Root) : Prop where
  settled : Settled site w
  fence : w.fence = none
  handoff : w.handoff = none
  held : Held site w.backups (.snapshot call.snapshot.name.text) hostReactivation digest

namespace Ready
variable {call : PrepareCall} {digest : String} (h : Ready site call digest w)
include h

lemma fenceStaging : w.fenceStaging = none := h.settled.staging h.handoff

lemma markerOk (hsite : site.Valid) : FenceOk site (call.marker site digest) :=
  fenceOk_new hsite boundedText_reactivation (maintenanceOperationId_reactivation call) h.held

lemma checkStaged_ok (hsite : site.Valid) :
    checkStaged (call.handoff site state inode) ⟨i, .whole (call.marker site digest)⟩ = .ok () := by
  have hvalid := (h.markerOk hsite).valid
  simp [checkStaged, readText, ok_bind, refuseIf, hvalid]
  exact ⟨rfl, rfl, rfl, rfl, rfl⟩

lemma staging (text : Text Fence) : Inv site { w with
    inodes := w.inodes + 1
    fenceStaging := some (call.fenceStaging, ⟨w.inodes, text⟩) } where
  apart :=
    { pos := Nat.succ_pos _
      fenceBelow := fun f hf => by rw [h.fence] at hf; cases hf
      stagingBelow := fun p hp => by cases hp; exact Nat.lt_succ_self _
      apart := fun f p hf => by rw [h.fence] at hf; cases hf }
  whole := .free h.fence
  handed := .nobody h.handoff fun i f hf => by rw [h.fence] at hf; cases hf
  backed := h.settled.inv.backed
  loose := h.settled.inv.loose

lemma creating (hsite : site.Valid) : Inv site (call.offered site digest w) where
  apart := (h.staging _).apart.more
  whole := .free h.fence
  handed := by
    refine .owner _ _ rfl ⟨call.handoffValid hsite h.settled.inv.apart.pos, rfl, rfl,
      maintenanceOperationId_reactivation call, fun p hp => ?_, fun i f hf => ?_⟩
    · cases hp
      exact ⟨rfl, rfl, rfl, h.checkStaged_ok hsite⟩
    · have hw : w.fence = some ⟨i, .whole f⟩ := hf
      rw [h.fence] at hw
      cases hw
  backed := h.settled.inv.backed
  loose := h.settled.inv.loose

lemma fenced (hsite : site.Valid) (hlt : w.inodes < inodes) (state : HandoffState) :
    Settled site (call.published site digest w inodes i state) where
  inv :=
    { apart :=
        { pos := Nat.zero_lt_of_lt hlt
          fenceBelow := fun f hf => by cases hf; exact hlt
          stagingBelow := nofun
          apart := nofun }
      whole := .fenced _ _ rfl (h.markerOk hsite)
      handed := by
        refine .owner _ _ rfl ⟨call.handoffValid hsite h.settled.inv.apart.pos, rfl, rfl,
          maintenanceOperationId_reactivation call, nofun, fun i f hf _ => ?_⟩
        cases hf
        exact ⟨rfl, rfl, rfl⟩
      backed := .still h.settled.rebase fun i f hf => by
        cases hf
        exact ⟨digest, rfl, h.held⟩
      loose := h.settled.inv.loose }
  rebase := h.settled.rebase
  retired := h.settled.retired
  staging _ := rfl

end Ready

lemma sure_linkFence {f : File Fence} (hf : w.fence = none)
    (hst : w.fenceStaging = some (name, f)) (hx0 : post.died w)
    (hx : post.died { w with fence := some f, fenceStaging := some (name, f) })
    (hd : post.done () { w with fence := some f, fenceStaging := none }) :
    (linkFence name f.inode).Sure post w := by
  refine sure_bind (sure_read (sure_bind (sure_refuse (by simp [hf]) ?_)))
  refine sure_bind (sure_perform ?_ hx0)
  rw [hst]
  exact sure_bind (sure_read (sure_bind (sure_refuse (by simp) (sure_perform hd hx))))

lemma linkFence_dies (hf : w.fence = none) (rest : List (Fate Empty)) :
    linkFence name inode w (.dies :: rest) = (.died, w, rest) := by
  show Prog.bind _ _ w (.dies :: rest) = _
  simp only [Prog.bind, hf]
  rfl

/-- No kill strikes in the windows of a reactivation. -/
structure PrepareCall.Spared (call : PrepareCall) : Prop where
  snapshot : call.snapshot.Spared
  writing : Unbroken call.writing
  linking : Unbroken call.linking

lemma sure_linked (h : Ready site call digest w) :
    (linkFence call.fenceStaging w.inodes).Sure ⟨fun _ w' => w' =
        call.published site digest w (w.inodes + 1 + 1) (w.inodes + 1) .creating,
      fun _ _ => False, fun _ => True⟩ (call.offered site digest w) :=
  sure_linkFence (w := call.offered site digest w)
    h.fence rfl trivial trivial rfl

/-- A linked fence is verified, and its handoff is open to adoption. -/
lemma sure_unclaimed (hsite : site.Valid) (h : Ready site call digest w)
    (hx : post.died (call.published site digest w (w.inodes + 1 + 1) (w.inodes + 1) .creating)) (hd :
      post.done () (call.published site digest w (w.inodes + 1 + 1 + 1) (w.inodes + 1 + 1) .unclaimed)) :
    (do
      let control ← look fun w => maintenanceFenceControl site w
        (call.handoff site .creating w.inodes).expected true
      refuse (control.isNone = true)
        (.runtime "Team Hub reactivation source fence could not be verified")
      replace handoffSlot (call.handoff site .unclaimed w.inodes) : Job Unit).Sure post
      (call.published site digest w (w.inodes + 1 + 1) (w.inodes + 1) .creating) := by
  have hcontrol := (h.fenced hsite (i := w.inodes + 1) (Nat.lt_add_of_pos_right Nat.zero_lt_two)
    .creating).control rfl
  refine sure_bind (sure_look hcontrol (sure_bind (sure_refuse (by simp) ?_)))
  exact sure_bind (sure_read (sure_perform hd hx))

/-- PUBLICATION of a reactivation: it stays recoverable. -/
theorem ensures_publishReactivation (hsite : site.Valid) (hcall : call.Spared)
    (h : Ready site call digest w) :
    (publishReactivation site call.snapshot.name.text call).Ensures (.always (Inv site)) w := by
  have hinv := h.settled.inv
  have hfree : (fenceStagingSlot call.fenceStaging).get w = none := by
    simp [fenceStagingSlot, h.fenceStaging]
  refine look_then hinv fun d hd => ?_
  cases (getOr_ok hd).symm.trans h.held.manifestDigest
  refine ensures_bind (sure_create (fun _ _ _ => rfl) hfree hinv h.staging ?_).safe
  refine ensures_bind (ensures_handle (ensures_bind (ensures_create (fun _ _ _ => rfl) hcall.writing
    (fun hsome => ?_) (h.staging _) fun _ => ?_)))
  · have hnone : handoffSlot.get w = none := h.handoff
    have hsome' : (handoffSlot.get w).isSome = true := hsome
    rw [hnone] at hsome'
    cases hsome'
  · refine (ensures_unbroken hcall.linking (sure_linked h) (linkFence_dies h.fence)).bind
      (fun _ w' hw' => ?_) (fun _ _ => False.elim) fun w' hw' => ?_
    · rw [hw']
      have hlt : w.inodes < w.inodes + 1 + 1 := by omega
      refine (sure_unclaimed hsite h (h.fenced hsite hlt .creating).inv ?_).safe
      exact ensures_pure (h.fenced hsite (Nat.lt_succ_of_lt hlt) .unclaimed).inv
    · rw [hw']
      exact h.creating hsite

/-- PUBLICATION of a reactivation: left alone it succeeds. -/
theorem sure_publishReactivation (hsite : site.Valid) (hwriting : call.writing = [])
    (hlinking : call.linking = []) (h : Ready site call digest w) :
    (publishReactivation site call.snapshot.name.text call).Sure (surely site fun p w' =>
      w'.fence = some ⟨p.inode, .whole (call.marker site digest)⟩) w := by
  have hinv := h.settled.inv
  have hfree : (fenceStagingSlot call.fenceStaging).get w = none := by
    simp [fenceStagingSlot, h.fenceStaging]
  have hdigest : (fun w : Root => getOr (site.manifestDigest w (.snapshot call.snapshot.name.text))
      Err.os) w = .ok digest := congrArg (getOr · Err.os) h.held.manifestDigest
  refine sure_bind (sure_look hdigest ?_)
  refine sure_bind (sure_create (fun _ _ _ => rfl) hfree hinv h.staging ?_)
  have hcreated : (create handoffSlot (call.handoff site .creating w.inodes)).Sure
      ⟨fun _ w' => w' = call.offered site digest w, fun _ _ => True, fun _ => True⟩
      { w with
        inodes := w.inodes + 1
        fenceStaging := some (call.fenceStaging, ⟨w.inodes, .whole (call.marker site digest)⟩) } :=
    sure_create (fun _ _ _ => rfl) h.handoff trivial (fun _ => trivial) rfl
  have hlt : w.inodes < w.inodes + 1 + 1 := by omega
  rw [hwriting, hlinking]
  refine sure_bind (sure_handle ((sure_under hcreated).bind (fun _ w1 h1 => ?_) (fun _ _ => False.elim)
    fun _ => False.elim))
  rw [h1]
  refine (sure_under (sure_linked h)).bind (fun _ w2 h2 => ?_) (fun _ _ => False.elim)
    fun _ => False.elim
  rw [h2]
  refine sure_unclaimed hsite h (h.fenced hsite hlt .creating).inv ?_
  exact sure_pure rfl

lemma maintenanceFence_none {hubId : String} (h : maintenanceFence w hubId host = .ok none) :
    w.readFence = .ok none := by
  obtain ⟨raw, hraw, h⟩ := bind_ok h
  cases raw with
  | none => exact hraw
  | some f =>
    obtain ⟨_, _, h⟩ := bind_ok h
    cases h

lemma Inv.free (hi : Inv site w) (h : w.readFence = .ok none) : w.fence = none := by
  cases hi.whole with
  | free hnone => exact hnone
  | fenced i f hf ok =>
    rw [readFence_whole hi.apart.hardLinked hf] at h
    cases h

/-- A snapshot of a directory without the files of a reactivation leaves it ready for one. -/
lemma Taken.ready (h : Taken site hostReactivation call.snapshot w w') (hf : w.fence = none)
    (hh : w.handoff = none)
    (hd : Held site w'.backups (.snapshot call.snapshot.name.text) hostReactivation digest) :
    Ready site call digest w' := by
  obtain ⟨b, rfl⟩ := h.same
  exact ⟨h.settled, hf, hh, hd⟩

lemma ensures_prepare (hsite : site.Valid) (hcall : call.Spared) (hi : Inv site w) :
    (prepareManagedHostReactivation site host call).Ensures (.always (Inv site)) w := by
  refine refuse_then hi fun _ => ?_
  refine (sure_lock hi).safe.next fun _ w1 h1 => ?_
  refine (ensures_recoverHandoff h1.1).next fun r w2 h2 => ?_
  cases r with
  | some h =>
    exact ensures_bind (ensures_look (fun _ _ => ensures_pure h2.1) fun _ _ => h2.1)
  | none =>
    obtain ⟨hs2, hh2⟩ := h2.2 rfl
    refine look_then hs2.inv fun fence hfence => ?_
    refine refuse_then hs2.inv fun hnot => ?_
    rw [Option.not_isSome_iff_eq_none.1 hnot] at hfence
    have hf2 := hs2.inv.free (maintenanceFence_none hfence)
    refine (ensures_snapshot hs2 (fun _ => .inr hf2) hcall.snapshot).next fun name w3 h3 => ?_
    obtain ⟨rfl, clean, hclean, htaken⟩ := h3
    cases boundedText_reactivation.symm.trans hclean
    cases hdigest : site.manifestDigest w3 (.snapshot call.snapshot.name.text) with
    | none =>
      refine look_then htaken.settled.inv fun d hd => ?_
      rw [hdigest] at hd
      cases hd
    | some d =>
      exact ensures_publishReactivation hsite hcall (htaken.ready hf2 hh2 (htaken.held hdigest))

/-- No fence, or one of a reactivation that nobody adopted. -/
structure Unadopted (w : Root) : Prop where
  reactivating : Reactivating w
  unadopted : ∀ k h, w.fence.isSome = true → w.handoff = some ⟨k, .whole h⟩ → h.state ≠ .adopted

lemma Follows.unadopted (h : Follows w w') (hu : Unadopted w) : Unadopted w' := by
  rcases h.fence with ⟨_, hsame⟩ | ⟨i, j, k, f, i', d, _, hf, hreason, _⟩
  · refine ⟨?_, fun k h' hsome hh' => hu.unadopted k h' (hsame ▸ hsome) (h.handoff ▸ hh')⟩
    unfold Reactivating
    rw [hsame]
    exact hu.reactivating
  · exact absurd (hreason.symm.trans (hu.reactivating.fenced hf)) serverUpdate_ne

/-- A call that nothing befalls, with a snapshot newer than those there are. -/
structure PrepareCall.Fresh (call : PrepareCall) (w : Root) : Prop where
  staging : call.snapshot.staging = []
  writing : call.writing = []
  linking : call.linking = []
  newest : ∀ n, (w.backups.lookup (.snapshot n)).isSome = true → n < call.snapshot.name.text

/-- Without a fence of an update there is no journal of a rebase. -/
lemma Inv.unrebased (hi : Inv site w) (hr : Reactivating w) : w.rebase = none := by
  cases hi.backed with
  | still hnone _ => exact hnone
  | swapping _ _ _ _ k f hf of _ => exact absurd (of.reason.symm.trans (hr.fenced hf)) serverUpdate_ne

/-- `prepare_managed_host_reactivation` succeeds where nobody has adopted the fence. -/
lemma sure_prepare (hsite : site.Valid) (hi : Inv site w) (hu : Unadopted w) (hcall : call.Fresh w) :
    (prepareManagedHostReactivation site site.host call).Sure (toward site fun p w' => ∃ digest,
      w'.fence = some ⟨p.inode, .whole (call.marker site digest)⟩) w := by
  refine sure_bind (sure_refuse (not_not_intro rfl) ?_)
  refine (sure_lock hi).next fun _ w1 h1 => ?_
  obtain ⟨hs1, hfollows⟩ := h1
  have hu1 := hfollows.unadopted hu
  refine (sure_recoverHandoff hs1 hu1.reactivating).bind (fun r w2 h2 => ?_) (fun _ _ => False.elim)
    fun _ => id
  rcases h2 with ⟨rfl, hbare⟩ | ⟨_, k, h, _, hh, hadopted, hsome⟩
  · have hnone : maintenanceFence w2 "" site.host = .ok none := by
      simp [maintenanceFence, readFence_none hbare.fence]
      rfl
    -- the names of the snapshots are those of the directory the call found
    have hlast : ∀ n, (w2.backups.lookup (.snapshot n)).isSome = true →
        n < call.snapshot.name.text := by
      intro n hn
      rw [hbare.backups, hfollows.snapshots (hi.unrebased hu.reactivating)] at hn
      exact hcall.newest n hn
    have hfree : w2.backups.lookup (.snapshot call.snapshot.name.text) = none := by
      rw [← Option.not_isSome_iff_eq_none]
      exact fun hsome => lt_irrefl _ (hlast _ hsome)
    refine sure_bind (sure_look hnone (sure_bind (sure_refuse (by simp) ?_)))
    refine (sure_snapshot hbare.settled boundedText_reactivation hfree (fun _ => .inr hbare.fence)
      hcall.staging).bind (fun name w3 h3 => ?_) (fun _ _ => False.elim) fun _ => id
    obtain ⟨rfl, htaken⟩ := h3
    obtain ⟨g, hg⟩ := Option.isSome_iff_exists.1 (htaken.stays hlast)
    have hdigest : site.manifestDigest w3 (.snapshot call.snapshot.name.text) =
        some (site.sha256 (call.snapshot.manifest site hostReactivation)) := by
      have hgen : w3.generation (.snapshot call.snapshot.name.text) = some g := hg
      rw [Site.manifestDigest, hgen, htaken.complete g hg]
      rfl
    exact (sure_publishReactivation hsite hcall.writing hcall.linking
      (htaken.ready hbare.fence hbare.handoff (htaken.held hdigest))).mono
      (fun p w' h => ⟨_, h⟩) (fun _ _ => False.elim) fun _ => id
  · exact absurd hadopted (hu1.unadopted k h hsome hh)

end Prepare

/-! ### Adoption and abort -/

section AdoptAbort
variable {site : Site} {w : Root}
variable {p : Prepared}

lemma checkAdoption_ok {h : Handoff} (hh : checkAdoption site w host p = .ok h) :
    w.readHandoff = .ok (some h) := by
  obtain ⟨r, hread, hrest⟩ := bind_ok hh
  obtain ⟨h', hget, hrest⟩ := found_ok hrest
  iterate 5 obtain ⟨_, _, hrest⟩ := bind_ok hrest
  rw [hread, hget, Except.ok.inj hrest]

lemma ensures_adopt (hi : Inv site w) :
    (adoptPreparedHostReactivation site host p).Ensures (.always (Inv site)) w := by
  refine (sure_lock hi).safe.next fun _ w1 h1 => ?_
  obtain ⟨hs1, _⟩ := h1
  have hi1 := hs1.inv
  refine look_then hi1 fun h hh => ?_
  show Prog.Ensures (if h.state = .unclaimed then _ else _) _ _
  split
  · next hstate =>
    refine ensures_bind (ensures_read (ensures_perform ?_ hi1))
    obtain ⟨r, hread, hor⟩ := readHandoff_ok hi1
    cases hread.symm.trans (checkAdoption_ok hh)
    rcases hor with ⟨hnone, _⟩ | ⟨k, h', heq, hw, own⟩
    · cases hnone
    · cases heq
      refine ⟨hi1.apart.more, hi1.whole, .owner _ _ rfl { own with staged := fun p hp => ?_ }, hi1.backed, hi1.loose⟩
      -- a staged fence has a handoff that is still being created
      have hcreating := (own.staged p hp).state
      rw [hstate] at hcreating
      cases hcreating
  · exact ensures_pure hi1

lemma ensures_abort (hi : Inv site w) :
    (abortPreparedHostReactivation site host p).Ensures (.always (Inv site)) w := by
  refine (sure_lock hi).safe.next fun _ w1 h1 => ?_
  obtain ⟨hs1, _⟩ := h1
  refine look_then hs1.inv fun present _ => ?_
  cases present with
  | false => exact ensures_pure hs1.inv
  | true =>
    refine ensures_bind (ensures_perform ?_ hs1.inv)
    exact (ensures_consume hs1.unfence.inv rfl).bind (fun _ _ h => ensures_pure h.1)
      (fun _ _ h => h.1) fun _ h => h.1

end AdoptAbort

/-! ### Runs -/

section Runs
variable {site : Site}
variable {w : Root}

/-- No kill strikes in one of the windows, and a fence of a snapshot is not called a reactivation's. -/
def Move.Spared : Move → Prop
  | .snapshotAndFence reason _ _ call writing _ =>
    call.Spared ∧ Unbroken writing ∧ Py.strip reason ≠ hostReactivation
  | .rebase _ _ _ _ call _ writing _ => call.Spared ∧ Unbroken writing
  | .prepare _ call _ => call.Spared
  | _ => True

/-- STEP: an operation keeps the invariant. -/
theorem step_inv (hsite : site.Valid) {m : Move} (hm : m.Spared) (hi : Inv site w) :
    Inv site (step site w m) := by
  cases m with
  | snapshotAndFence _ _ _ _ _ fates =>
    exact (ensures_snapshotAndFence hsite hm.1 hm.2.1 hm.2.2 hi).always fates
  | clear _ _ _ fates => exact (ensures_clear hi).always fates
  | clearControl _ _ fates => exact (ensures_clearControl hi).always fates
  | rebase _ _ _ _ _ _ _ fates => exact (ensures_rebase hsite hm.1 hm.2 hi).always fates
  | prepare _ _ fates => exact (ensures_prepare hsite hm hi).always fates
  | adopt _ _ fates => exact (ensures_adopt hi).always fates
  | abort _ _ fates => exact (ensures_abort hi).always fates

lemma inv_empty : Inv site {} :=
  ⟨⟨Nat.zero_lt_one, nofun, nofun, nofun⟩, .free rfl, .nobody rfl nofun, .still rfl nofun,
    fun _ _ hg => nomatch hg⟩

/-- RUN: so does every run. -/
theorem run_inv_spared (hsite : site.Valid) {moves : List Move} (hm : ∀ m ∈ moves, m.Spared) :
    Inv site (run (step site) {} moves) :=
  run_inv_along (fun _ _ hspared hi => step_inv hsite hspared hi) moves _
    (along_of_forall moves _ hm) inv_empty

/-- A directory nobody is locked out of. -/
structure NeverWedged (site : Site) (w : Root) : Prop where
  /-- Left alone the lock is taken. -/
  lock : ∃ w', maintenanceControlLock site w [] = (.done (), w', [])
  /-- Whoever has taken it finds no fence, or one whole valid fence of a complete generation with
      the digest it records. -/
  fence : ∀ fates w' rest, maintenanceControlLock site w fates = (.done (), w', rest) →
    w'.fence = none ∨ ∃ i f, w'.fence = some ⟨i, .whole f⟩ ∧ w'.hardLinked = false ∧ f.Valid ∧
      Sealed site w'.backups f
  /-- After a rebase that is the old or the new generation. -/
  rebased : ∀ i j, w.rebase = some ⟨i, .whole j⟩ → ∀ fates w' rest,
    maintenanceControlLock site w fates = (.done (), w', rest) → ∃ k f d,
      w'.fence = some ⟨k, .whole f⟩ ∧ f.snapshot = j.target ∧ f.snapshotManifestSha256 = some d ∧
        (d = j.targetManifestSha256 ∨ d = j.replacementManifestSha256)
  /-- As long as its journal is there the old generation is complete, and once it is gone the fence
      is bound to a complete one. -/
  kept : (∀ i j, w.rebase = some ⟨i, .whole j⟩ →
      Held site w.backups (.snapshot j.target) serverUpdate j.targetManifestSha256 ∨
      Held site w.backups (.retired j.retired) serverUpdate j.targetManifestSha256) ∧
    (w.rebase = none → ∀ i f, w.fence = some ⟨i, .whole f⟩ → Sealed site w.backups f)
  /-- A fence of a reactivation that nobody adopted gives way to the next one. -/
  prepare : ∀ call : PrepareCall, Unadopted w → call.Fresh w → ∃ p w' digest,
    prepareManagedHostReactivation site site.host call w [] = (.done p, w', []) ∧
      w'.fence = some ⟨p.inode, .whole (call.marker site digest)⟩
  /-- Every other fence is cleared by those who know its names. -/
  clear : ∀ i f, Clearable site w i f →
    (∃ w', clearMaintenanceFence site f.reason f.operationId f.snapshot w [] = (.done true, w', []) ∧
      w'.fence = none) ∧
    ∀ inode : Option Nat, (∀ k ∈ inode, k = i ∧ w.rebase = none) → ∃ w',
      clearMaintenanceFenceControl site (f.expected site) inode w [] = (.done true, w', []) ∧
        w'.fence = none

lemma Layout.old (h : Layout site j b) :
    Held site b (.snapshot j.target) serverUpdate j.targetManifestSha256 ∨
      Held site b (.retired j.retired) serverUpdate j.targetManifestSha256 := by
  cases h with
  | begun target _ _ | undone target _ _ => exact .inl target
  | retired _ _ retired | replaced _ _ retired => exact .inr retired

/-- What a lock that was taken leaves. -/
lemma Inv.locked (hi : Inv site w) {fates rest : List (Fate Empty)}
    (h : maintenanceControlLock site w fates = (.done (), w', rest)) :
    Settled site w' ∧ Follows w w' := by
  have met := (sure_lock hi).safe.met fates
  rw [h] at met
  exact met

lemma Inv.neverWedged (hsite : site.Valid) (hi : Inv site w) : NeverWedged site w where
  lock := by
    obtain ⟨_, w', hrun, _⟩ := (sure_lock hi).calm
    exact ⟨w', hrun⟩
  fence fates w' rest h := by
    obtain ⟨hs, _⟩ := hi.locked h
    cases hs.inv.whole with
    | free hnone => exact .inl hnone
    | fenced i f hf ok =>
      exact .inr ⟨i, f, hf, hs.inv.apart.hardLinked, ok.valid, hs.inv.sealed hs.rebase hf⟩
  rebased i j hj fates w' rest h := by
    obtain ⟨_, hfollows⟩ := hi.locked h
    rcases hfollows.fence with ⟨hnone, _⟩ | ⟨_, j', _, f, i', d, hj', _, _, hsnap, hf, hd⟩
    · rw [hnone] at hj
      cases hj
    · rw [hj] at hj'
      cases hj'
      exact ⟨i', _, d, hf, hsnap, rfl, hd⟩
  kept := by
    refine ⟨fun i j hj => ?_, fun hnone i f hf => hi.sealed hnone hf⟩
    cases hi.backed with
    | still hnone _ =>
      rw [hnone] at hj
      cases hj
    | swapping i' j' hj' _ _ _ _ _ layout =>
      rw [hj] at hj'
      cases hj'
      exact layout.old
  prepare call hu hcall := by
    obtain ⟨p, w', hrun, digest, hf⟩ := (sure_prepare hsite hi hu hcall).calm
    exact ⟨p, w', digest, hrun, hf⟩
  clear i f hc := by
    refine ⟨?_, fun inode hinode => ?_⟩
    · obtain ⟨r, w', hrun, rfl, hf, _⟩ := (sure_clear hi hc).calm
      exact ⟨w', hrun, hf⟩
    · obtain ⟨r, w', hrun, rfl, hf, _⟩ := (sure_clearControl hi hc hinode).calm
      exact ⟨w', hrun, hf⟩

end Runs

/-! ### The windows -/

namespace Drill

def site : Site where
  hubId := "hub_demo"
  host := "host_demo"
  sha256 m :=
    if m.contents = "new" then "0000000000000000000000000000000000000000000000000000000000000001"
    else "0000000000000000000000000000000000000000000000000000000000000000"

lemma site_valid : site.Valid where
  hubId := by decide +kernel
  host := by decide +kernel
  digest m := by
    unfold site
    dsimp only
    split
    · decide +kernel
    · decide +kernel

def token : Token := ⟨"000000000000000000000000", by decide +kernel⟩

def first : SnapshotCall := ⟨⟨"snapshot_1", by decide +kernel⟩, "old", false, []⟩
def second : SnapshotCall := ⟨⟨"snapshot_2", by decide +kernel⟩, "new", false, []⟩

/-- A server update that fences its snapshot, and what befalls the writing of the fence. -/
def update (call : SnapshotCall) (writing : List (Fate Empty)) : Move :=
  .snapshotAndFence serverUpdate "op_1" 3 call writing []

/-- A reactivation, and what befalls it. -/
def reactivate (writing linking : List (Fate Empty)) : Move :=
  .prepare site.host ⟨first, token, writing, linking⟩ []

def after (moves : List Move) : Root := run (step site) {} moves

/-- The next reactivation. -/
def next (w : Root) : End Err Prepared :=
  (prepareManagedHostReactivation site site.host ⟨second, token, [], []⟩ w []).1

/-- A rebase that is killed between its two renames. -/
def swapping : List Move :=
  [update first [], .rebase site.host site.hubId "op_1" "snapshot_1" second token [] [.happens, .dies]]

end Drill

/-- A kill in each of the windows, and a reactivation's name on another fence: a fence left empty or
    torn, a journal left torn, or a fence with two names, and the lock is refused from then on; a
    handoff left torn, a hard link left in a staged snapshot or a fence without a handoff, and the
    next reactivation is. -/
theorem kills_wedge :
    (maintenanceControlLock Drill.site (Drill.after
      [Drill.update Drill.first [.happens, .dies]]) []).1 = .raised .os ∧
    (maintenanceControlLock Drill.site (Drill.after
      [Drill.update Drill.first [.happens, .happens, .dies]]) []).1 =
        .raised (.runtime "Team Hub maintenance fence is invalid") ∧
    (maintenanceControlLock Drill.site (Drill.after [Drill.update Drill.first [],
      .rebase Drill.site.host Drill.site.hubId "op_1" "snapshot_1" Drill.second Drill.token
        [.happens, .happens, .dies] []]) []).1 =
        .raised (.runtime "Team Hub snapshot rebase journal is invalid") ∧
    (maintenanceControlLock Drill.site (Drill.after
      [Drill.reactivate [] [.happens, .dies]]) []).1 = .raised .os ∧
    Drill.next (Drill.after [Drill.reactivate [.happens, .happens, .dies] []]) =
      .raised (.runtime "Team Hub reactivation handoff is invalid") ∧
    Drill.next (Drill.after [Drill.update
      { Drill.first with linked := true, staging := [.happens, .happens, .dies] } []]) =
      .raised .os ∧
    Drill.next (Drill.after [.snapshotAndFence hostReactivation "op_1" 3 Drill.first [] []]) =
      .raised (.runtime "Team Hub maintenance fence is invalid") := by
  decide +kernel

/-- MAINTENANCE: in every run without a kill in one of the windows nobody is ever locked out. -/
theorem maintenance_never_wedges (site : Site) (hsite : site.Valid) (moves : List Move)
    (hm : ∀ m ∈ moves, m.Spared) : NeverWedged site (run (step site) {} moves) :=
  (run_inv_spared hsite hm).neverWedged hsite

/-- The rule at a rebase that is killed between its two renames. -/
theorem maintenance_never_wedges_swapping :
    (Drill.after Drill.swapping).backups.lookup (.snapshot "snapshot_1") = none ∧
    NeverWedged Drill.site (Drill.after Drill.swapping) := by
  refine ⟨by decide +kernel, maintenance_never_wedges Drill.site Drill.site_valid _ fun m hm => ?_⟩
  simp only [Drill.swapping, List.mem_cons, List.not_mem_nil, or_false] at hm
  rcases hm with rfl | rfl
  · exact ⟨.inl rfl, .inl rfl, by decide +kernel⟩
  · exact ⟨.inl rfl, .inl rfl⟩

end TeamHub.Maintenance
