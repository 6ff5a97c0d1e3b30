import ZenithBot.TeamHub.Maintenance

/-! A kill during maintenance control does not wedge the Hub, under conditions on where it strikes.
    `Inv` says what a directory looks like between two operations: the fence is absent or whole and names a
    complete generation; a fence of a reactivation belongs to the handoff; a pending rebase is at one of
    four points, with the old generation complete. Every action keeps `Inv`, so a kill anywhere leaves it;
    and from `Inv` the lock, a reactivation and a clear, left alone, go through (`Sure`).

    Five places are left out. The fence of a snapshot, the journal of a rebase and the handoff of a
    reactivation are written in place, and a torn one is refused for good; the fence of a reactivation
    has two names for a moment, and is refused before the handoff could remove one; and so is an
    abandoned snapshot with a hard link in it. -/

namespace TeamHub.Maintenance
open Lib Prog List

variable {S : Place → Prop} {b : Backups} {post : Post Root Err Unit} {g : Generation} {p : Place}
  {f : Fence} {i : Nat} {d : String}

/-! ### Texts -/

section Texts
variable {result value : String} {field : String} {lo hi : Nat} (call : PrepareCall)

lemma between_append {left right middle : String} {p : List Char → Bool} :
    between left right p (left ++ middle ++ right) = p middle.toList := by
  simp only [between, String.length_append, String.toList_append, append_assoc]
  have hl : left.length = left.toList.length := String.length_toList.symm
  have hm : middle.length = middle.toList.length := String.length_toList.symm
  have hdrop : left.length + middle.length + right.length - right.length =
      (left.toList ++ middle.toList).length := by
    rw [length_append]
    omega
  have htake : left.length + middle.length + right.length - left.length - right.length =
      middle.toList.length := by omega
  have hle : left.length + right.length ≤ left.length + middle.length + right.length := by omega
  rw [hdrop, htake, ← append_assoc, append_assoc, hl]
  simp [hl ▸ hle]

lemma isReactivationId_operationId : isReactivationId call.operationId = true := by
  have h := @between_append "host-reactivation-" "" call.token.text (isHex 24)
  rw [String.append_empty] at h
  exact h.trans call.token.hex

lemma isFenceStaging_fenceStaging : isFenceStaging call.fenceStaging = true := by
  have h := @between_append ".maintenance-fence-host-reactivation-" ".pending" call.token.text
    (isHex 24)
  have hname : call.fenceStaging =
      ".maintenance-fence-host-reactivation-" ++ call.token.text ++ ".pending" := by
    have hleft : ".maintenance-fence-host-reactivation-" =
        ".maintenance-fence-" ++ "host-reactivation-" := by decide +kernel
    rw [hleft]
    show ".maintenance-fence-" ++ ("host-reactivation-" ++ call.token.text) ++ ".pending" = _
    rw [← String.append_assoc]
  exact h.trans call.token.hex

lemma isRetiredName_token (token : Token) :
    isRetiredName (".snapshot-rebase-" ++ token.text ++ ".old") = true :=
  between_append.trans token.hex

lemma boundedText_ok (h : boundedText value field lo hi = .ok result) :
    result = Py.strip value ∧ lo ≤ result.length ∧ result.length ≤ hi := by
  simp only [boundedText] at h
  split at h
  · next hlen =>
    cases h
    exact ⟨rfl, hlen⟩
  · cases h

lemma boundedText_self (hs : Py.strip value = value)
    (hlo : lo ≤ value.length) (hhi : value.length ≤ hi) :
    boundedText value field lo hi = .ok value := by
  unfold boundedText
  rw [hs]
  exact if_pos ⟨hlo, hhi⟩

lemma boundedText_again (h : boundedText value field lo hi = .ok result) :
    boundedText result field lo hi = .ok result := by
  obtain ⟨rfl, hlo, hhi⟩ := boundedText_ok h
  exact boundedText_self (Py.strip_strip value) hlo hhi

lemma maintenanceOperationId_ok (h : maintenanceOperationId value = .ok result) :
    isOperationId result = true ∧ maintenanceOperationId result = .ok result := by
  obtain ⟨text, htext, h⟩ := bind_ok h
  have hagain := boundedText_again htext
  split at h
  · next hid =>
    cases h
    refine ⟨hid, ?_⟩
    unfold maintenanceOperationId
    rw [hagain]
    exact if_pos hid
  · cases h

lemma isHexDigit_word {c : Char} (h : isHexDigit c = true) :
    c.isAlphanum = true ∧ Py.isSpace c = false := by
  have hrange : (48 ≤ c.toNat ∧ c.toNat ≤ 57) ∨ 97 ≤ c.toNat ∧ c.toNat ≤ 102 := by
    simp only [isHexDigit, Bool.or_eq_true, Bool.and_eq_true, decide_eq_true_eq, Char.isDigit] at h
    exact h
  constructor
  · have hword : c.isAlphanum = (c.isUpper || decide ('a'.val ≤ c.val) && decide (c.val ≤ 'z'.val) ||
        decide ('0'.val ≤ c.val) && decide (c.val ≤ '9'.val)) := rfl
    simp only [hword, Bool.or_eq_true, Bool.and_eq_true, decide_eq_true_eq]
    rcases hrange with hdigit | hlower
    · exact .inr hdigit
    · exact .inl (.inr ⟨hlower.1, hlower.2.trans (by decide)⟩)
  · simp only [Py.isSpace, Bool.or_eq_false_iff, Bool.and_eq_false_iff, decide_eq_false_iff_not]
    omega

lemma operationId_toList :
    call.operationId.toList = "host-reactivation-".toList ++ call.token.text.toList :=
  String.toList_append

lemma maintenanceOperationId_reactivation :
    maintenanceOperationId call.operationId = .ok call.operationId := by
  have hlist := operationId_toList call
  obtain ⟨hlen, hhex⟩ : call.token.text.toList.length = 24 ∧
      call.token.text.toList.all isHexDigit = true := by
    have := call.token.hex
    rw [isHex, Bool.and_eq_true, decide_eq_true_eq] at this
    exact this
  have hlength : call.operationId.length = 42 := by
    rw [← String.length_toList, hlist, length_append, hlen,
      (by decide +kernel : "host-reactivation-".toList.length = 18)]
  have hword : ∀ c ∈ call.operationId.toList,
      (c.isAlphanum || ['.', '_', ':', '-'].contains c) = true ∧ Py.isSpace c = false := by
    rw [hlist]
    intro c hc
    rcases mem_append.1 hc with hc | hc
    · have hall : ("host-reactivation-".toList.all fun c =>
          (c.isAlphanum || ['.', '_', ':', '-'].contains c) && !Py.isSpace c) = true := by
        decide +kernel
      simpa using all_eq_true.1 hall c hc
    · have hhexc := isHexDigit_word (all_eq_true.1 hhex c hc)
      exact ⟨by rw [hhexc.1]; rfl, hhexc.2⟩
  have hfirst : call.operationId.toList.take 1 = "host-reactivation-".toList.take 1 := by
    rw [hlist, take_append_of_le_length (by decide +kernel)]
  have hid : isOperationId call.operationId = true := by
    have hchars : (call.operationId.toList.all fun c =>
        c.isAlphanum || ['.', '_', ':', '-'].contains c) = true :=
      all_eq_true.2 fun c hc => (hword c hc).1
    rw [isOperationId, hlength, hfirst, hchars]
    decide +kernel
  unfold maintenanceOperationId
  rw [boundedText_self (Py.strip_of_no_space fun c hc => (hword c hc).2) (by omega) (by omega)]
  exact if_pos hid

end Texts

/-! ### What a directory looks like between two operations -/

/-- The Hub has valid identities, and digests look like digests. -/
structure Site.Valid (site : Site) : Prop where
  hubId : isHubId site.hubId = true
  host : isIdentity site.host = true
  digest : ∀ m, isDigest (site.sha256 m) = true

section Invariant
variable (site : Site)

structure Complete (reason digest : String) (g : Generation) : Prop where
  intact : g.intact = true
  manifest : ∃ m, g.manifest = some m ∧ m.hubId = site.hubId ∧ m.hostServerIdentity = site.host ∧
    m.reason = reason ∧ site.sha256 m = digest

/-- A complete generation under a name. -/
def Held (backups : Backups) (p : Place) (reason digest : String) : Prop :=
  ∃ g, backups.lookup p = some g ∧ Complete site reason digest g

/-- A fence as the operations write it. -/
structure FenceOk (f : Fence) : Prop where
  valid : f.Valid
  format : f.format = 1
  hubId : f.hubId = site.hubId
  host : f.hostServerIdentity = site.host
  reason : boundedText f.reason "reason" 1 80 = .ok f.reason
  operationId : maintenanceOperationId f.operationId = .ok f.operationId

/-- No fence, or a whole one. -/
inductive Whole (fence : Option (File Fence)) : Prop
  | free (h : fence = none)
  | fenced (i : Nat) (f : Fence) (h : fence = some ⟨i, .whole f⟩) (ok : FenceOk site f)

/-- The fence and the staged fence are different files. -/
structure Apart (inodes : Nat) (fence : Option (File Fence))
    (fenceStaging : Option (String × File Fence)) : Prop where
  pos : 0 < inodes
  fenceBelow : ∀ f, fence = some f → f.inode < inodes
  stagingBelow : ∀ p, fenceStaging = some p → p.2.inode < inodes
  apart : ∀ f p, fence = some f → fenceStaging = some p → f.inode ≠ p.2.inode

structure StagedFor (h : Handoff) (p : String × File Fence) : Prop where
  state : h.state = .creating
  name : p.1 = h.fenceStaging
  inode : p.2.inode = h.fenceInode
  fence : checkStaged h p.2 = .ok ()

/-- A handoff of this Hub, the owner of a fence of a reactivation. -/
structure Owner (fence : Option (File Fence)) (fenceStaging : Option (String × File Fence))
    (h : Handoff) : Prop where
  valid : h.Valid
  hubId : h.hubId = site.hubId
  host : h.hostServerIdentity = site.host
  operationId : maintenanceOperationId h.operationId = .ok h.operationId
  staged : ∀ p, fenceStaging = some p → StagedFor h p
  owns : ∀ i f, fence = some ⟨i, .whole f⟩ → f.reason = hostReactivation →
    i = h.fenceInode ∧ f.operationId = h.operationId ∧ f.snapshot = h.snapshot

/-- A fence of a reactivation has an owner. -/
inductive Handed (fence : Option (File Fence)) (fenceStaging : Option (String × File Fence))
    (handoff : Option (File Handoff)) : Prop
  | nobody (h : handoff = none)
      (fence : ∀ i f, fence = some ⟨i, .whole f⟩ → f.reason ≠ hostReactivation)
  | owner (i : Nat) (h : Handoff) (handoff : handoff = some ⟨i, .whole h⟩)
      (owner : Owner site fence fenceStaging h)

structure FenceOf (j : Rebase) (f : Fence) : Prop where
  ok : FenceOk site f
  reason : f.reason = serverUpdate
  operationId : f.operationId = j.operationId
  snapshot : f.snapshot = j.target

/-- The points a rebase can be at. -/
inductive Layout (j : Rebase) (backups : Backups) : Prop
  | begun (target : Held site backups (.snapshot j.target) serverUpdate j.targetManifestSha256)
      (replacement : (backups.lookup (.snapshot j.replacement)).isSome = true)
      (retired : backups.lookup (.retired j.retired) = none)
  | retired (target : backups.lookup (.snapshot j.target) = none)
      (replacement :
        Held site backups (.snapshot j.replacement) serverUpdate j.replacementManifestSha256)
      (retired : Held site backups (.retired j.retired) serverUpdate j.targetManifestSha256)
  | replaced
      (target : Held site backups (.snapshot j.target) serverUpdate j.replacementManifestSha256)
      (replacement : backups.lookup (.snapshot j.replacement) = none)
      (retired : Held site backups (.retired j.retired) serverUpdate j.targetManifestSha256)
  | undone (target : Held site backups (.snapshot j.target) serverUpdate j.targetManifestSha256)
      (replacement : backups.lookup (.snapshot j.replacement) = none)
      (retired : backups.lookup (.retired j.retired) = none)

structure JournalOk (j : Rebase) : Prop where
  valid : j.Valid
  hubId : j.hubId = site.hubId
  host : j.hostServerIdentity = site.host

/-- The fence names a complete generation with the digest it records. -/
def Sealed (backups : Backups) (f : Fence) : Prop :=
  ∃ d, f.snapshotManifestSha256 = some d ∧ Held site backups (.snapshot f.snapshot) f.reason d

/-- A fence is sealed, or its snapshot is being replaced. -/
inductive Backed (fence : Option (File Fence)) (rebase : Option (File Rebase)) (backups : Backups) :
    Prop
  | still (h : rebase = none) (fence : ∀ i f, fence = some ⟨i, .whole f⟩ → Sealed site backups f)
  | swapping (i : Nat) (j : Rebase) (h : rebase = some ⟨i, .whole j⟩) (ok : JournalOk site j)
      (k : Nat) (f : Fence) (fence : fence = some ⟨k, .whole f⟩) (of : FenceOf site j f)
      (layout : Layout site j backups)

/-- No snapshot being staged has a hard link. -/
def Loose (backups : Backups) : Prop :=
  ∀ n g, backups.lookup (.staging n) = some g → g.linked = false

/-- The directory between two operations. -/
structure Inv (w : Root) : Prop where
  apart : Apart w.inodes w.fence w.fenceStaging
  whole : Whole site w.fence
  handed : Handed site w.fence w.fenceStaging w.handoff
  backed : Backed site w.fence w.rebase w.backups
  loose : Loose w.backups

/-- The directory once the lock is taken. -/
structure Settled (w : Root) : Prop where
  inv : Inv site w
  rebase : w.rebase = none
  retired : ∀ n, w.backups.lookup (.retired n) = none
  staging : w.handoff = none → w.fenceStaging = none

/-- Done with `Q`, and `Inv` at the other two ends. -/
def toward {α : Type} (Q : α → Root → Prop) : Post Root Err α := ⟨Q, fun _ => Inv site, Inv site⟩

/-- Done with `Q` unless the process dies, and then `Inv`. -/
def surely {α : Type} (Q : α → Root → Prop) : Post Root Err α :=
  ⟨Q, fun _ _ => False, Inv site⟩

end Invariant

/-! ### Generations that come and go -/

section Backups
variable {site : Site} {b b' : Backups} {p q : Place} {reason digest : String}
variable {w : Root}

lemma Held.congr (hh : Held site b p reason digest) (h : b'.lookup q = b.lookup p) :
    Held site b' q reason digest := by
  obtain ⟨g, hg, hc⟩ := hh
  exact ⟨g, h.trans hg, hc⟩

/-- Only names in `S` have lost something. -/
structure Worn (S : Place → Prop) (b b' : Backups) : Prop where
  others : ∀ q, ¬S q → b'.lookup q = b.lookup q
  linked : ∀ q g', b'.lookup q = some g' → ∃ g, b.lookup q = some g ∧ g'.linked = g.linked

lemma Worn.refl (S : Place → Prop) : Worn S b b := ⟨fun _ _ => rfl, fun _ g h => ⟨g, h, rfl⟩⟩

section
variable (h : Worn S b b')
include h

lemma Worn.trans {b'' : Backups} (h' : Worn S b' b'') : Worn S b b'' where
  others q hq := (h'.others q hq).trans (h.others q hq)
  linked q g'' hg'' := by
    obtain ⟨g', hg', hl'⟩ := h'.linked q g'' hg''
    obtain ⟨g, hg, hl⟩ := h.linked q g' hg'
    exact ⟨g, hg, hl'.trans hl⟩

lemma Worn.mono {T : Place → Prop} (hST : ∀ q, S q → T q) : Worn T b b' where
  others q hq := h.others q fun hs => hq (hST q hs)
  linked := h.linked

lemma Worn.none (hq : b.lookup q = none) : b'.lookup q = none := by
  cases hb : b'.lookup q with
  | none => rfl
  | some g' =>
    obtain ⟨g, hg, _⟩ := h.linked q g' hb
    rw [hq] at hg
    cases hg

lemma Worn.held (hq : ¬S q) (hh : Held site b q reason digest) : Held site b' q reason digest :=
  hh.congr (h.others q hq)

lemma Worn.loose (hl : Loose b) : Loose b' := by
  intro n g' hg'
  obtain ⟨g, hg, heq⟩ := h.linked _ g' hg'
  exact heq.trans (hl n g hg)

end

lemma worn_erase : Worn (· = p) b (b.erase p) where
  others q hq := AList.lookup_erase_ne hq
  linked q g' hg' := by
    by_cases hq : q = p
    · rw [hq, AList.lookup_erase] at hg'
      cases hg'
    · exact ⟨g', (AList.lookup_erase_ne hq).symm.trans hg', rfl⟩

lemma worn_insert {g' : Generation} (hg : b.lookup p = some g) (hl : g'.linked = g.linked) :
    Worn (· = p) b (b.insert p g') where
  others q hq := AList.lookup_insert_ne hq
  linked q g'' hg'' := by
    by_cases hq : q = p
    · rw [hq, AList.lookup_insert, Option.some.injEq] at hg''
      exact ⟨g, hq ▸ hg, hg'' ▸ hl⟩
    · exact ⟨g'', (AList.lookup_insert_ne hq).symm.trans hg'', rfl⟩

lemma onGeneration_worn {f : Generation → Generation} (hf : ∀ g, (f g).linked = g.linked) :
    ∃ b, w.onGeneration p f = { w with backups := b } ∧ Worn (· = p) w.backups b ∧
      (b.lookup p).isSome = (w.backups.lookup p).isSome := by
  cases hg : w.generation p with
  | none =>
    refine ⟨w.backups, ?_, .refl _, rfl⟩
    unfold Root.onGeneration
    rw [hg]
  | some g =>
    have hg' : w.backups.lookup p = some g := hg
    refine ⟨w.backups.insert p (f g), ?_, worn_insert hg (hf g), ?_⟩
    · unfold Root.onGeneration
      rw [hg]
      rfl
    · rw [AList.lookup_insert, hg']
      rfl

/-- REMOVAL of a directory: on the way it only loses. -/
theorem sure_rmtree (hx : ∀ b, Worn (· = p) w.backups b → (b.lookup p).isSome = (w.backups.lookup
      p).isSome → post.died { w with backups := b })
    (hd : ∀ b, Worn (· = p) w.backups b → b.lookup p = none → post.done () { w with backups := b }) :
    (rmtree p).Sure post w := by
  obtain ⟨b1, h1, hw1, hs1⟩ := onGeneration_worn
    (f := fun g => { g with intact := false }) fun _ => rfl
  obtain ⟨b2, h2, hw2, hs2⟩ := onGeneration_worn
    (f := fun g => { g with intact := false, manifest := none }) fun _ => rfl
  refine sure_bind (sure_perform ?_ (hx w.backups (.refl _) rfl))
  rw [h1]
  refine sure_bind (sure_perform ?_ (hx b1 hw1 hs1))
  rw [h2]
  refine sure_perform ?_ (hx b2 (hw1.trans hw2) (hs2.trans hs1))
  exact hd (b2.erase p) ((hw1.trans hw2).trans worn_erase) (AList.lookup_erase p b2)

lemma sure_rmtrees {ps : List Place}
    (hx : ∀ b, Worn (· ∈ ps) w.backups b → post.died { w with backups := b }) (hd : ∀ b, Worn (· ∈ ps)
      w.backups b → (∀ p ∈ ps, b.lookup p = none) → post.done () { w with backups := b }) :
    (forEach (fun _ p => rmtree p) () ps : Job Unit).Sure post w := by
  refine sure_forEach (I := fun rest _ w' => ∃ b, w' = { w with backups := b } ∧
    Worn (· ∈ ps) w.backups b ∧ (∀ p ∈ rest, p ∈ ps) ∧ ∀ p ∈ ps, p ∉ rest → b.lookup p = none)
    (fun p rest _ w' hI => ?_) (fun _ w' hI => ?_)
    ⟨w.backups, rfl, .refl _, fun _ => id, fun p hp hn => absurd hp hn⟩
  · obtain ⟨b, rfl, hworn, hmem, hgone⟩ := hI
    have hp : p ∈ ps := hmem p mem_cons_self
    have hsub : ∀ q, q = p → q ∈ ps := fun q hq => hq ▸ hp
    refine sure_rmtree (fun b' hb' _ => hx b' (hworn.trans (hb'.mono hsub))) fun b' hb' hnone => ?_
    refine ⟨b', rfl, hworn.trans (hb'.mono hsub), fun q hq => hmem q (mem_cons_of_mem p hq),
      fun q hq hn => ?_⟩
    by_cases hqp : q = p
    · exact hqp ▸ hnone
    · exact hb'.none (hgone q hq (not_mem_cons_of_ne_of_not_mem hqp hn))
  · obtain ⟨b, rfl, hworn, _, hgone⟩ := hI
    exact hd b hworn fun p hp => hgone p hp not_mem_nil

/-- A generation has got another name. -/
structure Moved (p q : Place) (b b' : Backups) : Prop where
  target : b'.lookup q = b.lookup p
  source : b'.lookup p = none
  others : ∀ r, r ≠ p → r ≠ q → b'.lookup r = b.lookup r

lemma moved_rename (hne : p ≠ q) (hp : b.lookup p = some g) :
    Moved p q b ((b.erase p).insert q g) where
  target := (AList.lookup_insert _).trans hp.symm
  source := (AList.lookup_insert_ne hne).trans (AList.lookup_erase p b)
  others _ hp hq := (AList.lookup_insert_ne hq).trans (AList.lookup_erase_ne hp)

lemma Moved.held (h : Moved p q b b') (hh : Held site b p reason digest) :
    Held site b' q reason digest := hh.congr h.target

lemma Moved.held_other {o : Place} (h : Moved p q b b') (hp : o ≠ p) (hq : o ≠ q)
    (hh : Held site b o reason digest) : Held site b' o reason digest := hh.congr (h.others o hp hq)

/-- What is staged stays loose when it is moved, and so does what is moved elsewhere. -/
lemma Moved.loose (h : Moved p q b b') (hq : ∀ n, q ≠ .staging n) (hl : Loose b) : Loose b' := by
  intro n g hg
  by_cases hp : Place.staging n = p
  · rw [hp, h.source] at hg
    cases hg
  · exact hl n g ((h.others _ hp fun heq => hq n heq.symm).symm.trans hg)

lemma has_none (hq : w.backups.lookup q = none) : w.has q = false := by
  simp [Root.has, Root.generation, hq]

lemma rename_eq (hp : w.backups.lookup p = some g) :
    w.rename p q = { w with backups := (w.backups.erase p).insert q g } := by
  have hgen : w.generation p = some g := hp
  unfold Root.rename
  rw [hgen]
  rfl

lemma sure_rename (hne : p ≠ q) (hp : w.backups.lookup p = some g) (hq : w.backups.lookup q = none)
    (hx : post.died w) (hd : ∀ b, Moved p q w.backups b → post.done () { w with backups := b }) :
    (rename p q).Sure post w := by
  have hfree : ¬w.has q = true := by simp [has_none hq]
  refine sure_bind (sure_read (sure_bind (sure_refuse hfree (sure_perform ?_ hx))))
  rw [rename_eq hp]
  exact hd _ (moved_rename hne hp)

lemma Held.has (h : Held site w.backups p reason digest) : w.has p = true := by
  obtain ⟨g, hg, _⟩ := h
  simp [Root.has, Root.generation, hg]

end Backups

/-! ### Reading the control files -/

section Reading
variable {site : Site} {w : Root} {f : Fence} {i : Nat} {reason : String} {e : Expected}

lemma Apart.hardLinked (h : Apart w.inodes w.fence w.fenceStaging) : w.hardLinked = false := by
  unfold Root.hardLinked
  split
  · next hf hs => exact decide_eq_false (h.apart _ _ hf hs)
  · rfl

lemma readFence_none (h : w.fence = none) : w.readFence = .ok none := by
  unfold Root.readFence
  rw [h]

lemma readFence_whole (hl : w.hardLinked = false) (h : w.fence = some ⟨i, .whole f⟩) :
    w.readFence = .ok (some f) := by
  unfold Root.readFence
  rw [h, hl]
  rfl

/-- What names the fence. -/
def Fence.expected (site : Site) (f : Fence) : Expected :=
  ⟨site.hubId, site.host, f.reason, f.operationId, f.snapshot⟩

lemma Held.manifestDigest (h : Held site w.backups p reason d) :
    site.manifestDigest w p = some d := by
  obtain ⟨g, hg, hc⟩ := h
  obtain ⟨m, hm, _, _, _, hd⟩ := hc.manifest
  have hgen : w.generation p = some g := hg
  rw [Site.manifestDigest, hgen, Option.bind_some, hm, Option.map_some, hd]

lemma Held.verify (h : Held site w.backups p reason d) :
    verifyGeneration w p site.hubId site.host reason = .ok () := by
  obtain ⟨g, hg, hc⟩ := h
  obtain ⟨m, hm, hhub, hhost, hreason, _⟩ := hc.manifest
  have hgen : w.generation p = some g := hg
  simp [verifyGeneration, hgen, hm, getOr, hhub, hhost, hreason, hc.intact, refuseIf, ok_bind]

lemma Held.verifyRebase {j : Rebase} (hj : JournalOk site j) (hd : isDigest d = true)
    (h : Held site w.backups p serverUpdate d) :
    verifySnapshotRebaseGeneration site w p j d = .ok () := by
  have hv : verifyGeneration w p j.hubId j.hostServerIdentity serverUpdate = .ok () := by
    rw [hj.hubId, hj.host]
    exact h.verify
  simp [verifySnapshotRebaseGeneration, h.manifestDigest, getOr, hd, refuseIf, hv, ok_bind]

/-- The fence control finds the fence that the caller names. -/
lemma control_whole (hl : w.hardLinked = false) (h : w.fence = some ⟨i, .whole f⟩)
    (ok : FenceOk site f) {v : Bool} (hs : v = true → Sealed site w.backups f) :
    maintenanceFenceControl site w (f.expected site) v = .ok (some f) := by
  cases v with
  | false =>
    simp [maintenanceFenceControl, readFence_whole hl h, ok_bind, Fence.expected, refuseIf, ok.valid,
      ok.hubId, ok.host, ok.operationId]
  | true =>
    obtain ⟨d, hd, hheld⟩ := hs rfl
    have hcheck : site.checkDigest w f.snapshot d = .ok () := by
      simp [Site.checkDigest, hheld.manifestDigest, getOr, refuseIf, ok_bind]
    simp [maintenanceFenceControl, readFence_whole hl h, ok_bind, Fence.expected, refuseIf, ok.valid,
      ok.hubId, ok.host, ok.operationId, hd, hcheck]

lemma control_none (h : w.fence = none) {verify : Bool} :
    maintenanceFenceControl site w e verify = .ok none := by
  unfold maintenanceFenceControl
  rw [readFence_none h]
  rfl

/-- A control that finds a fence read it, and the caller named it. -/
lemma control_ok {verify : Bool} {r : Option Fence}
    (h : maintenanceFenceControl site w e verify = .ok r) :
    (r = none ∧ w.fence = none) ∨ ∃ i f, r = some f ∧ w.fence = some ⟨i, .whole f⟩ ∧
      f.hubId = e.hubId ∧ f.hostServerIdentity = e.host ∧ f.reason = e.reason ∧
      maintenanceOperationId e.operationId = .ok f.operationId ∧ f.snapshot = e.snapshot := by
  obtain ⟨raw, hraw, h⟩ := bind_ok h
  unfold Root.readFence at hraw
  cases hw : w.fence with
  | none =>
    rw [hw] at hraw
    cases hraw
    cases h
    exact .inl ⟨rfl, rfl⟩
  | some file =>
    obtain ⟨i, text⟩ := file
    simp only [hw] at hraw
    split at hraw
    · cases hraw
    · cases text with
      | empty | torn => cases hraw
      | whole f =>
        cases hraw
        obtain ⟨hmatch, h⟩ := refuse_ok h
        obtain ⟨operationId, hop, h⟩ := bind_ok h
        obtain ⟨hopmatch, h⟩ := refuse_ok h
        obtain ⟨hsnap, h⟩ := refuse_ok h
        have hr : r = some f := by
          revert h
          split
          · intro h
            obtain ⟨_, _, h⟩ := bind_ok h
            cases h
            rfl
          · intro h
            cases h
            rfl
        have hopm := not_not.1 hopmatch
        simp only [not_or, not_not] at hmatch
        exact .inr ⟨i, f, hr, rfl, hmatch.2.1, hmatch.2.2.1, hmatch.2.2.2, hopm ▸ hop,
          not_not.1 hsnap⟩

lemma readHandoff_whole {h : Handoff} (hw : w.handoff = some ⟨i, .whole h⟩) (hv : h.Valid) :
    w.readHandoff = .ok (some h) := by
  simp [Root.readHandoff, hw, readText, refuseIf, hv, ok_bind]

lemma readHandoff_none (hw : w.handoff = none) : w.readHandoff = .ok none := by
  simp only [Root.readHandoff, hw]
  rfl

end Reading

/-! ### Recovery of a rebase -/

section RebaseRecovery
variable {site : Site} {w : Root} {j : Rebase} {fenceStaging : Option (String × File Fence)}
  {fence : Option (File Fence)}

/-- The generation that a rebase goes on with is in place. -/
inductive Selected (site : Site) (j : Rebase) (b : Backups) : String × Bool → Prop
  | old (target : Held site b (.snapshot j.target) serverUpdate j.targetManifestSha256)
      (replacement : b.lookup (.snapshot j.replacement) = none)
      (retired : b.lookup (.retired j.retired) = none) : Selected site j b (j.targetManifestSha256, false)
  | new (target : Held site b (.snapshot j.target) serverUpdate j.replacementManifestSha256)
      (replacement : b.lookup (.snapshot j.replacement) = none)
      (retired : Held site b (.retired j.retired) serverUpdate j.targetManifestSha256) :
      Selected site j b (j.replacementManifestSha256, true)

lemma Selected.layout {r : String × Bool} (h : Selected site j b r) : Layout site j b := by
  cases h with
  | old target replacement retired => exact .undone target replacement retired
  | new target replacement retired => exact .replaced target replacement retired

/-- SELECTION: from each point of a rebase one generation is selected, and a kill leaves a point. -/
theorem sure_selectGeneration (marker : Fence) (ok : JournalOk site j) (hloose : Loose w.backups)
    (hlay : Layout site j w.backups) :
    (selectGeneration site marker j).Sure
      ⟨fun r w' => ∃ b, w' = { w with backups := b } ∧ Loose b ∧ Selected site j b r,
        fun _ _ => False,
        fun w' => ∃ b, w' = { w with backups := b } ∧ Loose b ∧ Layout site j b⟩ w := by
  obtain ⟨_, _, hne, htd, hrd, _⟩ := ok.valid
  have hTR : Place.snapshot j.target ≠ .snapshot j.replacement := fun h =>
    hne (Place.snapshot.inj h).symm
  refine sure_bind (sure_read ?_)
  cases hlay with
  | begun target replacement retired =>
    have hR : w.has (.snapshot j.replacement) = true := replacement
    simp only [Post.andThen, id, target.has, hR, has_none retired]
    refine sure_bind (sure_look (target.verifyRebase ok htd) ?_)
    refine sure_bind (sure_rmtree (fun b hb hsome => ?_) fun b hb hnone => ?_)
    · exact ⟨b, rfl, hb.loose hloose, .begun (hb.held hTR target) (hsome.trans replacement)
        (hb.none retired)⟩
    · exact sure_pure ⟨b, rfl, hb.loose hloose, .old (hb.held hTR target) hnone (hb.none retired)⟩
  | retired target replacement retired =>
    simp only [Post.andThen, id, has_none target, replacement.has, retired.has]
    refine sure_bind (sure_look (retired.verifyRebase ok htd) ?_)
    refine sure_bind (sure_handle (sure_look (replacement.verifyRebase ok hrd) ?_))
    obtain ⟨g, hg, _⟩ := replacement
    refine sure_bind (sure_rename hTR.symm hg target ?_ fun b hb => ?_)
    · exact ⟨w.backups, rfl, hloose, .retired target ⟨g, hg, ‹_›⟩ retired⟩
    · refine sure_pure ⟨b, rfl, hb.loose (by simp) hloose, .new (hb.held ⟨g, hg, ‹_›⟩) hb.source
        (hb.held_other (by simp) (by simp) retired)⟩
  | replaced target replacement retired =>
    simp only [Post.andThen, id, target.has, has_none replacement, retired.has]
    refine sure_bind (sure_look (retired.verifyRebase ok htd) ?_)
    refine sure_bind (sure_handle (sure_look (target.verifyRebase ok hrd) ?_))
    exact sure_pure ⟨w.backups, rfl, hloose, .new target replacement retired⟩
  | undone target replacement retired =>
    simp only [Post.andThen, id, target.has, has_none replacement, has_none retired]
    refine sure_bind (sure_look (target.verifyRebase ok htd) ?_)
    exact sure_pure ⟨w.backups, rfl, hloose, .old target replacement retired⟩

lemma FenceOk.withDigest (ok : FenceOk site f) (hd : isDigest d = true) :
    FenceOk site { f with snapshotManifestSha256 := some d } :=
  { ok with
    valid := { ok.valid with
      digest := fun d' hd' => by
        cases hd'
        exact hd } }

/-- A fence that is not a reactivation's can be put in place of another. -/
lemma Handed.plain {handoff : Option (File Handoff)} (h : Handed site fence fenceStaging handoff)
    (hf : f.reason ≠ hostReactivation) : Handed site (some ⟨i, .whole f⟩) fenceStaging handoff := by
  have hnot : ∀ (k : Nat) (f' : Fence), some (File.mk i (.whole f)) = some ⟨k, .whole f'⟩ →
      f'.reason ≠ hostReactivation := by
    intro k f' heq
    cases heq
    exact hf
  cases h with
  | nobody hnone _ => exact .nobody hnone hnot
  | owner k h handoff own =>
    exact .owner k h handoff { own with owns := fun k f' heq hr => absurd hr (hnot k f' heq) }

/-- A new file under the fence's name is apart from the staged one. -/
lemma Apart.newFence {inodes : Nat} (h : Apart inodes fence fenceStaging)
    (text : Text Fence) : Apart (inodes + 1) (some ⟨inodes, text⟩) fenceStaging where
  pos := Nat.succ_pos _
  fenceBelow f hf := by
    cases hf
    exact Nat.lt_succ_self _
  stagingBelow p hp := Nat.lt_succ_of_lt (h.stagingBelow p hp)
  apart f p hf hp := by
    cases hf
    exact (h.stagingBelow p hp).ne'

lemma serverUpdate_ne : serverUpdate ≠ hostReactivation := by decide +kernel

/-- What recovery makes of the fence of a rebase: it records the old or the new generation. -/
structure Rebound (j : Rebase) (f : Fence) (w w' : Root) : Prop where
  fence : ∃ i d, w'.fence = some ⟨i, .whole { f with snapshotManifestSha256 := some d }⟩ ∧
    (d = j.targetManifestSha256 ∨ d = j.replacementManifestSha256)
  handoff : w'.handoff = w.handoff
  fenceStaging : w'.fenceStaging = w.fenceStaging
  rebase : w'.rebase = none

/-- The selected generation is bound to the fence, and the journal goes. -/
lemma sure_settleRebase (hi : Inv site w) (hj : w.rebase = some ⟨i, .whole j⟩) (ok : JournalOk site j)
    (of : FenceOf site j f) {selected : String} {rest : Bool}
    (hsel : Selected site j w.backups (selected, rest)) :
    (do
      bindSelectedGeneration f selected
      look fun w => verifySnapshotRebaseGeneration site w (.snapshot j.target) j
        (if selected = j.replacementManifestSha256 then j.replacementManifestSha256
         else j.targetManifestSha256)
      unlink rebaseSlot
      if rest then rmtree (.retired j.retired)
      else return () : Job Unit).Sure
      (toward site fun _ w' => Inv site w' ∧ Rebound j f w w') w := by
  obtain ⟨_, _, _, htd, hrd, _⟩ := ok.valid
  obtain ⟨hd, hheld, hor⟩ : isDigest selected = true ∧
      Held site w.backups (.snapshot j.target) serverUpdate selected ∧
      (selected = j.targetManifestSha256 ∨ selected = j.replacementManifestSha256) := by
    cases hsel with
    | old target _ _ => exact ⟨htd, target, .inl rfl⟩
    | new target _ _ => exact ⟨hrd, target, .inr rfl⟩
  have hkey : (if selected = j.replacementManifestSha256 then j.replacementManifestSha256
      else j.targetManifestSha256) = selected := by
    split
    · next heq => exact heq.symm
    · next hne => exact (hor.resolve_right hne).symm
  have hplain : f.reason ≠ hostReactivation := of.reason ▸ serverUpdate_ne
  have hok := of.ok.withDigest hd
  have hof : FenceOf site j { f with snapshotManifestSha256 := some selected } :=
    ⟨hok, of.reason, of.operationId, of.snapshot⟩
  -- the fence is bound to the selected generation first, then the journal goes
  have hbound : Inv site { w with
      inodes := w.inodes + 1
      fence := some ⟨w.inodes, .whole { f with snapshotManifestSha256 := some selected }⟩ } :=
    ⟨hi.apart.newFence _, .fenced _ _ rfl hok, hi.handed.plain hplain,
      .swapping i j hj ok _ _ rfl hof hsel.layout, hi.loose⟩
  have hsealed : ∀ b, Held site b (.snapshot j.target) serverUpdate selected → Loose b →
      Inv site { w with
        inodes := w.inodes + 1
        fence := some ⟨w.inodes, .whole { f with snapshotManifestSha256 := some selected }⟩
        rebase := none
        backups := b } := by
    intro b hb hloose
    refine ⟨hi.apart.newFence _, .fenced _ _ rfl hok, hi.handed.plain hplain,
      .still rfl fun _ f' heq => ?_, hloose⟩
    cases heq
    refine ⟨selected, rfl, ?_⟩
    rw [of.snapshot, of.reason]
    exact hb
  refine sure_bind (sure_bind (sure_read (sure_perform ?_ hi)))
  refine sure_bind (sure_look (a := ()) ?_ (sure_bind (sure_perform ?_ hbound)))
  · rw [hkey]
    exact hheld.verifyRebase ok hd
  · cases hrest : rest with
    | false =>
      exact sure_pure ⟨hsealed w.backups hheld hi.loose, ⟨_, _, rfl, hor⟩, rfl, rfl, rfl⟩
    | true =>
      refine sure_rmtree (fun b hb _ => ?_) fun b hb _ => ⟨?_, ⟨_, _, rfl, hor⟩, rfl, rfl, rfl⟩
      all_goals exact hsealed b (hb.held (by simp) hheld) (hb.loose hi.loose)

/-- The layout may change while the journal and the fence stay. -/
lemma Inv.relaid (hi : Inv site w) (hj : w.rebase = some ⟨i, .whole j⟩) (ok : JournalOk site j)
    {k : Nat} (hf : w.fence = some ⟨k, .whole f⟩) (of : FenceOf site j f) {b : Backups} (hloose : Loose b)
    (hlay : Layout site j b) : Inv site { w with backups := b } :=
  ⟨hi.apart, hi.whole, hi.handed, .swapping i j hj ok k f hf of hlay, hloose⟩

/-- REBASE RECOVERY: a rebase that was killed is finished or undone. -/
theorem sure_finishRebase (hi : Inv site w) (hj : w.rebase = some ⟨i, .whole j⟩) (ok : JournalOk site j)
    {k : Nat} (hf : w.fence = some ⟨k, .whole f⟩) (of : FenceOf site j f)
    (hlay : Layout site j w.backups) :
    (finishRebase site j).Sure (toward site fun _ w' => Inv site w' ∧ Rebound j f w w') w := by
  have hcontrol : maintenanceFenceControl site w
      ⟨j.hubId, j.hostServerIdentity, serverUpdate, j.operationId, j.target⟩ false = .ok (some f) := by
    have h := control_whole hi.apart.hardLinked hf of.ok (v := false) (by simp)
    rwa [Fence.expected, of.reason, of.operationId, of.snapshot, ← ok.hubId, ← ok.host] at h
  refine sure_bind (sure_refuse (not_not_intro ok.valid) (sure_bind (sure_look hcontrol
    (sure_bind (sure_lift rfl ?_)))))
  refine (sure_selectGeneration f ok hi.loose hlay).bind (fun r w1 h1 => ?_)
    (fun _ _ => False.elim) fun w1 h1 => ?_
  · obtain ⟨b, rfl, hloose, hsel⟩ := h1
    have hw := hi.relaid hj ok hf of hloose hsel.layout
    exact (sure_settleRebase hw hj ok of hsel).imp fun _ _ h => ⟨h.1, h.2.fence, h.2.handoff,
      h.2.fenceStaging, h.2.rebase⟩
  · obtain ⟨b, rfl, hloose, hl⟩ := h1
    exact hi.relaid hj ok hf of hloose hl

end RebaseRecovery

/-! ### Taking the lock -/

section Lock
variable {site : Site} {w : Root}

/-- What taking the lock leaves of the fence and of the handoff. -/
structure Follows (w w' : Root) : Prop where
  handoff : w'.handoff = w.handoff
  fence : w.rebase = none ∧ w'.fence = w.fence ∨ ∃ i j k f i' d, w.rebase = some ⟨i, .whole j⟩ ∧
    w.fence = some ⟨k, .whole f⟩ ∧ f.reason = serverUpdate ∧ f.snapshot = j.target ∧
    w'.fence = some ⟨i', .whole { f with snapshotManifestSha256 := some d }⟩ ∧
    (d = j.targetManifestSha256 ∨ d = j.replacementManifestSha256)
  snapshots : w.rebase = none →
    ∀ n, w'.backups.lookup (.snapshot n) = w.backups.lookup (.snapshot n)

section
variable (hi : Inv site w)
include hi

/-- A staged fence that no handoff knows goes. -/
lemma sure_cleanupFenceStaging :
    cleanupOrphanedMaintenanceFenceStaging.Sure (toward site fun _ w' => ∃ staging,
      w' = { w with fenceStaging := staging } ∧ Inv site w' ∧ (w.handoff = none → staging = none))
      w := by
  refine sure_bind (sure_read ?_)
  show Prog.Sure (if _ then _ else _) _ _
  split
  · next hboth =>
    obtain ⟨hnone, _⟩ := Bool.and_eq_true_iff.1 hboth
    have hhand : w.handoff = none := Option.isNone_iff_eq_none.1 hnone
    refine sure_perform ⟨none, rfl, ⟨?_, hi.whole, ?_, hi.backed, hi.loose⟩, fun _ => rfl⟩ hi
    · exact ⟨hi.apart.pos, hi.apart.fenceBelow, nofun, nofun⟩
    · cases hi.handed with
      | nobody _ hfence => exact .nobody hhand hfence
      | owner _ _ hsome _ =>
        rw [hhand] at hsome
        cases hsome
  · next hnot =>
    refine sure_pure ⟨w.fenceStaging, rfl, hi, fun hnone => ?_⟩
    simpa [hnone] using hnot

lemma sure_recoverRebase :
    (recoverSnapshotRebase site).Sure (toward site fun _ w' => Inv site w' ∧ w'.rebase = none ∧
      w'.fenceStaging = w.fenceStaging ∧ Follows w w') w := by
  refine sure_bind (sure_read ?_)
  cases hi.backed with
  | still hnone _ =>
    rw [hnone]
    exact sure_pure ⟨hi, hnone, rfl, rfl, .inl ⟨hnone, rfl⟩, fun _ _ => rfl⟩
  | swapping i j hj ok k f hf of hlay =>
    rw [hj]
    refine sure_bind (sure_lift rfl ((sure_finishRebase hi hj ok hf of hlay).imp fun _ w' h => ?_))
    obtain ⟨hinv, hre⟩ := h
    obtain ⟨i', d, hfence, hd⟩ := hre.fence
    exact ⟨hinv, hre.rebase, hre.fenceStaging, hre.handoff,
      .inr ⟨i, j, k, f, i', d, hj, hf, of.reason, of.snapshot, hfence, hd⟩, fun hnone => by
        rw [hnone] at hj
        cases hj⟩

lemma Inv.sealed (hr : w.rebase = none) (hf : w.fence = some ⟨i, .whole f⟩) :
    Sealed site w.backups f := by
  cases hi.backed with
  | still _ hfence => exact hfence i f hf
  | swapping _ _ hj => rw [hr] at hj; cases hj

/-- What is not a generation of a fence may be lost. -/
lemma Inv.worn (hr : w.rebase = none) (hb : Worn S w.backups b)
    (hS : ∀ i f, w.fence = some ⟨i, .whole f⟩ → ¬S (.snapshot f.snapshot)) :
    Inv site { w with backups := b } := by
  refine ⟨hi.apart, hi.whole, hi.handed, .still hr fun i f hf => ?_, hb.loose hi.loose⟩
  obtain ⟨d, hd, hheld⟩ := hi.sealed hr hf
  exact ⟨d, hd, hb.held (hS i f hf) hheld⟩

lemma sure_cleanupRetired (hr : w.rebase = none) :
    cleanupOrphanedSnapshotRebaseRetired.Sure (toward site fun _ w' => ∃ b,
      w' = { w with backups := b } ∧ Inv site w' ∧ (∀ n, b.lookup (.retired n) = none) ∧
        ∀ n, b.lookup (.snapshot n) = w.backups.lookup (.snapshot n)) w := by
  refine sure_bind (sure_read ?_)
  show Prog.Sure (if w.rebase.isSome = true then _ else _) _ _
  rw [if_neg (by simp [hr])]
  have hnot : ∀ n, Place.snapshot n ∉ w.retiredPlaces := fun n => by simp [Root.retiredPlaces]
  have hinv : ∀ b, Worn (· ∈ w.retiredPlaces) w.backups b → Inv site { w with backups := b } :=
    fun b hb => hi.worn hr hb fun _ _ _ => hnot _
  refine sure_rmtrees hinv fun b hb hgone => ⟨b, rfl, hinv b hb, fun n => ?_, fun n =>
    hb.others _ (hnot n)⟩
  cases hn : b.lookup (.retired n) with
  | none => rfl
  | some g' =>
    obtain ⟨g, hg, _⟩ := hb.linked _ g' hn
    have hkey : Place.retired n ∈ w.backups.keys :=
      AList.mem_keys.1 (AList.lookup_isSome.1 (by rw [hg]; rfl))
    have hmem : Place.retired n ∈ w.retiredPlaces := mem_filter.2 ⟨hkey, rfl⟩
    rw [hgone _ hmem] at hn
    cases hn

/-- The fence is readable and stays. -/
lemma sure_clearRestoreFence {Q : Root → Prop} (hQ : Q w) :
    clearOrphanedRestoreFence.Sure (toward site fun _ => Q) w := by
  cases hi.whole with
  | free hnone => exact sure_bind (sure_look (readFence_none hnone) (sure_pure hQ))
  | fenced i f hf ok =>
    refine sure_bind (sure_look (readFence_whole hi.apart.hardLinked hf) ?_)
    show Prog.Sure (if f.format = 2 then _ else _) _ _
    rw [if_neg (by simp [ok.format])]
    exact sure_pure hQ

/-- LOCK: left alone it is taken, and it leaves a settled directory. -/
theorem sure_lock :
    (maintenanceControlLock site).Sure (toward site fun _ w' => Settled site w' ∧ Follows w w') w := by
  refine (sure_cleanupFenceStaging hi).next fun _ w1 h1 => ?_
  obtain ⟨staging, rfl, hi1, hstaging⟩ := h1
  refine (sure_recoverRebase hi1).next fun _ w2 h2 => ?_
  obtain ⟨hi2, hr2, hs2, hfollows⟩ := h2
  refine (sure_cleanupRetired hi2 hr2).next fun _ w3 h3 => ?_
  obtain ⟨b, rfl, hi3, hretired, hsnapshots⟩ := h3
  refine sure_clearRestoreFence hi3 ⟨⟨hi3, hr2, hretired, fun hnone => ?_⟩, hfollows.handoff,
    hfollows.fence, fun hnone n => (hsnapshots n).trans (hfollows.snapshots hnone n)⟩
  exact hs2.trans (hstaging (hfollows.handoff.symm.trans hnone))

end

end Lock

/-! ### Snapshots -/

section Snapshots
variable {site : Site} {w : Root} {call : SnapshotCall} {reason : String}
variable {keep : Int} {fence : Option Fence} {n : String} {b' : Backups} {verify : Bool}
  {w1 w2 : Root}

def SnapshotCall.manifest (call : SnapshotCall) (site : Site) (reason : String) : Manifest :=
  ⟨reason, site.hubId, site.host, call.contents⟩

/-- The generation is being built under its temporary name. -/
structure Building (call : SnapshotCall) (b b' : Backups) : Prop where
  others : ∀ q, q ≠ .staging call.name.text → b'.lookup q = b.lookup q
  linked : call.linked = false → ∀ g, b'.lookup (.staging call.name.text) = some g → g.linked = false

lemma Building.loose (h : Building call b b') (hl : call.linked = false) (hb : Loose b) :
    Loose b' := by
  intro n g hg
  by_cases hn : n = call.name.text
  · exact h.linked hl g (hn ▸ hg)
  · refine hb n g ((h.others _ fun heq => hn ?_).symm.trans hg)
    exact Place.staging.inj heq

lemma building_insert (h : Building call b b') (hg : call.linked = false → g.linked = false) :
    Building call b (b'.insert (.staging call.name.text) g) where
  others q hq := (AList.lookup_insert_ne hq).trans (h.others q hq)
  linked hl g' hg' := by
    rw [AList.lookup_insert, Option.some.injEq] at hg'
    exact hg' ▸ hg hl

/-- A step on the generation that is being built. -/
lemma onGeneration_staging (hg : b.lookup p = some g) (f : Generation → Generation) :
    Root.onGeneration { w with backups := b } p f = { w with backups := b.insert p (f g) } := by
  have hgen : Root.generation { w with backups := b } p = some g := hg
  unfold Root.onGeneration
  rw [hgen]
  rfl

/-- The staged generation passes its own verification. -/
lemma sure_verifyStaged {linked : Bool}
    (hg : b.lookup p = some ⟨some (call.manifest site reason), true, linked⟩)
    (hv : verify = true → reason = serverUpdate ∨ w.fence = none)
    (hd : post.done () { w with backups := b }) :
    (if verify then do
        let fence ← read Root.fence
        refuse (reason ≠ serverUpdate ∧ fence.isSome = true)
          (.runtime "preserved Team Hub state is already in maintenance")
        look fun w => verifyGeneration w p site.hubId site.host reason
      else return () : Job Unit).Sure post { w with backups := b } := by
  cases verify with
  | false => exact sure_pure hd
  | true =>
    have hheld : Held site b p reason (site.sha256 (call.manifest site reason)) :=
      ⟨_, hg, rfl, _, rfl, rfl, rfl, rfl, rfl⟩
    have hverify := Held.verify (w := { w with backups := b }) hheld
    refine sure_bind (sure_read (sure_bind (sure_refuse ?_ (sure_look hverify hd))))
    rintro ⟨hne, hsome⟩
    rcases hv rfl with h | h
    · exact hne h
    · rw [h] at hsome
      cases hsome

/-- STAGING: the generation is complete under its temporary name. -/
theorem sure_stageSnapshot (hloose : Loose w.backups)
    (hv : verify = true → reason = serverUpdate ∨ w.fence = none) :
    (stageSnapshot site reason verify call).Sure
      ⟨fun _ w' => ∃ b, w' = { w with backups := b } ∧ Building call w.backups b ∧
          b.lookup (.staging call.name.text) =
            some ⟨some (call.manifest site reason), true, call.linked⟩,
        fun _ _ => False,
        fun w' => ∃ b, w' = { w with backups := b } ∧ Building call w.backups b⟩ w := by
  have h0 : Building call w.backups w.backups := ⟨fun _ _ => rfl, fun _ g hg => hloose _ g hg⟩
  have h1 := building_insert h0 (g := {}) fun _ => rfl
  have h2 := building_insert h1 (g := ⟨none, false, call.linked⟩) fun h => h
  have h3 := building_insert h2 (g := ⟨none, true, call.linked⟩) fun h => h
  have h4 := building_insert h3 (g := ⟨some (call.manifest site reason), true, call.linked⟩) fun h => h
  refine sure_bind (sure_perform ?_ ⟨w.backups, rfl, h0⟩)
  refine sure_bind (sure_perform ?_ ⟨_, rfl, h1⟩)
  rw [Root.put, onGeneration_staging (AList.lookup_insert _)]
  refine sure_bind (sure_perform ?_ ⟨_, rfl, h2⟩)
  rw [onGeneration_staging (AList.lookup_insert _)]
  refine sure_bind (sure_perform ?_ ⟨_, rfl, h3⟩)
  rw [onGeneration_staging (AList.lookup_insert _)]
  exact sure_verifyStaged (AList.lookup_insert _) hv ⟨_, rfl, h4, AList.lookup_insert _⟩

/-- The generation was built, and then got its name. -/
def Renamed (site : Site) (reason : String) (call : SnapshotCall) (w w' : Root) : Prop :=
  ∃ b b', w' = { w with backups := b' } ∧ Building call w.backups b ∧
    Moved (.staging call.name.text) (.snapshot call.name.text) b b' ∧
    b'.lookup (.snapshot call.name.text) = some ⟨some (call.manifest site reason), true, call.linked⟩

/-- PUBLICATION: a rename puts the complete generation under its name. -/
theorem sure_publishSnapshot (hloose : Loose w.backups)
    (hv : verify = true → reason = serverUpdate ∨ w.fence = none) :
    (publishSnapshot site reason verify call).Sure
      ⟨fun _ => Renamed site reason call w, fun _ _ => False,
        fun w' => ∃ b, w' = { w with backups := b } ∧ Building call w.backups b⟩ w := by
  refine (sure_stageSnapshot hloose hv).next fun _ w1 h1 => ?_
  obtain ⟨b, rfl, hbuild, hg⟩ := h1
  refine sure_perform ?_ ⟨b, rfl, hbuild⟩
  rw [rename_eq hg]
  exact ⟨b, _, rfl, hbuild, moved_rename (by simp) hg, AList.lookup_insert _⟩

/-- Names in `S` may be gone. -/
def Pruned (S : Place → Prop) (b b' : Backups) : Prop :=
  ∀ q, b'.lookup q = b.lookup q ∨ S q ∧ b'.lookup q = none

lemma Pruned.worn (h : Pruned S b b') : Worn S b b' where
  others q hq := (h q).resolve_right fun hs => hq hs.1
  linked q g' hg' := by
    rcases h q with heq | ⟨_, hnone⟩
    · exact ⟨g', heq ▸ hg', rfl⟩
    · rw [hnone] at hg'
      cases hg'

/-- What pruning may remove. -/
def Expired (site : Site) (keep : Int) (w : Root) (fence : Option Fence) (q : Place) : Prop :=
  ∃ name ∈ w.generations.drop (max 1 (min keep 10)).toNat, q = .snapshot name ∧
    fence.map Fence.snapshot ≠ some name ∧ w.protectedReactivation site ≠ some name

/-- PRUNING: only expired generations go. -/
theorem sure_prune (hf : maintenanceFence w site.hubId site.host = .ok fence) :
    (prune site keep).Sure
      ⟨fun _ w' => ∃ b, w' = { w with backups := b } ∧
          Pruned (Expired site keep w fence) w.backups b,
        fun _ _ => False,
        fun w' => ∃ b, w' = { w with backups := b } ∧
          Worn (Expired site keep w fence) w.backups b⟩ w := by
  refine sure_bind (sure_read (sure_bind (sure_look hf ?_)))
  refine sure_forEach (I := fun rest _ w' =>
    (∀ name ∈ rest, name ∈ w.generations.drop (max 1 (min keep 10)).toNat) ∧
      ∃ b, w' = { w with backups := b } ∧ Pruned (Expired site keep w fence) w.backups b)
    (fun name rest _ w' hI => ?_) (fun _ w' hI => hI.2)
    ⟨fun _ => id, w.backups, rfl, fun q => .inl rfl⟩
  obtain ⟨hmem, b, rfl, hpruned⟩ := hI
  have hrest : ∀ n ∈ rest, n ∈ w.generations.drop (max 1 (min keep 10)).toNat :=
    fun n hn => hmem n (mem_cons_of_mem name hn)
  split
  · exact sure_pure ⟨hrest, b, rfl, hpruned⟩
  · next hnot =>
    rw [not_or] at hnot
    have hexp : Expired site keep w fence (.snapshot name) :=
      ⟨name, hmem name mem_cons_self, rfl, hnot.1, hnot.2⟩
    refine sure_rmtree (fun b' hb' _ => ⟨b', rfl, hpruned.worn.trans (hb'.mono fun q hq => hq ▸ hexp)⟩)
      fun b' hb' hnone => ⟨hrest, b', rfl, fun q => ?_⟩
    by_cases hq : q = .snapshot name
    · exact .inr ⟨hq ▸ hexp, hq ▸ hnone⟩
    · rw [hb'.others q hq]
      exact hpruned q

/-- A name after all the others is the first of those sorted, and is retained. -/
lemma newest_retained {l : List String} (hn : l.Nodup) (hlast : ∀ m ∈ l, m ≠ n → m < n) {k : Nat}
    (hk : 1 ≤ k) : n ∉ (l.insertionSort fun a b => b ≤ a).drop k := by
  have hsorted := pairwise_insertionSort (fun a b : String => b ≤ a) l
  have hperm := perm_insertionSort (fun a b : String => b ≤ a) l
  cases hl : l.insertionSort fun a b => b ≤ a with
  | nil => simp
  | cons a rest =>
    rw [hl] at hsorted hperm
    obtain ⟨hfirst, _⟩ := pairwise_cons.1 hsorted
    obtain ⟨hnot, _⟩ := nodup_cons.1 (hperm.nodup_iff.2 hn)
    intro hmem
    have hrest : n ∈ rest := by
      obtain ⟨k', rfl⟩ : ∃ k', k = k' + 1 := ⟨k - 1, by omega⟩
      exact mem_of_mem_drop hmem
    have hne : a ≠ n := fun heq => hnot (heq ▸ hrest)
    have hlt := hlast a (hperm.mem_iff.1 mem_cons_self) hne
    exact absurd (hfirst n hrest) (not_le.2 hlt)

lemma maintenanceFence_ok (hi : Inv site w) : ∃ fence,
    maintenanceFence w site.hubId site.host = .ok fence ∧
      ∀ i f, w.fence = some ⟨i, .whole f⟩ → fence = some f := by
  cases hi.whole with
  | free hnone =>
    refine ⟨none, ?_, fun i f hf => ?_⟩
    · simp [maintenanceFence, readFence_none hnone]
      rfl
    · rw [hnone] at hf
      cases hf
  | fenced i f hf ok =>
    refine ⟨some f, ?_, fun k f' hf' => ?_⟩
    · simp [maintenanceFence, readFence_whole hi.apart.hardLinked hf, ok_bind, refuseIf, ok.valid,
        ok.hubId, ok.host]
    · rw [hf] at hf'
      cases hf'
      rfl

/-- A settled directory stays so when generations of no fence are lost. -/
lemma Settled.worn (hs : Settled site w) (hb : Worn S w.backups b)
    (hS : ∀ i f, w.fence = some ⟨i, .whole f⟩ → ¬S (.snapshot f.snapshot)) :
    Settled site { w with backups := b } :=
  ⟨hs.inv.worn hs.rebase hb hS, hs.rebase, fun n => hb.none (hs.retired n), hs.staging⟩

lemma not_expired (hf : ∀ i f, w.fence = some ⟨i, .whole f⟩ → fence = some f) {w' : Root} :
    ∀ i f, w.fence = some ⟨i, .whole f⟩ → ¬Expired site keep w' fence (.snapshot f.snapshot) := by
  rintro i f hw ⟨name, _, heq, hne, _⟩
  rw [hf i f hw, ← Place.snapshot.inj heq] at hne
  exact hne rfl

lemma sure_cleanupStaging (hs : Settled site w) :
    cleanupAbandonedSnapshotStaging.Sure (surely site fun _ w' => ∃ b, w' = { w with backups := b } ∧
      Settled site w' ∧ ∀ n, b.lookup (.snapshot n) = w.backups.lookup (.snapshot n)) w := by
  have hnot : ∀ n, Place.snapshot n ∉ w.stagingPlaces := fun n => by simp [Root.stagingPlaces]
  refine sure_bind (sure_read (sure_bind (sure_refuse ?_ (sure_rmtrees (fun b hb => ?_)
    fun b hb _ => ?_))))
  · rw [any_eq_true]
    rintro ⟨p, hp, hlinked⟩
    obtain ⟨g, hg, hl⟩ := (Option.any_eq_true _ _).1 hlinked
    obtain ⟨_, hkind⟩ := mem_filter.1 hp
    cases p with
    | staging n => exact Bool.false_ne_true ((hs.inv.loose n g hg).symm.trans hl)
    | snapshot n | retired n => cases hkind
  · exact (hs.worn hb fun _ _ _ => hnot _).inv
  · exact ⟨b, rfl, hs.worn hb fun _ _ _ => hnot _, fun n => hb.others _ (hnot n)⟩

/-- The new generation is there, complete, beside the others. -/
structure Published (site : Site) (reason : String) (call : SnapshotCall) (w w' : Root) : Prop where
  settled : Settled site w'
  same : ∃ b, w' = { w with backups := b }
  new : w'.backups.lookup (.snapshot call.name.text) =
    some ⟨some (call.manifest site reason), true, call.linked⟩
  others : ∀ n, n ≠ call.name.text →
    w'.backups.lookup (.snapshot n) = w.backups.lookup (.snapshot n)

section
variable (hs : Settled site w) (hfree : w.backups.lookup (.snapshot call.name.text) = none)
include hs hfree

lemma published_of {w' : Root} (h : Renamed site reason call w w') : Published site reason call w w' := by
  obtain ⟨b, b', rfl, hb, hm, hnew⟩ := h
  have hothers : ∀ n, n ≠ call.name.text →
      b'.lookup (.snapshot n) = w.backups.lookup (.snapshot n) := fun n hn =>
    (hm.others _ (by simp) fun heq => hn (Place.snapshot.inj heq)).trans (hb.others _ (by simp))
  have hloose : Loose b' := by
    intro n g hg
    by_cases hn : n = call.name.text
    · rw [hn, hm.source] at hg
      cases hg
    · have hne : Place.staging n ≠ .staging call.name.text := fun heq => hn (Place.staging.inj heq)
      exact hs.inv.loose n g (((hm.others _ hne (by simp)).trans (hb.others _ hne)).symm.trans hg)
  have hback : Backed site w.fence w.rebase b' := by
    refine .still hs.rebase fun i f hf => ?_
    obtain ⟨d, hd, g, hg, hc⟩ := hs.inv.sealed hs.rebase hf
    refine ⟨d, hd, g, ?_, hc⟩
    refine (hothers _ fun heq => ?_).trans hg
    rw [heq, hfree] at hg
    cases hg
  refine ⟨⟨⟨hs.inv.apart, hs.inv.whole, hs.inv.handed, hback, hloose⟩, hs.rebase, fun n => ?_,
    hs.staging⟩, ⟨b', rfl⟩, hnew, hothers⟩
  exact ((hm.others _ (by simp) (by simp)).trans (hb.others _ (by simp))).trans (hs.retired n)

/-- No kill strikes while a snapshot with a hard link is unpublished. -/
def SnapshotCall.Spared (call : SnapshotCall) : Prop := call.linked = false ∨ Unbroken call.staging

variable (hv : verify = true → reason = serverUpdate ∨ w.fence = none)
include hv

lemma sure_published (hcall : call.staging = []) :
    (under call.staging (publishSnapshot site reason verify call)).Sure
      (surely site fun _ w' => Published site reason call w w') w := by
  rw [hcall]
  exact (sure_under (sure_publishSnapshot hs.inv.loose hv)).mono (fun _ _ => published_of hs hfree)
    (fun _ _ => False.elim) fun _ => False.elim

lemma ensures_published (hcall : call.Spared) :
    (under call.staging (publishSnapshot site reason verify call)).Ensures
      (surely site fun _ w' => Published site reason call w w') w := by
  rcases hcall with hlinked | hunbroken
  · refine ensures_under ((sure_publishSnapshot hs.inv.loose hv).safe.mono
      (fun _ _ => published_of hs hfree) (fun _ _ => False.elim) fun _ h => ?_)
    obtain ⟨b, rfl, hb⟩ := h
    refine ⟨hs.inv.apart, hs.inv.whole, hs.inv.handed, .still hs.rebase fun i f hf => ?_,
      hb.loose hlinked hs.inv.loose⟩
    obtain ⟨d, hd, hheld⟩ := hs.inv.sealed hs.rebase hf
    exact ⟨d, hd, hheld.congr (hb.others _ (by simp))⟩
  · exact (ensures_unbroken hunbroken (sure_publishSnapshot hs.inv.loose hv) fun _ => rfl).mono
      (fun _ _ => published_of hs hfree) (fun _ _ => False.elim) fun _ h => h ▸ hs.inv

end

/-- What a snapshot leaves. -/
structure Taken (site : Site) (reason : String) (call : SnapshotCall) (w w' : Root) : Prop where
  settled : Settled site w'
  same : ∃ b, w' = { w with backups := b }
  fresh : w.backups.lookup (.snapshot call.name.text) = none
  complete : ∀ g, w'.backups.lookup (.snapshot call.name.text) = some g →
    g = ⟨some (call.manifest site reason), true, call.linked⟩
  stays : (∀ n, (w.backups.lookup (.snapshot n)).isSome = true → n < call.name.text) →
    (w'.backups.lookup (.snapshot call.name.text)).isSome = true

/-- The names of the published generations. -/
def Root.snapshotNames (w : Root) : List String :=
  w.backups.keys.filterMap fun p => match p with
    | .snapshot name => some name
    | _ => none

lemma mem_snapshotNames :
    n ∈ w.snapshotNames ↔ (w.backups.lookup (.snapshot n)).isSome = true := by
  rw [AList.lookup_isSome, Root.snapshotNames, mem_filterMap]
  refine ⟨fun ⟨p, hp, heq⟩ => ?_, fun h => ⟨_, h, rfl⟩⟩
  cases p with
  | snapshot m => exact Option.some.inj heq ▸ hp
  | staging m | retired m => cases heq

lemma snapshotNames_nodup (w : Root) : w.snapshotNames.Nodup := by
  refine w.backups.keys_nodup.filterMap fun p q n hp hq => ?_
  cases p <;> cases hp
  cases q <;> cases hq
  rfl

/-- A snapshot newer than all the others outlives the pruning. -/
lemma not_expired_newest (hlast : ∀ m, m ≠ n → (w.backups.lookup (.snapshot m)).isSome = true → m < n) :
    ¬Expired site keep w fence (.snapshot n) := by
  rintro ⟨m, hm, heq, _⟩
  rw [← Place.snapshot.inj heq] at hm
  exact newest_retained (snapshotNames_nodup w)
    (fun m hm hne => hlast m hne (mem_snapshotNames.1 hm)) (by omega) hm

section
variable (hsame : ∃ b, w1 = { w with backups := b })
  (hold : ∀ n, w1.backups.lookup (.snapshot n) = w.backups.lookup (.snapshot n))
  (hfree : w1.backups.lookup (.snapshot call.name.text) = none)
  (hpub : Published site reason call w1 w2)
include hsame hold hfree hpub

lemma taken_of (hfence : ∀ i f, w2.fence = some ⟨i, .whole f⟩ → fence = some f)
    (hb : Pruned (Expired site keep w2 fence) w2.backups b) :
    Taken site reason call w { w2 with backups := b } := by
  have hname := hb (.snapshot call.name.text)
  obtain ⟨b1, rfl⟩ := hsame
  obtain ⟨b2, rfl⟩ := hpub.same
  refine ⟨hpub.settled.worn hb.worn (not_expired hfence), ⟨b, rfl⟩,
    (hold _).symm.trans hfree, fun g hg => ?_, fun hlast => ?_⟩
  · rcases hname with heq | ⟨_, hnone⟩
    · exact Option.some.inj (hg.symm.trans (heq.trans hpub.new))
    · exact absurd (hnone.symm.trans hg) (by simp)
  · rcases hname with heq | ⟨hexp, _⟩
    · rw [heq, hpub.new]
      rfl
    · refine absurd hexp (not_expired_newest fun m hne hm => hlast m ?_)
      rw [← hold m, ← hpub.others m hne]
      exact hm

/-- PRUNED: a published snapshot, once the old ones are gone. -/
theorem sure_pruned :
    (prune site keep >>= fun _ => pure call.name.text : Job String).Sure
      (surely site fun n w' => n = call.name.text ∧ Taken site reason call w w') w2 := by
  obtain ⟨fence, hok, hfence⟩ := maintenanceFence_ok hpub.settled.inv
  refine (sure_prune hok).bind (fun _ w' h => sure_pure ⟨rfl, ?_⟩) (fun _ _ => False.elim)
    fun w' h => ?_
  · obtain ⟨b, rfl, hb⟩ := h
    exact taken_of hsame hold hfree hpub hfence hb
  · obtain ⟨b, rfl, hb⟩ := h
    exact (hpub.settled.worn hb (not_expired hfence)).inv

end

lemma ensures_discard (hs : Settled site w) {e : Err} :
    (discardStaging call e).Ensures (toward site fun _ _ => False) w := by
  have hworn : ∀ b, Worn (· = Place.staging call.name.text) w.backups b →
      Inv site { w with backups := b } := fun b hb => (hs.worn hb fun _ _ _ => by simp).inv
  refine read_then ?_
  split
  · refine ensures_bind (sure_rmtree (fun b hb _ => hworn b hb) fun b hb _ => ?_).safe
    exact ensures_raise (hworn b hb)
  · exact ensures_bind (ensures_pure (ensures_raise hs.inv))

/-- SNAPSHOT: left alone it is taken. -/
theorem sure_snapshot {clean : String} (hs : Settled site w)
    (hreason : boundedText reason "reason" 1 80 = .ok clean)
    (hfree : w.backups.lookup (.snapshot call.name.text) = none)
    (hv : verify = true → clean = serverUpdate ∨ w.fence = none) (hcall : call.staging = []) :
    (maintenanceSnapshotUnlocked site reason keep verify call).Sure
      (surely site fun n w' => n = call.name.text ∧ Taken site clean call w w') w := by
  refine sure_bind (sure_lift hreason (sure_handle ((?_ : Prog.Sure _ (surely site fun n w' =>
    n = call.name.text ∧ Taken site clean call w w') w).mono (fun _ _ => id)
      (fun _ _ => False.elim) fun _ => id)))
  refine (sure_cleanupStaging hs).next fun _ w1 h1 => ?_
  obtain ⟨b, rfl, hs1, hold⟩ := h1
  have hfree1 := (hold call.name.text).trans hfree
  refine sure_bind (sure_read (sure_bind (sure_refuse ?_ ?_)))
  · show ¬(b.lookup _).isSome = true
    rw [hfree1]
    exact Bool.false_ne_true
  · exact (sure_published hs1 hfree1 hv hcall).next fun _ w2 hpub => sure_pruned ⟨b, rfl⟩ hold hfree1 hpub

/-- SNAPSHOT: at every moment the directory can be recovered. -/
theorem ensures_snapshot (hs : Settled site w)
    (hv : verify = true → boundedText reason "reason" 1 80 = .ok serverUpdate ∨ w.fence = none)
    (hcall : call.Spared) :
    (maintenanceSnapshotUnlocked site reason keep verify call).Ensures
      (toward site fun n w' => n = call.name.text ∧ ∃ clean,
        boundedText reason "reason" 1 80 = .ok clean ∧ Taken site clean call w w') w := by
  refine ensures_lift_bind (fun clean hclean => ensures_handle ?_) fun _ _ => hs.inv
  refine (sure_cleanupStaging hs).safe.bind (fun _ w1 h1 => ?_) (fun _ _ => False.elim) fun _ => id
  obtain ⟨b, rfl, hs1, hold⟩ := h1
  refine ensures_bind (ensures_read (ensures_bind (ensures_refuse (fun _ => ?_) fun hnot => ?_)))
  · exact (ensures_discard hs1).imp fun _ _ => False.elim
  · have hfree : b.lookup (.snapshot call.name.text) = none := by
      rw [← Option.not_isSome_iff_eq_none]
      exact hnot
    have hv' : verify = true → clean = serverUpdate ∨ w.fence = none := fun h =>
      (hv h).imp_left fun hr => Except.ok.inj (hclean.symm.trans hr)
    refine (ensures_published hs1 hfree hv' hcall).bind (fun _ w2 hpub => ?_)
      (fun _ _ => False.elim) fun _ => id
    exact (sure_pruned ⟨b, rfl⟩ hold hfree hpub).safe.mono
      (fun _ _ h => ⟨h.1, clean, hclean, h.2⟩) (fun _ _ => False.elim) fun _ => id

end Snapshots

end TeamHub.Maintenance
