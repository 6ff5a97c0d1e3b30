import Mathlib.Data.List.Nodup
import ZenithBot.Turns.Steering

/-! What an accepted edit of a queued message reaches. In the rows the server queues, the copies of
    the message agree (`Agrees`), and a steered row has a lineage of two entries or more that ends with
    the message. An edit of the prompt keeps that; an edit of the attachments keeps it only where
    `file_ids` is the only copy, that is, in a row without a lineage. -/

namespace Turns
open Lib List

variable {lineage : List Message} {r : Row} {m : Message} {owned : String → Bool}
  {fileIds : List String} {prompt : String}

/-! ### Merged attachments -/

/-- Ids as `merged_file_ids` leaves them. -/
def Clean (fileIds : List String) : Prop :=
  fileIds.Nodup ∧ ∀ x ∈ fileIds, Py.strip x = x ∧ x ≠ ""

lemma mergeFileId_clean {merged : List String} (h : Clean merged) (value : String) :
    Clean (mergeFileId merged value) := by
  unfold mergeFileId
  dsimp only
  split
  · exact h
  · rename_i hnew
    obtain ⟨hne, hout⟩ := not_or.1 hnew
    refine ⟨?_, forall_mem_append.2 ⟨h.2, forall_mem_singleton.2 ⟨Py.strip_strip value, hne⟩⟩⟩
    rw [nodup_append]
    refine ⟨h.1, nodup_singleton _, fun x hx y hy hxy => hout ?_⟩
    rw [← mem_singleton.1 hy, ← hxy]; exact hx

lemma mergedFileIds_clean (fileIds : List String) : Clean (mergedFileIds fileIds) := by
  have fold : ∀ (ids acc : List String), Clean acc → Clean (ids.foldl mergeFileId acc) := by
    intro ids
    induction ids with
    | nil => exact fun _ h => h
    | cons x xs ih => exact fun acc h => ih _ (mergeFileId_clean h x)
  exact fold fileIds [] ⟨nodup_nil, fun x hx => absurd hx not_mem_nil⟩

lemma mergedFileIds_of_clean (h : Clean fileIds) : mergedFileIds fileIds = fileIds := by
  have fold : ∀ (ids acc : List String), Clean (acc ++ ids) →
      ids.foldl mergeFileId acc = acc ++ ids := by
    intro ids
    induction ids with
    | nil => exact fun acc _ => (append_nil acc).symm
    | cons x xs ih =>
      intro acc hc
      obtain ⟨hstrip, hne⟩ := hc.2 x (by simp)
      have hout : x ∉ acc := fun hx =>
        (nodup_append.1 hc.1).2.2 x hx x mem_cons_self rfl
      have hstep : mergeFileId acc x = acc ++ [x] := by
        unfold mergeFileId
        rw [hstrip, if_neg (not_or.2 ⟨hne, hout⟩)]
      rw [foldl_cons, hstep, ih _ (by rwa [append_assoc]), append_assoc]
      rfl
  exact fold fileIds [] h

/-! ### Normal lineages -/

def Normal (lineage : List Message) : Prop := ∀ m ∈ lineage, m.normalize = some m

lemma normalize_of_normal (h : Normal lineage) : normalizeSteeringLineage lineage = lineage := by
  unfold normalizeSteeringLineage
  induction lineage with
  | nil => rfl
  | cons m ms ih =>
    rw [filterMap_cons_some (h m mem_cons_self),
      ih fun x hx => h x (mem_cons_of_mem m hx)]

lemma says_of_not
    (h : ¬ (Py.blank prompt = true ∧ fileIds = [])) : Py.blank prompt = false ∨ fileIds ≠ [] := by
  by_cases hb : Py.blank prompt = true
  · exact .inr fun hnil => h ⟨hb, hnil⟩
  · exact .inl (Bool.eq_false_iff.2 hb)

/-- A message with merged attachments that says something. -/
lemma Message.normalize_self (hc : Clean m.fileIds)
    (htells : Py.blank m.prompt = false ∨ m.fileIds ≠ []) : m.normalize = some m := by
  unfold Message.normalize
  simp only [mergedFileIds_of_clean hc]
  rw [if_pos htells]

lemma normal_normalize (lineage : List Message) : Normal (normalizeSteeringLineage lineage) := by
  intro m hm
  obtain ⟨x, -, hx⟩ := mem_filterMap.1 hm
  unfold Message.normalize at hx
  dsimp only at hx
  split at hx
  · rename_i htells
    cases hx
    exact Message.normalize_self (mergedFileIds_clean _) htells
  · cases hx

lemma normal_turnSteeringLineage (turn : Option RunningTurn) : Normal (turnSteeringLineage turn) := by
  cases turn with
  | none => exact fun m hm => absurd hm not_mem_nil
  | some turn =>
    unfold turnSteeringLineage
    dsimp only
    split
    · exact normal_normalize _
    split
    · exact fun m hm => absurd hm not_mem_nil
    · rename_i htells
      intro m hm
      rw [mem_singleton.1 hm]
      exact Message.normalize_self (mergedFileIds_clean _) (says_of_not htells)

lemma Normal.concat (h : Normal lineage) (hm : m.normalize = some m) : Normal (lineage ++ [m]) :=
  forall_mem_append.2 ⟨h, forall_mem_singleton.2 hm⟩

/-! ### Queued rows -/

/-- A row as `enqueue_turn` makes it: its attachments are validated, and it has no other copy of its
    message but `display_prompt`. -/
structure Plain (r : Row) : Prop where
  clean : Clean r.fileIds
  steeringPrompt : r.steeringPrompt = none
  displayFileIds : r.displayFileIds = none
  steeringLineage : r.steeringLineage = []

/-- The rows of users: plain, or steered any number of times. -/
inductive Queued : Row → Prop
  | plain {r : Row} (h : Plain r) : Queued r
  | steered {r : Row} (h : Queued r) (interrupted : Option RunningTurn) :
    Queued (prepareSteeredTurn r interrupted)

def Row.message (r : Row) : Message := ⟨r.prompt, r.fileIds⟩

/-- The lineage of a steered row: earlier messages, then its own. -/
structure Ends (lineage : List Message) (m : Message) : Prop where
  normal : Normal lineage
  split : ∃ earlier, earlier ≠ [] ∧ lineage = earlier ++ [m]

/-- The copies of the message agree. -/
structure Agrees (r : Row) : Prop where
  clean : Clean r.fileIds
  prompts : r.steeringPrompt.getD r.prompt = r.prompt
  files : r.displayFileIds.getD r.fileIds = r.fileIds
  lineage : (r.steeringLineage = [] ∧ r.displayFileIds = none) ∨ Ends r.steeringLineage r.message

lemma Plain.agrees (h : Plain r) : Agrees r where
  clean := h.clean
  prompts := by rw [h.steeringPrompt]; rfl
  files := by rw [h.displayFileIds]; rfl
  lineage := .inl ⟨h.steeringLineage, h.displayFileIds⟩

/-- STEER: a steered row is the row itself, or carries its message behind the interrupted lineage. -/
theorem prepareSteeredTurn_cases (h : Agrees r) (interrupted : Option RunningTurn) :
    prepareSteeredTurn r interrupted = r ∨
    ((prepareSteeredTurn r interrupted).steeringLineage =
        turnSteeringLineage interrupted ++ [r.message] ∧
      Ends (prepareSteeredTurn r interrupted).steeringLineage r.message ∧
      (prepareSteeredTurn r interrupted).message = r.message ∧
      Agrees (prepareSteeredTurn r interrupted)) := by
  have hmerge : ⟨r.prompt, mergedFileIds r.fileIds⟩ = r.message := by
    rw [mergedFileIds_of_clean h.clean]; rfl
  unfold prepareSteeredTurn
  simp only [h.prompts, h.files, hmerge]
  split
  · exact .inl rfl
  rename_i htells
  obtain ⟨htells, hsome⟩ := not_or.1 htells
  split
  · exact .inl rfl
  right
  have hnormal : r.message.normalize = some r.message :=
    Message.normalize_self h.clean (says_of_not htells)
  have hends : Ends (turnSteeringLineage interrupted ++ [r.message]) r.message :=
    ⟨(normal_turnSteeringLineage interrupted).concat hnormal, _, hsome, rfl⟩
  exact ⟨rfl, hends, rfl, ⟨h.clean, rfl, rfl, .inr hends⟩⟩

/-- QUEUED: the copies of the message agree in every queued row. -/
theorem Queued.agrees (h : Queued r) : Agrees r := by
  induction h with
  | plain h => exact h.agrees
  | steered _ interrupted ih =>
    rcases prepareSteeredTurn_cases ih interrupted with heq | ⟨-, -, -, hagrees⟩
    · rw [heq]; exact ih
    · exact hagrees

/-! ### What the readers take -/

lemma Ends.providerMessage_eq (h : Ends lineage m) (prompt : String) (fileIds : List String) :
    providerMessage prompt fileIds lineage = m := by
  obtain ⟨hnormal, earlier, hne, rfl⟩ := h
  unfold providerMessage
  rw [normalize_of_normal hnormal]
  have hlen : 2 ≤ (earlier ++ [m]).length := by
    have := length_pos_iff.2 hne
    simp only [length_append, length_singleton]; omega
  rw [if_pos hlen, getLastD_concat]

lemma Agrees.providerMessage_eq (h : Agrees r) :
    providerMessage r.prompt r.fileIds r.steeringLineage = r.message := by
  rcases h.lineage with ⟨hnil, -⟩ | hends
  · rw [hnil]; rfl
  · exact hends.providerMessage_eq _ _

/-! ### Edits -/

/-- The message an edit asks for: the previous value for a field it leaves alone. -/
def Row.edited (r : Row) (req : Edit) : Message :=
  ⟨req.prompt.getD r.prompt, (req.fileIds.map mergedFileIds).getD r.fileIds⟩

/-- The edited row `r'` of `r` shows `m` to the provider and to the next steering, and the earlier
    messages as they were. -/
structure Shows (r r' : Row) (m : Message) : Prop where
  provider : providerMessage r'.prompt r'.fileIds r'.steeringLineage = m
  earlier : r'.steeringLineage.dropLast = r.steeringLineage.dropLast
  steered : ∀ interrupted, let t := prepareSteeredTurn r' interrupted
    t.message = m ∧ providerMessage t.prompt t.fileIds t.steeringLineage = m ∧
      (t = r' ∨ t.steeringLineage = turnSteeringLineage interrupted ++ [m])

lemma validatedFileIds_ok {fileIds validated : Option (List String)}
    (h : validatedFileIds owned fileIds = .ok validated) :
    validated = fileIds.map mergedFileIds := by
  cases fileIds with
  | none => cases h; rfl
  | some ids =>
    unfold validatedFileIds validateSessionFileIds refuseIf at h
    by_cases howned : (mergedFileIds ids).all owned = false
    · simp only [howned] at h
      cases h
    · simp only [howned] at h
      cases h
      rfl

/-- An accepted edit writes the prompt everywhere and the attachments in one place. -/
lemma updateQueuedTurn_ok {references : Row → Except HttpError Unit}
    {r' : Row} {req : Edit} (h : updateQueuedTurn owned references r req = .ok r') :
    (∀ p ∈ req.prompt, Py.blank p = false) ∧
    r' = { (req.prompt.map r.editPrompt).getD r with fileIds := (r.edited req).fileIds } := by
  obtain ⟨validated, hvalid, h⟩ := bind_ok h
  obtain ⟨_, _, h⟩ := bind_ok h
  obtain ⟨_, hblank, h⟩ := bind_ok h
  obtain ⟨_, _, h⟩ := bind_ok h
  cases h
  have hblank := refuseIf_ok hblank
  refine ⟨fun p hp => Bool.eq_false_iff.2 fun hb => hblank ⟨p, hp, hb⟩, ?_⟩
  have hfiles : ((req.prompt.map r.editPrompt).getD r).fileIds = r.fileIds := by
    cases req.prompt <;> rfl
  rw [validatedFileIds_ok hvalid]
  unfold Row.edited
  cases req.fileIds with
  | none => simp only [Option.map_none, Option.getD_none, ← hfiles]
  | some ids => rfl

lemma Agrees.shows {r' : Row} (h : Agrees r') (hm : r'.message = m)
    (hearlier : r'.steeringLineage.dropLast = r.steeringLineage.dropLast) : Shows r r' m where
  provider := h.providerMessage_eq.trans hm
  earlier := hearlier
  steered := by
    intro interrupted
    rcases prepareSteeredTurn_cases h interrupted with heq | ⟨hlineage, hends, hmessage, -⟩
    · rw [heq]
      exact ⟨hm, h.providerMessage_eq.trans hm, .inl rfl⟩
    · refine ⟨hmessage.trans hm, ?_, .inr (by rw [hlineage, hm])⟩
      rw [hends.providerMessage_eq, hm]

lemma editLast_concat (prompt : String) (earlier : List Message) (m : Message) :
    editLast prompt (earlier ++ [m]) = earlier ++ [{ m with prompt := prompt }] := by
  unfold editLast
  rw [getLast?_concat]
  rw [dropLast_concat]

/-- PROMPT: an edit of the prompt keeps the copies in agreement and the earlier messages in place. -/
theorem Agrees.editPrompt (h : Agrees r) (hp : Py.blank prompt = false) :
    Agrees (r.editPrompt prompt) ∧
    (r.editPrompt prompt).steeringLineage.dropLast = r.steeringLineage.dropLast ∧
    ((r.editPrompt prompt).steeringLineage = [] ↔ r.steeringLineage = []) := by
  have hprompts : (r.editPrompt prompt).steeringPrompt.getD prompt = prompt := by
    show (r.steeringPrompt.map fun _ => prompt).getD prompt = prompt
    cases r.steeringPrompt <;> rfl
  rcases h.lineage with ⟨hnil, hdisplay⟩ | ⟨hnormal, earlier, hne, hsplit⟩
  · have hlineage : (r.editPrompt prompt).steeringLineage = [] := by
      simp only [Row.editPrompt, hnil]
      rfl
    exact ⟨⟨h.clean, hprompts, h.files, .inl ⟨hlineage, hdisplay⟩⟩, by rw [hlineage, hnil],
      by rw [hlineage, hnil]⟩
  · have hlineage : (r.editPrompt prompt).steeringLineage = earlier ++ [⟨prompt, r.fileIds⟩] := by
      have hsome : r.steeringLineage ≠ [] := by rw [hsplit]; simp
      simp only [Row.editPrompt, normalize_of_normal hnormal]
      rw [if_neg hsome, hsplit, editLast_concat]
      rfl
    have hkept : Normal earlier := fun m hm =>
      hnormal m (by rw [hsplit]; exact mem_append_left _ hm)
    have hnew : (⟨prompt, r.fileIds⟩ : Message).normalize = some ⟨prompt, r.fileIds⟩ :=
      Message.normalize_self h.clean (.inl hp)
    refine ⟨⟨h.clean, hprompts, h.files, .inr ⟨?_, earlier, hne, hlineage⟩⟩, ?_, ?_⟩
    · rw [hlineage]; exact hkept.concat hnew
    · rw [hlineage, hsplit, dropLast_concat, dropLast_concat]
    · rw [hlineage, hsplit]; simp

/-- EDIT: an accepted edit of a queued message is what the provider and the next steering show, with
    the earlier messages unchanged, exactly when it leaves the attachments as they are or the row has
    no steering lineage. -/
theorem queued_edit_shown_iff (r : Row) (hr : Queued r) (req : Edit) (owned : String → Bool)
    (references : Row → Except HttpError Unit) (r' : Row)
    (h : updateQueuedTurn owned references r req = .ok r') :
    Shows r r' (r.edited req) ↔
      (∀ ids ∈ req.fileIds, mergedFileIds ids = r.fileIds) ∨ r.steeringLineage = [] := by
  obtain ⟨hblank, rfl⟩ := updateQueuedTurn_ok h
  -- the row with its prompt edited
  obtain ⟨q, hq⟩ : ∃ q, q = (req.prompt.map r.editPrompt).getD r := ⟨_, rfl⟩
  have hedit : Agrees q ∧ q.steeringLineage.dropLast = r.steeringLineage.dropLast ∧
      (q.steeringLineage = [] ↔ r.steeringLineage = []) ∧ q.fileIds = r.fileIds ∧
      q.prompt = (r.edited req).prompt := by
    rw [hq]
    unfold Row.edited
    cases hp : req.prompt with
    | none => exact ⟨hr.agrees, rfl, Iff.rfl, rfl, rfl⟩
    | some p =>
      obtain ⟨h₁, h₂, h₃⟩ := hr.agrees.editPrompt (hblank p (by rw [hp]; rfl))
      exact ⟨h₁, h₂, h₃, rfl, rfl⟩
  obtain ⟨hagrees, hearlier, hnil, hfiles, hprompt⟩ := hedit
  rw [← hq]
  have hsame : (r.edited req).fileIds = r.fileIds ↔
      ∀ ids ∈ req.fileIds, mergedFileIds ids = r.fileIds := by
    unfold Row.edited
    cases req.fileIds <;> simp
  rw [← hsame, ← hnil]
  have hclean : Clean (r.edited req).fileIds := by
    unfold Row.edited
    cases req.fileIds with
    | none => exact hr.agrees.clean
    | some ids => exact mergedFileIds_clean ids
  constructor
  · intro hshows
    by_contra hno
    obtain ⟨hdiff, hsome⟩ := not_or.1 hno
    have hends := hagrees.lineage.resolve_left fun hplain => hsome hplain.1
    have hprovider := hshows.provider
    rw [hends.providerMessage_eq] at hprovider
    exact hdiff ((congrArg Message.fileIds hprovider).symm.trans hfiles)
  · rintro (heq | hplain)
    · have hrow : { q with fileIds := (r.edited req).fileIds } = q := by rw [heq, ← hfiles]
      rw [hrow]
      refine hagrees.shows ?_ hearlier
      unfold Row.message
      rw [hprompt, hfiles, ← heq]
    · have hdisplay : q.displayFileIds = none := by
        rcases hagrees.lineage with hno | ⟨-, earlier, -, hsplit⟩
        · exact hno.2
        · rw [hplain] at hsplit; simp at hsplit
      refine Agrees.shows ⟨hclean, hagrees.prompts, ?_, .inl ⟨hplain, hdisplay⟩⟩ ?_ hearlier
      · rw [hdisplay]; rfl
      · show Message.mk q.prompt (r.edited req).fileIds = _
        rw [hprompt]

/-- A steered row whose prompt is edited: the provider receives the new prompt. -/
theorem queued_edit_shown_prompt :
    let r := prepareSteeredTurn ⟨"q", none, "now", none, none, ["a"], none, [], none, none⟩
      (some ⟨some "run", "before", [], []⟩)
    let req : Edit := { prompt := some "later" }
    ∃ r', updateQueuedTurn (fun _ => true) (fun _ => .ok ()) r req = .ok r' ∧
      Shows r r' (r.edited req) := by
  refine ⟨_, rfl, (queued_edit_shown_iff _ (.steered (.plain ⟨?_, rfl, rfl, rfl⟩) _) _
    (fun _ => true) (fun _ => .ok ()) _ rfl).2 (.inl ?_)⟩
  · exact ⟨List.nodup_singleton _, by decide⟩
  · exact fun _ h => nomatch h

/-- A steered row whose attachment `a` is replaced by `b`: the provider still receives `a`. -/
theorem steered_row_keeps_attachment :
    let r := prepareSteeredTurn ⟨"q", none, "now", none, none, ["a"], none, [], none, none⟩
      (some ⟨some "run", "before", [], []⟩)
    let req : Edit := { fileIds := some ["b"] }
    Queued r ∧ ∃ r', updateQueuedTurn (fun _ => true) (fun _ => .ok ()) r req = .ok r' ∧
      r'.fileIds = ["b"] ∧
      providerMessage r'.prompt r'.fileIds r'.steeringLineage = ⟨"now", ["a"]⟩ ∧
      ¬ Shows r r' (r.edited req) := by
  refine ⟨.steered (.plain ⟨⟨List.nodup_singleton _, by decide⟩, rfl, rfl, rfl⟩) _, _, rfl, ?_⟩
  refine ⟨by decide, by decide, fun hshows => ?_⟩
  have hprovider := hshows.provider
  revert hprovider
  decide

end Turns
