import ZenithBot.Mentions.Spans

/-! Validation is idempotent and its spans are exact. The main loop puts each reference into its current
    form, and would do the same to that form (`admit_canonical`), so a second pass over the result goes the
    same way: it has no direct messages left, so nothing to collapse (`collapse_of_none`), and its loop ends
    in the same state. -/

namespace Mentions
open Lib Py List

variable {prompt : Text} {references : List ChatReference}

/-! ### The current form -/

section Canonical
variable (r : ChatReference)

lemma canonical_of_ne (h : ¬(r.peer = none ∧ r.action = .directMessage)) : r.canonical = r := dif_neg h

@[simp] lemma canonical_peer : r.canonical.peer = r.peer := by
  unfold ChatReference.canonical
  split <;> rfl

@[simp] lemma canonical_span : r.canonical.span = r.span := by
  unfold ChatReference.canonical
  split <;> rfl

@[simp] lemma canonical_sessionId : r.canonical.sessionId = r.sessionId := by
  unfold ChatReference.canonical
  split <;> rfl

lemma canonical_title : r.canonical.displayTitleSnapshot = r.displayTitleSnapshot := by
  unfold ChatReference.canonical
  split <;> rfl

lemma canonical_marker : r.canonical.marker = r.marker := by
  rw [ChatReference.marker, canonical_title, ChatReference.marker]

lemma canonical_action : r.canonical.action ≠ .directMessage := by
  unfold ChatReference.canonical
  split
  · exact nofun
  · rename_i h
    intro haction
    cases hpeer : r.peer with
    | none => exact h ⟨hpeer, haction⟩
    | some p =>
      have hd := r.discriminates
      rw [hpeer] at hd
      obtain ⟨-, -, hact, -⟩ := hd
      rw [haction] at hact
      rcases hact with hact | hact <;> cases hact

@[simp] lemma canonical_canonical : r.canonical.canonical = r.canonical :=
  canonical_of_ne _ fun h => canonical_action r h.2

lemma direct_bare {r : ChatReference} (hpeer : r.peer = none) (haction : r.action = .directMessage) :
    r.routeAction = none ∧ r.grantIntent = false := by
  have hd := r.discriminates
  rw [hpeer, haction] at hd
  obtain ⟨hroute, hgrant⟩ := hd
  constructor
  · by_contra hne
    exact absurd (hroute hne) nofun
  · cases hg : r.grantIntent with
    | false => rfl
    | true => exact absurd (hgrant hg).1 nofun

lemma canonical_routeAction : r.canonical.routeAction = r.routeAction := by
  unfold ChatReference.canonical
  split
  · rename_i h
    exact (direct_bare h.1 h.2).1.symm
  · rfl

lemma canonical_asksReply : r.canonical.asksReply = r.asksReply := by
  by_cases h : r.peer = none ∧ r.action = .directMessage
  · have hbare := direct_bare h.1 h.2
    have hcanonical : r.canonical.action = .route := by
      rw [ChatReference.canonical, dif_pos h]
    simp [ChatReference.asksReply, hcanonical, canonical_routeAction, h.2]
  · rw [canonical_of_ne r h]

/-- What marks a reference marks its current form. -/
lemma markerCandidates_canonical {m : Text} (h : m ∈ r.markerCandidates) :
    m ∈ r.canonical.markerCandidates := by
  by_cases hd : r.peer = none ∧ r.action = .directMessage
  · have hm : m = r.marker := by
      have hno : ¬(r.peer = none ∧ r.action = .route) := fun hr => absurd (hd.2.symm.trans hr.2) nofun
      rw [ChatReference.markerCandidates, if_neg hno] at h
      exact mem_singleton.1 h
    unfold ChatReference.markerCandidates
    rw [canonical_marker, hm]
    split
    · exact mem_cons_self
    · exact mem_singleton_self _
  · rwa [canonical_of_ne r hd]

end Canonical

/-! ### The main loop -/

/-- What identifies the grant of an admitted reference. -/
def ChatReference.grantKey (r : ChatReference) : GrantKey :=
  match r.peer with
  | some p => .peer p r.action
  | none => .here r.target r.action

/-- What a round of the loop adds. -/
structure Admits (prompt : Text) (s : Admitted) (r : ChatReference) (s' : Admitted) : Prop where
  span : checkSpan prompt r = .ok ()
  seen : s'.seen = s.seen ++ [r.canonical.grantKey]
  fresh : r.canonical.grantKey ∉ s.seen
  spans : s'.spans = s.spans ++ [r.span]
  references : s'.references = s.references ++ [r.canonical]

section Loop
variable {desk : Desk} {source : String} {prompt : Text} {s s' : Admitted} {r : ChatReference}

lemma admitReference_ok (h : admitReference desk source prompt s r = .ok s') : Admits prompt s r s' := by
  obtain ⟨_, hspan, h⟩ := bind_ok h
  split at h
  · rename_i p hpeer
    have hcanonical := canonical_of_ne r fun hd => absurd (hpeer.symm.trans hd.1) nofun
    have hkey : r.canonical.grantKey = .peer p r.action := by
      rw [hcanonical, ChatReference.grantKey, hpeer]
    iterate 3 obtain ⟨_, -, h⟩ := bind_ok h
    obtain ⟨_, hseen, h⟩ := bind_ok h
    obtain ⟨_, -, h⟩ := bind_ok h
    obtain rfl := Except.ok.inj h
    exact ⟨hspan, by rw [hkey], hkey ▸ refuseIf_ok hseen, rfl, by rw [hcanonical]⟩
  · rename_i hpeer
    have hkey : r.canonical.grantKey = .here r.canonical.target r.canonical.action := by
      rw [ChatReference.grantKey, canonical_peer, hpeer]
    obtain ⟨_, -, h⟩ := bind_ok h
    obtain ⟨hseen, h⟩ := refuse_ok h
    obtain ⟨_, -, h⟩ := bind_ok h
    obtain rfl := Except.ok.inj h
    exact ⟨hspan, by rw [hkey], hkey ▸ hseen, rfl, rfl⟩

/-- STEP: the loop treats the current form of a reference as it treats the reference. -/
theorem admit_canonical (h : admitReference desk source prompt s r = .ok s') :
    admitReference desk source prompt s r.canonical = .ok s' := by
  by_cases hd : r.peer = none ∧ r.action = .directMessage
  · have hspan := (admitReference_ok h).span
    obtain ⟨m, hm, hmention⟩ := checkSpan_ok hspan
    have hspan' : checkSpan prompt r.canonical = .ok () :=
      checkSpan_of (markerCandidates_canonical r hm) (by rwa [canonical_span])
    rw [admitReference, hspan, hd.1] at h
    rw [admitReference, hspan', canonical_peer, hd.1]
    unfold admitHere at h ⊢
    rw [canonical_canonical, canonical_span]
    exact h
  · rw [canonical_of_ne r hd]
    exact h

lemma admitAll_canonical : ∀ {references : List ChatReference} {s s' : Admitted},
    references.foldlM (admitReference desk source prompt) s = .ok s' →
    (references.map ChatReference.canonical).foldlM (admitReference desk source prompt) s = .ok s'
  | [], _, _, h => h
  | r :: rs, s, s', h => by
    obtain ⟨s1, hr, h⟩ := bind_ok h
    rw [map_cons, foldlM_cons, admit_canonical hr]
    exact admitAll_canonical h

/-- What the loop has made of the references so far. -/
structure LoopInv (prompt : Text) (done : List ChatReference) (s : Admitted) : Prop where
  references : s.references = done.map ChatReference.canonical
  spans : s.spans = s.references.map ChatReference.span
  seen : s.seen = s.references.map ChatReference.grantKey
  nodup : s.seen.Nodup
  mentions : ∀ c ∈ s.references, ∃ m ∈ c.markerCandidates, Mention prompt c.span m

lemma Admits.inv {done : List ChatReference} (h : Admits prompt s r s') (hs : LoopInv prompt done s) :
    LoopInv prompt (done ++ [r]) s' where
  references := by rw [h.references, hs.references, map_append, map_singleton]
  spans := by
    rw [h.spans, h.references, hs.spans, map_append, map_singleton, canonical_span]
  seen := by rw [h.seen, h.references, hs.seen, map_append, map_singleton]
  nodup := by
    rw [h.seen]
    refine nodup_append.2 ⟨hs.nodup, nodup_singleton _, fun a ha b hb heq => h.fresh ?_⟩
    rwa [← mem_singleton.1 hb, ← heq]
  mentions c hc := by
    rw [h.references, mem_append, mem_singleton] at hc
    rcases hc with hc | rfl
    · exact hs.mentions c hc
    · obtain ⟨m, hm, hmention⟩ := checkSpan_ok h.span
      exact ⟨m, markerCandidates_canonical r hm, by rwa [canonical_span]⟩

lemma LoopInv.start : LoopInv prompt [] .none := ⟨rfl, rfl, rfl, nodup_nil, nofun⟩

/-- RUN: the whole loop. -/
theorem admitAll_inv : ∀ {rest done : List ChatReference} {s s' : Admitted},
    LoopInv prompt done s → rest.foldlM (admitReference desk source prompt) s = .ok s' →
    LoopInv prompt (done ++ rest) s'
  | [], done, s, s', hs, h => by
    cases h
    rwa [append_nil]
  | r :: rest, done, s, s', hs, h => by
    obtain ⟨s1, hr, h⟩ := bind_ok h
    have hrest := admitAll_inv ((admitReference_ok hr).inv hs) h
    rwa [append_assoc] at hrest

end Loop

/-! ### Collapsing -/

/-- What is left is a part of the list, in its order. -/
lemma collapse_sublist {kept : List ChatReference}
    (h : collapseLegacyDualLocalReferences prompt references = .ok kept) : kept.Sublist references := by
  obtain ⟨dropped, -, h⟩ := bind_ok h
  obtain rfl := Except.ok.inj h
  have hsub := (filter_sublist (p := fun x => decide (some x.2 ∉ dropped))
    (l := references.zipIdx)).map Prod.fst
  rwa [zipIdx_map_fst] at hsub

/-- Without direct messages no group is of the old shape. -/
lemma dropFrom_of_none (h : ∀ r ∈ references, r.peer = none → r.action ≠ .directMessage)
    (key : String × Text) : dropFrom prompt references key = .ok none := by
  have hdirect : (groupOf references key).filter (·.1.action = .directMessage) = [] := by
    refine filter_eq_nil_iff.2 fun x hx => ?_
    obtain ⟨hmem, hcond⟩ := mem_filter.1 hx
    have hcond : x.1.peer = none ∧ x.1.groupKey = key := by simpa using hcond
    simpa using h x.1 (fst_mem_of_mem_zipIdx hmem) hcond.1
  have hpair : legacyPair (groupOf references key) = none := by
    unfold legacyPair
    split
    · rfl
    · rw [hdirect]
  rw [dropFrom, hpair]

lemma mapM_ok_none {α β ε : Type} {f : α → Except ε (Option β)} (h : ∀ a, f a = .ok none) :
    ∀ as : List α, as.mapM f = .ok (as.map fun _ => none)
  | [] => rfl
  | a :: as => by
    rw [mapM_cons, h a, mapM_ok_none h as]
    rfl

/-- COLLAPSE: without direct messages the list stays as it is. -/
theorem collapse_of_none (h : ∀ r ∈ references, r.peer = none → r.action ≠ .directMessage) :
    collapseLegacyDualLocalReferences prompt references = .ok references := by
  unfold collapseLegacyDualLocalReferences
  dsimp only
  rw [mapM_ok_none (dropFrom_of_none h), ok_bind]
  have hall : (references.zipIdx.filter fun x => decide (some x.2 ∉
      (((references.filter (·.peer = none)).map ChatReference.groupKey).dedup.map
        fun _ => none))) = references.zipIdx := by
    simp
  rw [hall, zipIdx_map_fst]
  rfl

/-! ### Chat references -/

/-- What the chat validator returns, and how it came to it. -/
structure ChatsValid (desk : Desk) (source : String) (prompt : Text) (references chats : List ChatReference)
    (capabilities : List String) : Prop where
  derived : ∀ c ∈ chats, ∃ r ∈ references, c = r.canonical
  mentions : ∀ c ∈ chats, ∃ m ∈ c.markerCandidates, Mention prompt c.span m
  grants : (chats.map ChatReference.grantKey).Nodup
  disjoint : (chats.map ChatReference.span).Pairwise Apart
  again : validateChatReferences desk source prompt chats capabilities = .ok chats

section Chats
variable {desk : Desk} {source : String} {prompt : Text} {references chats : List ChatReference}
  {capabilities : List String}

lemma spans_nonempty (h : ∀ c ∈ chats, ∃ m ∈ c.markerCandidates, Mention prompt c.span m) :
    ∀ a ∈ chats.map ChatReference.span, a.1 < a.2 := by
  intro a ha
  obtain ⟨c, hc, rfl⟩ := mem_map.1 ha
  obtain ⟨m, hm, hmention⟩ := h c hc
  exact hmention.nonempty (markerCandidates_ne_nil hm)

/-- A grant intent that was accepted is accepted in the current form. -/
lemma checkGrantIntent_canonical {r : ChatReference}
    (h : checkGrantIntent prompt capabilities r = .ok ()) :
    checkGrantIntent prompt capabilities r.canonical = .ok () := by
  by_cases hd : r.peer = none ∧ r.action = .directMessage
  · have hgrant : r.canonical.grantIntent = false := by
      rw [ChatReference.canonical, dif_pos hd]
      exact (direct_bare hd.1 hd.2).2
    rw [checkGrantIntent, if_pos hgrant]
    rfl
  · rwa [canonical_of_ne r hd]

lemma checkAll_of {α ε : Type} {check : α → Except ε Unit} : ∀ {as : List α},
    (∀ a ∈ as, check a = .ok ()) → checkAll check as = .ok ()
  | [], _ => rfl
  | a :: as, h => by
    rw [checkAll, h a mem_cons_self]
    exact checkAll_of fun b hb => h b (mem_cons_of_mem _ hb)

/-- CHATS: the validator's result is exact, and validating it again gives it back. -/
theorem validateChatReferences_ok
    (h : validateChatReferences desk source prompt references capabilities = .ok chats) :
    ChatsValid desk source prompt references chats capabilities := by
  unfold validateChatReferences at h
  split at h
  · obtain rfl := Except.ok.inj h
    exact ⟨nofun, nofun, nodup_nil, .nil, rfl⟩
  · obtain ⟨hauth, h⟩ := refuse_ok h
    obtain ⟨_, hgrants, h⟩ := bind_ok h
    obtain ⟨kept, hkept, h⟩ := bind_ok h
    obtain ⟨_, hreply, h⟩ := bind_ok h
    obtain ⟨admitted, hadmitted, h⟩ := bind_ok h
    obtain ⟨hoverlap, h⟩ := refuse_ok h
    obtain rfl := Except.ok.inj h
    have hinv := admitAll_inv LoopInv.start hadmitted
    rw [nil_append] at hinv
    have hsub := collapse_sublist hkept
    have hfree : overlapping (admitted.spans.insertionSort Span.le) = false := by
      simpa using hoverlap
    refine ⟨fun c hc => ?_, hinv.mentions, hinv.seen ▸ hinv.nodup, ?_, ?_⟩
    · rw [hinv.references] at hc
      obtain ⟨r, hr, rfl⟩ := mem_map.1 hc
      exact ⟨r, hsub.subset hr, rfl⟩
    · rw [hinv.spans] at hfree
      exact (overlapping_iff (spans_nonempty hinv.mentions)).1 hfree
    · -- the second pass, check by check
      have hgrants' : checkAll (checkGrantIntent prompt capabilities) admitted.references = .ok () := by
        refine checkAll_of fun c hc => ?_
        rw [hinv.references] at hc
        obtain ⟨r, hr, rfl⟩ := mem_map.1 hc
        exact checkGrantIntent_canonical (checkAll_ok hgrants r (hsub.subset hr))
      have hcollapse : collapseLegacyDualLocalReferences prompt admitted.references =
          .ok admitted.references := by
        refine collapse_of_none fun c hc _ => ?_
        rw [hinv.references] at hc
        obtain ⟨r, -, rfl⟩ := mem_map.1 hc
        exact canonical_action r
      have hany : admitted.references.any ChatReference.asksReply = kept.any ChatReference.asksReply := by
        rw [hinv.references, any_map]
        congr 1
        funext r
        exact canonical_asksReply r
      have hreply' : checkReplyTarget desk source admitted.references capabilities = .ok () := by
        unfold checkReplyTarget at hreply ⊢
        rw [hany]
        exact hreply
      have hloop : admitted.references.foldlM (admitReference desk source prompt) .none = .ok admitted := by
        rw [hinv.references]
        exact admitAll_canonical hadmitted
      unfold validateChatReferences
      split
      · rename_i hnil
        rw [hnil]
        rfl
      · rw [refuseIf_of_not hauth, ok_bind, hgrants', ok_bind, hcollapse, ok_bind, hreply',
          ok_bind, hloop, ok_bind, refuseIf_of_not hoverlap]
        rfl

end Chats

/-! ### Team references -/

lemma checkTeamReference_ok {r : TeamReference}
    {seen seen' : List (TeamKind × String × Option RecipientKind × String)}
    (h : checkTeamReference prompt seen r = .ok seen') : Mention prompt r.span r.marker := by
  obtain ⟨_, -, h⟩ := bind_ok h
  obtain ⟨hend, h⟩ := refuse_ok h
  obtain ⟨exact, hexact, h⟩ := bind_ok h
  obtain ⟨htrue, h⟩ := refuse_ok h
  obtain ⟨token, htoken, h⟩ := bind_ok h
  obtain ⟨htrue', h⟩ := refuse_ok h
  obtain ⟨text, htext, rfl⟩ := covers_ok hexact
  have hmarker : text = r.marker := by simpa using htrue
  have htoken' : token = true := by simpa using htrue'
  subst hmarker htoken'
  exact mention_of_slices r.upright.le (not_lt.1 hend) htext htoken

lemma checkTeams_ok : ∀ {references : List TeamReference}
    {seen seen' : List (TeamKind × String × Option RecipientKind × String)},
    references.foldlM (checkTeamReference prompt) seen = .ok seen' →
    ∀ r ∈ references, Mention prompt r.span r.marker
  | [], _, _, _ => nofun
  | t :: ts, seen, seen', h => by
    obtain ⟨s, ht, h⟩ := bind_ok h
    rw [forall_mem_cons]
    exact ⟨checkTeamReference_ok ht, checkTeams_ok h⟩

/-- TEAMS: the validator returns what it was given, each a mention, apart from each other and from the
    chat references. -/
theorem validateTeamReferences_ok {references teams : List TeamReference} {chats : List ChatReference}
    (h : validateTeamReferences prompt references chats = .ok teams)
    (hchats : ∀ a ∈ chats.map ChatReference.span, a.1 < a.2) :
    teams = references ∧ (∀ t ∈ teams, Mention prompt t.span t.marker) ∧
      ((chats.map ChatReference.span).Pairwise Apart →
        (chats.map ChatReference.span ++ teams.map TeamReference.span).Pairwise Apart) := by
  unfold validateTeamReferences at h
  split at h
  · rename_i hnil
    obtain rfl := Except.ok.inj h
    exact ⟨hnil.symm, nofun, fun hp => by simpa using hp⟩
  · obtain ⟨seen, hloop, h⟩ := bind_ok h
    obtain ⟨hoverlap, h⟩ := refuse_ok h
    obtain rfl := Except.ok.inj h
    have hteams : ∀ a ∈ references.map TeamReference.span, a.1 < a.2 :=
      forall_mem_map.2 fun t _ => t.upright
    refine ⟨rfl, checkTeams_ok hloop, fun _ => ?_⟩
    refine (overlapping_iff (forall_mem_append.2 ⟨hchats, hteams⟩)).1 ?_
    simpa using hoverlap

/-! ### Both validators -/

/-- What is promised of accepted references. -/
structure Exact (prompt : Text) (chats : List ChatReference) (teams : List TeamReference) : Prop where
  disjoint : (chats.map ChatReference.span ++ teams.map TeamReference.span).Pairwise Apart
  chatMentions : ∀ c ∈ chats, Mention prompt c.span c.marker ∨ Mention prompt c.span ('@' :: c.marker)
  teamMentions : ∀ t ∈ teams, Mention prompt t.span t.marker
  grants : chats.Pairwise fun a b => a.peer = none → b.peer = none →
    ¬(a.target = b.target ∧ a.action = b.action)
  noDirect : ∀ c ∈ chats, c.action ≠ .directMessage

lemma markerCandidates_cases {c : ChatReference} {m : Text} (h : m ∈ c.markerCandidates) :
    m = c.marker ∨ m = '@' :: c.marker := by
  unfold ChatReference.markerCandidates at h
  split at h
  · simpa using h
  · exact .inl (mem_singleton.1 h)

/-- Accepted references are exact, each comes from a reference of the input with its route action, and both
    validators return them again. -/
theorem reference_validation_exact_and_idempotent (desk : Desk) (source : String) (prompt : Text)
    (references : List ChatReference) (teamReferences : List TeamReference) (capabilities : List String)
    (chats : List ChatReference) (teams : List TeamReference)
    (hchats : validateChatReferences desk source prompt references capabilities = .ok chats)
    (hteams : validateTeamReferences prompt teamReferences chats = .ok teams) :
    Exact prompt chats teams ∧
    (∀ c ∈ chats, ∃ r ∈ references, c.span = r.span ∧ c.sessionId = r.sessionId ∧
      c.routeAction = r.routeAction) ∧
    validateChatReferences desk source prompt chats capabilities = .ok chats ∧
    validateTeamReferences prompt teams chats = .ok teams := by
  have hc := validateChatReferences_ok hchats
  obtain ⟨rfl, hmentions, hdisjoint⟩ := validateTeamReferences_ok hteams (spans_nonempty hc.mentions)
  refine ⟨⟨hdisjoint hc.disjoint, fun c hmem => ?_, hmentions, ?_, fun c hmem => ?_⟩, fun c hmem => ?_,
    hc.again, hteams⟩
  · obtain ⟨m, hm, hmention⟩ := hc.mentions c hmem
    rcases markerCandidates_cases hm with rfl | rfl
    · exact .inl hmention
    · exact .inr hmention
  · refine (List.pairwise_map.1 hc.grants).imp fun {a b} hne ha hb hsame => hne ?_
    rw [ChatReference.grantKey, ChatReference.grantKey, ha, hb]
    exact congrArg₂ GrantKey.here hsame.1 hsame.2
  · obtain ⟨r, -, rfl⟩ := hc.derived c hmem
    exact canonical_action r
  · obtain ⟨r, hr, rfl⟩ := hc.derived c hmem
    exact ⟨r, hr, canonical_span r, canonical_sessionId r, canonical_routeAction r⟩

/-- A server with three chats. -/
def sampleDesk : Desk where
  authenticated := true
  sessions := fun id => if id = "source" ∨ id = "planner" ∨ id = "dev" then some ⟨false, .ok ()⟩ else none
  deleting := fun _ => false
  tombstone := fun _ => false
  relayEnabled := false
  relayUnavailable := "secure peer relay is unavailable"
  routeDelivery := false
  validateRemoteReference := fun _ _ => .ok ()
  quoted := fun id => "'" ++ id ++ "'"
  casefold := fun text => String.ofList (text.toList.map Char.toLower)

/-- A local reference without a route action or a grant intent. -/
def sampleReference (sessionId title : String) (start stop : ℕ) (action : Action)
    (bounds : (1 ≤ sessionId.length ∧ sessionId.length ≤ 128) ∧
      (1 ≤ title.toList.length ∧ title.toList.length ≤ 240) ∧ 1 ≤ stop)
    (plain : title.toList.head? ≠ some '@') : ChatReference :=
  ⟨sessionId, title.toList, start, stop, action, none, false, none, bounds, plain,
    ⟨fun h => absurd rfl h, nofun⟩⟩

def samplePrompt : Text := "ask @Planner @@ana 😀 @Dev".toList

/-- A route to the planner, and a direct message to dev after a character of two units. -/
def sampleReferences : List ChatReference :=
  [sampleReference "planner" "Planner" 4 12 .route (by decide) (by decide),
    sampleReference "dev" "Dev" 22 26 .directMessage (by decide) (by decide)]

def sampleTeam : TeamReference :=
  ⟨.recipient, some .human, "team", "ana", "ana".toList, 13, 18, by decide, by decide, ⟨.human, rfl, nofun⟩⟩

theorem reference_validation_exact_sample :
    ∃ chats, validateChatReferences sampleDesk "source" samplePrompt sampleReferences [] = .ok chats ∧
      validateTeamReferences samplePrompt [sampleTeam] chats = .ok [sampleTeam] ∧ chats.length = 2 ∧
      Exact samplePrompt chats [sampleTeam] ∧
      validateChatReferences sampleDesk "source" samplePrompt chats [] = .ok chats := by
  have hchats : validateChatReferences sampleDesk "source" samplePrompt sampleReferences [] =
      .ok (sampleReferences.map ChatReference.canonical) := by rfl
  have hteams : validateTeamReferences samplePrompt [sampleTeam]
      (sampleReferences.map ChatReference.canonical) = .ok [sampleTeam] := by rfl
  obtain ⟨hexact, -, hagain, -⟩ := reference_validation_exact_and_idempotent sampleDesk "source" samplePrompt
    sampleReferences [sampleTeam] [] _ _ hchats hteams
  exact ⟨_, hchats, hteams, rfl, hexact, hagain⟩

end Mentions
