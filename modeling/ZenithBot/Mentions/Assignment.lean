import ZenithBot.Mentions.JobRoutes

/-! When the conversion of routes succeeds. Each route gets the leftmost occurrence of its title that
    earlier routes of that title have left (`leftmost`); overlaps with other titles are only seen at the
    end, when the validator refuses the whole list. So a prompt with a place for every route can be refused:

        prompt      @Ann Lee and @Ann
        Ann         ╰──╯                     taken first, though the second place is free
        Ann Lee     ╰──────╯                 overlaps it

    The places are never too few (`count_le_occurrences`): what an assignment can use, the search can
    offer. -/

namespace Mentions
open Lib Py List

variable {references : List ChatReference} {span : Span}

/-! ### Places for routes -/

/-- The chat a selected route leads to. -/
def Board.target (board : Board) (x : Selection) : String :=
  match board.live x.routeId with
  | none => ""
  | some live => live.targetSessionId

/-- The title under which it has to be mentioned. -/
def Board.title (board : Board) (x : Selection) : Text := board.label (board.target x)

/-- Distinct live routes with granted actions and usable titles. -/
structure Selectable (board : Board) (selections : List Selection) : Prop where
  distinct : (selections.map Selection.routeId).Nodup
  issued : ∀ x ∈ selections, board.issued x.routeId = true
  live : ∀ x ∈ selections, ∃ live, board.live x.routeId = some live ∧ x.action ∈ live.actions
  identified : ∀ x ∈ selections, 1 ≤ (board.target x).length ∧ (board.target x).length ≤ 128
  titled : ∀ x ∈ selections, (1 ≤ (board.title x).length ∧ (board.title x).length ≤ 240) ∧
    (board.title x).head? ≠ some '@'

/-- There is a mention for every route such that no two overlap. -/
def Assignable (board : Board) (prompt : Text) (selections : List Selection) : Prop :=
  ∃ spans : List Span,
    List.Forall₂ (fun x span => Mention prompt span ('@' :: board.title x)) selections spans ∧
    spans.Pairwise Apart

/-- For each title in turn, the leftmost occurrence that the earlier ones of that title have left. -/
def leftmost (prompt : Text) : List Text → List Text → List (Option Span)
  | _, [] => []
  | earlier, t :: rest => (occurrences prompt t)[earlier.count t]? :: leftmost prompt (earlier ++ [t]) rest

/-- The leftmost occurrences of the routes do not overlap. -/
def Untangled (board : Board) (prompt : Text) (selections : List Selection) : Prop :=
  (leftmost prompt [] (selections.map board.title)).Pairwise fun a b => ∀ x ∈ a, ∀ y ∈ b, Apart x y

/-- The chats can exchange: the server is authenticated, each target is known, takes deliveries and is
    selected once, and the source can take any reply asked for. -/
structure Deliverable (desk : Desk) (board : Board) (source : String) (selections : List Selection) :
    Prop where
  authenticated : desk.authenticated = true
  asker : (desk.sessions source).isSome = true
  reply : (∃ x ∈ selections, x.action = .requestReply) →
    ∀ session, desk.sessions source = some session → session.deliverable = .ok ()
  known : ∀ x ∈ selections, (desk.sessions (board.target x)).isSome = true
  takes : ∀ x ∈ selections, checkTarget desk source (strip (board.target x)) = .ok ()
  apart : (selections.map fun x => strip (board.target x)).Nodup

/-! ### Occurrences of one title -/

section Occurrences
variable {prompt : Text} {title : Text}

lemma length_take_mono {p q : ℕ} (h : p ≤ q) :
    Utf16.length (prompt.take p) ≤ Utf16.length (prompt.take q) := by
  have hsplit : prompt.take q = prompt.take p ++ (prompt.drop p).take (q - p) := by
    rw [← take_add, Nat.add_sub_cancel' h]
  rw [hsplit, Utf16.length_append]
  exact Nat.le_add_right _ _

lemma mention_of_mem_occurrences (h : span ∈ occurrences prompt title) :
    Mention prompt span ('@' :: title) := by
  obtain ⟨p, hp, rfl⟩ := mem_map.1 h
  exact (occursAt_of_mem hp).2.mention

lemma occurrences_before (prompt title : Text) : (occurrences prompt title).Pairwise Before := by
  refine pairwise_map.2 ((occurrencesFrom_spaced _ _).imp_of_mem fun {p q} hp hq hspaced => ?_)
  have hne : ('@' :: title) ≠ [] := cons_ne_nil _ _
  exact ⟨(occursAt_of_mem hp).2.mention.nonempty hne, (occursAt_of_mem hq).2.mention.nonempty hne,
    length_take_mono hspaced⟩

lemma occurrences_nodup (prompt title : Text) : (occurrences prompt title).Nodup :=
  (occurrences_before prompt title).imp fun {a b} h heq => by
    obtain ⟨hlt, -, hle⟩ := h
    subst heq
    omega

/-- Occurrences of different titles are different ranges. -/
lemma title_unique {t u : Text} (ht : span ∈ occurrences prompt t) (hu : span ∈ occurrences prompt u) :
    t = u :=
  (List.cons.inj ((mention_of_mem_occurrences ht).marker_unique (mention_of_mem_occurrences hu))).2

/-- The places behind a row of mentions. -/
lemma exists_places {marker : Text} : ∀ {spans : List Span},
    (∀ s ∈ spans, Mention prompt s marker) →
    ∃ ps : List ℕ, ps.map (spanAt prompt marker) = spans ∧ ∀ p ∈ ps, OccursAt prompt marker p
  | [], _ => ⟨[], rfl, nofun⟩
  | s :: spans, h => by
    obtain ⟨p, hp, rfl⟩ := (h s mem_cons_self).occursAt
    obtain ⟨ps, hps, hoccurs⟩ := exists_places fun s hs => h s (mem_cons_of_mem _ hs)
    exact ⟨p :: ps, by rw [map_cons, hps], forall_mem_cons.2 ⟨hp, hoccurs⟩⟩

/-- ENOUGH: mentions of a title that do not overlap are never more than the search can offer. -/
theorem length_le_occurrences {spans : List Span}
    (hmentions : ∀ s ∈ spans, Mention prompt s ('@' :: title)) (hapart : spans.Pairwise Apart) :
    spans.length ≤ (occurrences prompt title).length := by
  have hne : ('@' :: title) ≠ [] := cons_ne_nil _ _
  have hpos : ∀ s ∈ spans, s.1 < s.2 := fun s hs => (hmentions s hs).nonempty hne
  have hperm := perm_insertionSort Span.le spans
  have hpos' : ∀ s ∈ spans.insertionSort Span.le, s.1 < s.2 := fun s hs => hpos s (hperm.mem_iff.1 hs)
  have hsorted : (spans.insertionSort Span.le).Pairwise Before :=
    (overlapping_eq_false hpos').1 ((overlapping_iff hpos).2 hapart)
  obtain ⟨ps, hps, hoccurs⟩ := exists_places fun s hs => hmentions s (hperm.mem_iff.1 hs)
  have hspaced : ps.Pairwise fun p q => p + ('@' :: title).length ≤ q := by
    rw [← hps] at hsorted
    refine (pairwise_map.1 hsorted).imp_of_mem fun {p q} hp hq hbefore => ?_
    exact le_of_length_take ((hoccurs p hp).bound hne) hbefore.2.2
  rw [← hperm.length_eq, ← hps, length_map, occurrences, length_map]
  exact occurrencesFrom_longest hne (by omega) (fun p hp => ⟨Nat.zero_le _, hoccurs p hp⟩) hspaced

end Occurrences

/-! ### The leftmost free place -/

section Leftmost
variable {prompt : Text} {titles : List Text}

lemma leftmost_concat (t : Text) : ∀ earlier titles : List Text,
    leftmost prompt earlier (titles ++ [t]) =
      leftmost prompt earlier titles ++ [(occurrences prompt t)[(earlier ++ titles).count t]?]
  | earlier, [] => by simp [leftmost]
  | earlier, u :: rest => by
    rw [cons_append, leftmost, leftmost_concat t, leftmost, append_assoc]
    rfl

/-- Of the occurrences of a title, the taken ones are as many from the left as the title had routes. -/
lemma taken_iff : ∀ {occupied : List Span},
    occupied.map some = leftmost prompt [] titles → ∀ t, ∀ span ∈ occurrences prompt t,
      (span ∈ occupied ↔ span ∈ (occurrences prompt t).take (titles.count t)) := by
  induction titles using List.reverseRecOn with
  | nil =>
    intro occupied h t span _
    rw [map_eq_nil_iff.1 h]
    simp
  | append_singleton titles u ih =>
    intro occupied h t span hspan
    rw [leftmost_concat, nil_append] at h
    obtain ⟨earlier, last, rfl, hearlier, hlast⟩ := map_eq_append_iff.1 h
    obtain ⟨y, rest, rfl, hy, hrest⟩ := map_eq_cons_iff.1 hlast
    obtain rfl := map_eq_nil_iff.1 hrest
    rw [count_append, mem_append, ih hearlier t span hspan]
    by_cases hut : u = t
    · subst hut
      rw [count_singleton_self, take_add_one, ← hy]
      simp
    · -- the place taken for another title is none of this title's
      have hne : span ≠ y := by
        rintro rfl
        exact hut (title_unique (mem_of_getElem? hy.symm) hspan)
      simp [hne, hut]

/-- The first element that is not among the taken ones, if those are the first `k`. -/
lemma find_free {α : Type} [BEq α] [LawfulBEq α] {xs taken : List α} {k : ℕ} (hnodup : xs.Nodup)
    (h : ∀ x ∈ xs, (x ∈ taken ↔ x ∈ xs.take k)) : xs.find? (· ∉ taken) = xs[k]? := by
  have hfirst : (xs.take k).find? (· ∉ taken) = none := by
    refine find?_eq_none.2 fun x hx => ?_
    simpa using (h x (mem_of_mem_take hx)).2 hx
  have hsplit := take_append_drop k xs
  have hfind : xs.find? (· ∉ taken) = (xs.drop k).find? (· ∉ taken) := by
    conv_lhs => rw [← hsplit, find?_append, hfirst, Option.none_or]
  rw [hfind]
  cases hdrop : xs.drop k with
  | nil =>
    rw [drop_eq_nil_iff] at hdrop
    rw [getElem?_eq_none hdrop]
    rfl
  | cons x rest =>
    have hget : xs[k]? = some x := by
      rw [← head?_drop, hdrop]
      rfl
    have hfree : x ∉ taken := by
      intro htaken
      have hfront := (h x (mem_of_getElem? hget)).1 htaken
      rw [← hsplit, hdrop] at hnodup
      exact (disjoint_of_nodup_append hnodup) hfront mem_cons_self
    rw [hget, find?_cons_of_pos (by simpa using hfree)]

lemma search_place {occupied : List Span}
    (h : occupied.map some = leftmost prompt [] titles) (t : Text) :
    search prompt ('@' :: t) occupied (prompt.length + 1) 0 = (occurrences prompt t)[titles.count t]? := by
  rw [search_eq]
  exact find_free (occurrences_nodup prompt t) (taken_iff h t)

end Leftmost

section Enough
variable {board : Board} {prompt : Text} {selections : List Selection}

/-- The spans an assignment gives to the routes of one title. -/
lemma exists_mentions {spans : List Span} (t : Text)
    (h : List.Forall₂ (fun x span => Mention prompt span ('@' :: board.title x)) selections spans) :
    ∃ own : List Span, own.length = (selections.map board.title).count t ∧ own.Sublist spans ∧
      ∀ s ∈ own, Mention prompt s ('@' :: t) := by
  induction h with
  | nil => exact ⟨[], rfl, .slnil, nofun⟩
  | @cons x span xs spans hx _ ih =>
    obtain ⟨own, hlen, hsub, hmentions⟩ := ih
    by_cases ht : board.title x = t
    · subst ht
      exact ⟨span :: own, by simp [hlen], hsub.cons_cons span, forall_mem_cons.2 ⟨hx, hmentions⟩⟩
    · exact ⟨own, by simp [hlen, ht], hsub.cons span, hmentions⟩

lemma count_le_occurrences (h : Assignable board prompt selections) (t : Text) :
    (selections.map board.title).count t ≤ (occurrences prompt t).length := by
  obtain ⟨spans, hmentions, hapart⟩ := h
  obtain ⟨own, hlen, hsub, hown⟩ := exists_mentions t hmentions
  rw [← hlen]
  exact length_le_occurrences hown (hapart.sublist hsub)

end Enough

/-! ### The loop -/

/-- The reference that a selected route becomes, up to its place. -/
structure IsRouteOf (board : Board) (x : Selection) (r : ChatReference) : Prop where
  sessionId : r.sessionId = board.target x
  title : r.displayTitleSnapshot = board.title x
  action : r.action = .route
  routeAction : r.routeAction = some x.action
  grantIntent : r.grantIntent = false
  here : r.peer = none

/-- What the loop has made of the selections so far. -/
structure ConvertInv (board : Board) (prompt : Text) (done : List Selection) (s : Converting) : Prop where
  seenRoutes : s.seenRoutes = done.map Selection.routeId
  places : s.occupied.map some = leftmost prompt [] (done.map board.title)
  spans : s.references.map ChatReference.span = s.occupied
  routes : List.Forall₂ (IsRouteOf board) done s.references
  mentions : ∀ r ∈ s.references, Mention prompt r.span r.marker

section Convert
variable {desk : Desk} {board : Board} {prompt : Text} {x : Selection} {done : List Selection}
  {s s' : Converting} {action : RouteAction} {target : String} {title : Text}

lemma ConvertInv.start : ConvertInv board prompt [] ⟨[], [], []⟩ := ⟨rfl, rfl, rfl, .nil, nofun⟩

lemma Board.target_of_live {live : LiveRoute} (h : board.live x.routeId = some live) :
    live.targetSessionId = board.target x := by
  rw [Board.target, h]

lemma routeReference_ok {r : ChatReference} (h : routeReference target title span action = .ok r) :
    r.span = span ∧ r.sessionId = target ∧ r.displayTitleSnapshot = title ∧ r.action = .route ∧
      r.routeAction = some action ∧ r.grantIntent = false ∧ r.peer = none := by
  unfold routeReference at h
  split at h
  · obtain rfl := Except.ok.inj h
    exact ⟨rfl, rfl, rfl, rfl, rfl, rfl, rfl⟩
  · cases h

lemma routeReference_of (h : ((1 ≤
      target.length ∧ target.length ≤ 128) ∧ (1 ≤ title.length ∧ title.length ≤ 240) ∧ 1 ≤ span.2) ∧
      title.head? ≠ some '@') : ∃ r, routeReference target title span action = .ok r := by
  rw [routeReference, dif_pos h]
  exact ⟨_, rfl⟩

/-- STEP: a selection takes the next place of its title. -/
theorem convert_ok (hs : ConvertInv board prompt done s) (h : convert desk board prompt s x = .ok s') :
    ConvertInv board prompt (done ++ [x]) s' ∧ (desk.sessions (board.target x)).isSome = true := by
  iterate 2 obtain ⟨_, -, h⟩ := bind_ok h
  obtain ⟨live, hlive, h⟩ := found_ok h
  obtain ⟨_, -, h⟩ := bind_ok h
  obtain ⟨_, hknown, h⟩ := bind_ok h
  obtain ⟨span, hspan, h⟩ := bind_ok h
  obtain ⟨r, hr, h⟩ := bind_ok h
  obtain rfl := Except.ok.inj h
  have htarget := Board.target_of_live hlive
  have hknown := refuseIf_ok hknown
  rw [htarget] at hknown hspan hr
  have hplace := (search_place hs.places (board.title x)).symm.trans (getOr_ok hspan)
  obtain ⟨hrspan, hsession, htitle, hroute, hrest⟩ := routeReference_ok hr
  refine ⟨⟨?_, ?_, ?_, ?_, forall_mem_append.2 ⟨hs.mentions, ?_⟩⟩, Option.isSome_iff_ne_none.2 (by simpa using hknown)⟩
  · rw [hs.seenRoutes, map_append, map_singleton]
  · rw [map_append, map_append, hs.places, map_singleton, map_singleton,
      leftmost_concat, nil_append, hplace]
  · rw [map_append, map_singleton, hs.spans, hrspan]
  · exact rel_append hs.routes (.cons ⟨hsession, htitle, hroute, hrest.1, hrest.2.1, hrest.2.2⟩ .nil)
  · rw [forall_mem_singleton, hrspan, ChatReference.marker, htitle]
    exact mention_of_mem_occurrences (mem_of_getElem? hplace)

/-- A selection goes through while its title has a place left. -/
lemma convert_of {selections rest : List Selection} (hsel : Selectable board selections)
    (hsplit : done ++ x :: rest = selections) (hs : ConvertInv board prompt done s)
    (hknown : (desk.sessions (board.target x)).isSome = true)
    (hplace : (done.map board.title).count (board.title x) < (occurrences prompt (board.title x)).length) :
    ∃ s', convert desk board prompt s x = .ok s' := by
  have hx : x ∈ selections := hsplit ▸ mem_append_right _ mem_cons_self
  obtain ⟨live, hlive, haction⟩ := hsel.live x hx
  have htarget := Board.target_of_live hlive
  have hfresh : x.routeId ∉ s.seenRoutes := by
    have hnodup := hsel.distinct
    rw [← hsplit, map_append] at hnodup
    rw [hs.seenRoutes]
    exact fun hmem => disjoint_of_nodup_append hnodup hmem mem_cons_self
  obtain ⟨span, hget⟩ : ∃ span,
      (occurrences prompt (board.title x))[(done.map board.title).count (board.title x)]? = some span :=
    ⟨_, getElem?_eq_getElem hplace⟩
  have hspan := (search_place hs.places (board.title x)).trans hget
  have hpos := (mention_of_mem_occurrences (mem_of_getElem? hget)).nonempty (cons_ne_nil _ _)
  have hissued : ¬board.issued x.routeId = false := by
    rw [hsel.issued x hx]
    exact nofun
  have hnone : ¬(desk.sessions (board.target x)).isNone = true := by
    simpa using Option.isSome_iff_ne_none.1 hknown
  obtain ⟨r, hr⟩ : ∃ r, routeReference (board.target x) (board.title x) span x.action = .ok r :=
    routeReference_of
      ⟨⟨hsel.identified x hx, (hsel.titled x hx).1, Nat.one_le_of_lt hpos⟩, (hsel.titled x hx).2⟩
  refine ⟨⟨s.seenRoutes ++ [x.routeId], s.occupied ++ [span], s.references ++ [r]⟩, ?_⟩
  rw [convert, refuseIf_of_not hfresh, ok_bind, refuseIf_of_not hissued, ok_bind, hlive, getOr, ok_bind,
    refuseIf_of_not (not_not.2 haction), ok_bind, htarget, refuseIf_of_not hnone, ok_bind]
  dsimp only
  rw [← Board.title, hspan, getOr, ok_bind, hr]
  rfl

/-- RUN: the whole loop, as far as it succeeds. -/
theorem convertAll_ok : ∀ {rest done : List Selection} {s s' : Converting},
    ConvertInv board prompt done s → rest.foldlM (convert desk board prompt) s = .ok s' →
    ConvertInv board prompt (done ++ rest) s' ∧ ∀ x ∈ rest, (desk.sessions (board.target x)).isSome = true
  | [], done, s, s', hs, h => by
    cases h
    rw [append_nil]
    exact ⟨hs, nofun⟩
  | x :: rest, done, s, s', hs, h => by
    obtain ⟨s1, hx, h⟩ := bind_ok h
    obtain ⟨hs1, hknown⟩ := convert_ok hs hx
    obtain ⟨hs', hrest⟩ := convertAll_ok hs1 h
    rw [append_assoc] at hs'
    exact ⟨hs', forall_mem_cons.2 ⟨hknown, hrest⟩⟩

/-- RUN: the loop succeeds if no title has more routes than occurrences. -/
theorem convertAll_of {selections : List Selection} (hsel : Selectable board selections)
    (hknown : ∀ x ∈ selections, (desk.sessions (board.target x)).isSome = true)
    (henough : ∀ t, (selections.map board.title).count t ≤ (occurrences prompt t).length) :
    ∀ {rest done : List Selection} {s : Converting}, done ++ rest = selections →
      ConvertInv board prompt done s → ∃ s', rest.foldlM (convert desk board prompt) s = .ok s'
  | [], _, s, _, _ => ⟨s, rfl⟩
  | x :: rest, done, s, hsplit, hs => by
    have hx : x ∈ selections := hsplit ▸ mem_append_right _ mem_cons_self
    have hplace : (done.map board.title).count (board.title x) <
        (occurrences prompt (board.title x)).length := by
      refine lt_of_lt_of_le ?_ (henough (board.title x))
      rw [← hsplit, map_append, map_cons, count_append, count_cons_self]
      omega
    obtain ⟨s1, hs1⟩ := convert_of hsel hsplit hs (hknown x hx) hplace
    obtain ⟨s', hs'⟩ := convertAll_of hsel hknown henough
      (by rw [← hsplit, append_assoc, singleton_append]) (convert_ok hs hs1).1
    exact ⟨s', by rw [foldlM_cons, hs1, ok_bind, hs']⟩

end Convert

/-! ### The validator on routes -/

/-- A reference to a local route that stands in the prompt. -/
structure RouteShape (prompt : Text) (r : ChatReference) : Prop where
  action : r.action = .route
  grantIntent : r.grantIntent = false
  here : r.peer = none
  mention : Mention prompt r.span r.marker

/-- What the loop adds for a local route. -/
def Admitted.withRoute (s : Admitted) (r : ChatReference) : Admitted :=
  { s with
    seen := s.seen ++ [.here r.target .route]
    hereDestinations := s.hereDestinations ++ [(r.target, .route)]
    spans := s.spans ++ [r.span]
    references := s.references ++ [r] }

section Routes
variable {desk : Desk} {source : String} {prompt : Text} {s s' : Admitted} {r : ChatReference}
  {chats : List ChatReference}

lemma RouteShape.canonical (h : RouteShape prompt r) : r.canonical = r :=
  canonical_of_ne r fun hd => absurd (h.action.symm.trans hd.2) nofun

lemma RouteShape.span_ok (h : RouteShape prompt r) : checkSpan prompt r = .ok () := by
  refine checkSpan_of ?_ h.mention
  rw [ChatReference.markerCandidates, if_pos ⟨h.here, h.action⟩]
  exact mem_cons_self

/-- STEP: a route is admitted if its target takes it and was not named before. -/
theorem admitReference_route (h : RouteShape prompt r) (hpeers : s.peerDestinations = []) :
    admitReference desk source prompt s r = .ok s' ↔
      checkTarget desk source r.target = .ok () ∧ GrantKey.here r.target .route ∉ s.seen ∧
        s' = s.withRoute r := by
  have hnotPeer : (r.target, Action.route) ∉ s.peerDestinations := by
    rw [hpeers]
    exact not_mem_nil
  rw [admitReference, h.span_ok, ok_bind, h.here]
  unfold admitHere
  dsimp only
  rw [h.canonical, h.action]
  constructor
  · intro hok
    obtain ⟨_, htarget, hok⟩ := bind_ok hok
    obtain ⟨_, hseen, hok⟩ := bind_ok hok
    obtain ⟨_, -, hok⟩ := bind_ok hok
    exact ⟨htarget, refuseIf_ok hseen, (Except.ok.inj hok).symm⟩
  · rintro ⟨htarget, hseen, rfl⟩
    rw [htarget, refuseIf_of_not hseen, refuseIf_of_not hnotPeer]
    rfl

/-- RUN: routes are admitted if every target takes them and none is named twice. -/
theorem admitAll_routes : ∀ {references : List ChatReference} {s s' : Admitted},
    (∀ r ∈ references, RouteShape prompt r) → s.peerDestinations = [] → s.seen.Nodup →
    (references.foldlM (admitReference desk source prompt) s = .ok s' ↔
      (∀ r ∈ references, checkTarget desk source r.target = .ok ()) ∧
        (s.seen ++ references.map fun r => GrantKey.here r.target .route).Nodup ∧
        s' = references.foldl Admitted.withRoute s)
  | [], s, s', _, _, hnodup => by
    simp only [map_nil, append_nil, hnodup, true_and,
      not_mem_nil, false_implies, implies_true]
    exact ⟨fun h => (Except.ok.inj h).symm, fun h => congrArg Except.ok h.symm⟩
  | r :: rs, s, s', hshape, hpeers, hnodup => by
    have hrest : ∀ r ∈ rs, RouteShape prompt r := fun r hr => hshape r (mem_cons_of_mem _ hr)
    have hr := hshape r mem_cons_self
    have hlist : s.seen ++ (r :: rs).map (fun r => GrantKey.here r.target .route) =
        (s.withRoute r).seen ++ rs.map fun r => GrantKey.here r.target .route := by
      simp [Admitted.withRoute]
    have hnext : GrantKey.here r.target .route ∉ s.seen → (s.withRoute r).seen.Nodup := fun hfresh =>
      nodup_append.2 ⟨hnodup, nodup_singleton _, fun a ha b hb heq =>
        hfresh (mem_singleton.1 hb ▸ heq ▸ ha)⟩
    rw [foldlM_cons, forall_mem_cons, hlist]
    constructor
    · intro h
      obtain ⟨s1, h1, h⟩ := bind_ok h
      obtain ⟨htarget, hfresh, rfl⟩ := (admitReference_route hr hpeers).1 h1
      obtain ⟨htargets, hall, hs'⟩ := (admitAll_routes (s := s.withRoute r) hrest hpeers (hnext hfresh)).1 h
      exact ⟨⟨htarget, htargets⟩, hall, hs'⟩
    · rintro ⟨⟨htarget, htargets⟩, hall, hs'⟩
      have hseen : (s.withRoute r).seen.Nodup := (nodup_append.1 hall).1
      have hfresh : GrantKey.here r.target .route ∉ s.seen := fun hmem =>
        (nodup_append.1 hseen).2.2 _ hmem _ (mem_singleton_self _) rfl
      rw [(admitReference_route hr hpeers).2 ⟨htarget, hfresh, rfl⟩]
      exact (admitAll_routes (s := s.withRoute r) hrest hpeers hseen).2 ⟨htargets, hall, hs'⟩

lemma foldl_withRoute : ∀ (references : List ChatReference) (s : Admitted),
    (references.foldl Admitted.withRoute s).references = s.references ++ references ∧
      (references.foldl Admitted.withRoute s).spans = s.spans ++ references.map ChatReference.span
  | [], s => by simp
  | r :: rs, s => by
    obtain ⟨hrefs, hspans⟩ := foldl_withRoute rs (s.withRoute r)
    rw [foldl_cons, hrefs, hspans]
    simp [Admitted.withRoute]

/-- What the validator asks of a list of local routes. -/
structure RoutesFit (desk : Desk) (source : String) (references : List ChatReference) : Prop where
  authenticated : desk.authenticated = true
  reply : checkReplyTarget desk source references [handoffsV2Capability] = .ok ()
  takes : ∀ r ∈ references, checkTarget desk source r.target = .ok ()
  once : (references.map ChatReference.target).Nodup
  apart : (references.map ChatReference.span).Pairwise Apart

/-- ROUTES: the validator returns a list of routes unchanged or not at all. -/
theorem validateChatReferences_routes (hne : references ≠ [])
    (hshape : ∀ r ∈ references, RouteShape prompt r) :
    validateChatReferences desk source prompt references [handoffsV2Capability] = .ok chats ↔
      chats = references ∧ RoutesFit desk source references := by
  have hgrants : checkAll (checkGrantIntent prompt [handoffsV2Capability]) references = .ok () := by
    refine checkAll_of fun r hr => ?_
    rw [checkGrantIntent, if_pos (hshape r hr).grantIntent]
    rfl
  have hcollapse : collapseLegacyDualLocalReferences prompt references = .ok references :=
    collapse_of_none fun r hr _ haction => absurd ((hshape r hr).action.symm.trans haction) (by simp)
  have hpos : ∀ a ∈ references.map ChatReference.span, a.1 < a.2 := by
    intro a ha
    obtain ⟨r, hr, rfl⟩ := mem_map.1 ha
    exact (hshape r hr).mention.nonempty (cons_ne_nil _ _)
  have hkeys : (references.map fun r => GrantKey.here r.target .route).Nodup ↔
      (references.map ChatReference.target).Nodup := by
    have hmap : references.map (fun r => GrantKey.here r.target .route) =
        (references.map ChatReference.target).map fun t => GrantKey.here t .route := by
      rw [map_map]
      rfl
    rw [hmap]
    exact nodup_map_iff fun a b h => (GrantKey.here.inj h).1
  obtain ⟨hrefs, hspans⟩ := foldl_withRoute references .none
  rw [validateChatReferences, if_neg hne]
  constructor
  · intro h
    obtain ⟨hauth, h⟩ := refuse_ok h
    rw [hgrants, ok_bind, hcollapse, ok_bind] at h
    obtain ⟨_, hreply, h⟩ := bind_ok h
    obtain ⟨admitted, hadmitted, h⟩ := bind_ok h
    obtain ⟨_, hoverlap, h⟩ := bind_ok h
    obtain ⟨htakes, honce, rfl⟩ := (admitAll_routes hshape rfl nodup_nil).1 hadmitted
    have hfree : overlapping ((references.map ChatReference.span).insertionSort Span.le) = false := by
      rw [hspans] at hoverlap
      simpa [Admitted.none] using refuseIf_ok hoverlap
    refine ⟨(Except.ok.inj h).symm.trans hrefs, ?_, hreply, htakes, hkeys.1 honce, ?_⟩
    · simpa using hauth
    · exact (overlapping_iff hpos).1 hfree
  · rintro ⟨rfl, hfit⟩
    have hloop : chats.foldlM (admitReference desk source prompt) .none =
        .ok (chats.foldl Admitted.withRoute .none) :=
      (admitAll_routes hshape rfl nodup_nil).2 ⟨hfit.takes, hkeys.2 hfit.once, rfl⟩
    have hfree := (overlapping_iff hpos).2 hfit.apart
    rw [refuseIf_of_not (by simp [hfit.authenticated]), ok_bind, hgrants, ok_bind, hcollapse, ok_bind,
      hfit.reply, ok_bind, hloop, ok_bind, hspans, refuseIf_of_not (by simpa [Admitted.none] using hfree),
      hrefs]
    rfl

/-- The validator of jobs returns a list of routes unchanged or not at all. -/
lemma validateScheduled_routes {redact : Bool} (hne : references ≠ [])
    (hshape : ∀ r ∈ references, RouteShape prompt r) :
    validateScheduledJobChatReferences desk source prompt references redact = .ok chats ↔
      chats = references ∧ (desk.sessions source).isSome = true ∧ RoutesFit desk source references := by
  have hhere : ¬∃ r ∈ references, r.peer ≠ none := by
    rintro ⟨r, hr, hpeer⟩
    exact hpeer (hshape r hr).here
  rw [validateScheduledJobChatReferences, if_neg hne, refuseIf_of_not hhere, ok_bind]
  constructor
  · intro h
    obtain ⟨_, hsource, h⟩ := bind_ok h
    obtain ⟨hchats, hfit⟩ := (validateChatReferences_routes hne hshape).1 (mapError_ok h)
    exact ⟨hchats, Option.isSome_iff_ne_none.2 (by simpa using refuseIf_ok hsource), hfit⟩
  · rintro ⟨hchats, hsource, hfit⟩
    have hsource : ¬(desk.sessions source).isNone = true := by
      simpa using Option.isSome_iff_ne_none.1 hsource
    rw [refuseIf_of_not hsource, (validateChatReferences_routes hne hshape).2 ⟨hchats, hfit⟩]
    rfl

end Routes

/-! ### The conversion -/

section Conversion
variable {desk : Desk} {board : Board} {source : String} {prompt : Text} {selections : List Selection}
  {s : Converting}

lemma map_eq_of_forall₂ {α β γ : Type} {R : α → β → Prop} {f : α → γ} {g : β → γ} {xs : List α}
    {ys : List β} (hR : ∀ x y, R x y → g y = f x) (h : List.Forall₂ R xs ys) : ys.map g = xs.map f := by
  induction h with
  | nil => rfl
  | cons hxy _ ih => rw [map_cons, map_cons, hR _ _ hxy, ih]

section
variable (h : ConvertInv board prompt selections s)
include h

lemma ConvertInv.targets :
    s.references.map ChatReference.target = selections.map fun x => strip (board.target x) :=
  map_eq_of_forall₂ (fun x r hr => by rw [ChatReference.target, hr.sessionId]) h.routes

lemma ConvertInv.replies :
    s.references.map ChatReference.asksReply =
      selections.map fun x => decide (x.action = .requestReply) := by
  refine map_eq_of_forall₂ (fun x r hr => ?_) h.routes
  rw [ChatReference.asksReply, hr.action, hr.routeAction]
  simp

lemma ConvertInv.shapes : ∀ r ∈ s.references, RouteShape prompt r := by
  intro r hr
  obtain ⟨i, hi, rfl⟩ := getElem_of_mem hr
  have hroute := h.routes.get (by rw [h.routes.length_eq]; exact hi) hi
  exact ⟨hroute.action, hroute.grantIntent, hroute.here, h.mentions _ hr⟩

lemma ConvertInv.references_ne (hne : selections ≠ []) : s.references ≠ [] := by
  intro hnil
  have hlen := h.routes.length_eq
  rw [hnil] at hlen
  exact hne (length_eq_zero_iff.1 hlen)

lemma ConvertInv.apart_iff :
    (s.references.map ChatReference.span).Pairwise Apart ↔ Untangled board prompt selections := by
  rw [Untangled, ← h.places, h.spans, pairwise_map]
  simp

end

lemma checkReplyTarget_iff {session : Session} (hsession : desk.sessions source = some session) :
    checkReplyTarget desk source references [handoffsV2Capability] = .ok () ↔
      (true ∈ references.map ChatReference.asksReply → session.deliverable = .ok ()) := by
  have hany : references.any ChatReference.asksReply = true ↔ true ∈ references.map ChatReference.asksReply := by
    simp
  unfold checkReplyTarget
  split
  · rename_i hnone
    have hno : ¬true ∈ references.map ChatReference.asksReply := by
      rw [← hany, hnone]
      simp
    exact ⟨fun _ hmem => absurd hmem hno, fun _ => rfl⟩
  · rename_i hsome
    have hyes : true ∈ references.map ChatReference.asksReply := hany.1 (by simpa using hsome)
    rw [refuseIf_of_not (not_not.2 (mem_singleton_self _)), hsession]
    exact ⟨fun h _ => h, fun h => h hyes⟩

/-- FIT: what the validator asks of the built references, in terms of the selected routes. -/
theorem ConvertInv.fit_iff (h : ConvertInv board prompt selections s)
    (hknown : ∀ x ∈ selections, (desk.sessions (board.target x)).isSome = true) :
    ((desk.sessions source).isSome = true ∧ RoutesFit desk source s.references) ↔
      (Deliverable desk board source selections ∧ Untangled board prompt selections) := by
  have htakes : (∀ r ∈ s.references, checkTarget desk source r.target = .ok ()) ↔
      ∀ x ∈ selections, checkTarget desk source (strip (board.target x)) = .ok () := by
    have hall : ∀ P : String → Prop, (∀ r ∈ s.references, P r.target) ↔
        ∀ x ∈ selections, P (strip (board.target x)) := by
      intro P
      rw [← forall_mem_map, h.targets, forall_mem_map]
    exact hall fun t => checkTarget desk source t = .ok ()
  have hreply : ∀ session, desk.sessions source = some session →
      (checkReplyTarget desk source s.references [handoffsV2Capability] = .ok () ↔
        ((∃ x ∈ selections, x.action = .requestReply) → session.deliverable = .ok ())) := by
    intro session hsession
    rw [checkReplyTarget_iff hsession, h.replies]
    simp
  constructor
  · rintro ⟨hsource, hfit⟩
    refine ⟨⟨hfit.authenticated, hsource, fun hasked session hsession => ?_, hknown, htakes.1 hfit.takes,
      h.targets ▸ hfit.once⟩, h.apart_iff.1 hfit.apart⟩
    exact (hreply session hsession).1 hfit.reply hasked
  · rintro ⟨hdeliverable, huntangled⟩
    obtain ⟨session, hsession⟩ := Option.isSome_iff_exists.1 hdeliverable.asker
    refine ⟨hdeliverable.asker, hdeliverable.authenticated, ?_, htakes.2 hdeliverable.takes,
      h.targets ▸ hdeliverable.apart, h.apart_iff.2 huntangled⟩
    exact (hreply session hsession).2 fun hasked => hdeliverable.reply hasked session hsession

lemma providerJobChatReferences_ok (hne : selections ≠ [])
    (h : providerJobChatReferences desk board source prompt selections = .ok references) :
    Deliverable desk board source selections ∧ Untangled board prompt selections ∧
      ∀ redact, validateScheduledJobChatReferences desk source prompt references redact = .ok references := by
  rw [providerJobChatReferences, if_neg hne] at h
  obtain ⟨s, hs, h⟩ := bind_ok h
  obtain ⟨hinv, hknown⟩ := convertAll_ok ConvertInv.start hs
  have hrefs := hinv.references_ne hne
  obtain ⟨rfl, hfit⟩ := (validateScheduled_routes hrefs hinv.shapes).1 h
  obtain ⟨hdeliverable, huntangled⟩ := (hinv.fit_iff hknown).1 hfit
  exact ⟨hdeliverable, huntangled, fun _ => (validateScheduled_routes hrefs hinv.shapes).2 ⟨rfl, hfit⟩⟩

lemma providerJobChatReferences_of (hsel : Selectable board selections) (hne : selections ≠ [])
    (hassignable : Assignable board prompt selections) (hdeliverable : Deliverable desk board source selections)
    (huntangled : Untangled board prompt selections) :
    ∃ references, providerJobChatReferences desk board source prompt selections = .ok references := by
  obtain ⟨s, hs⟩ := convertAll_of hsel hdeliverable.known (count_le_occurrences hassignable)
    (nil_append selections) ConvertInv.start
  have hinv := (convertAll_ok ConvertInv.start hs).1
  have hfit := (hinv.fit_iff hdeliverable.known).2 ⟨hdeliverable, huntangled⟩
  refine ⟨s.references, ?_⟩
  rw [providerJobChatReferences, if_neg hne, hs]
  exact (validateScheduled_routes (hinv.references_ne hne) hinv.shapes).2 ⟨rfl, hfit⟩

end Conversion

/-- The conversion finds a place for every route, and the validator of jobs keeps its result, exactly
    if, whenever the prompt has room for the routes, their chats can exchange and the leftmost places do not
    overlap. -/
theorem routes_find_places_iff_untangled (desk : Desk) (board : Board) (source : String) (prompt : Text)
    (selections : List Selection) (redact : Bool) (hsel : Selectable board selections) :
    ((Assignable board prompt selections →
        ∃ references, providerJobChatReferences desk board source prompt selections = .ok references) ∧
      ∀ references, providerJobChatReferences desk board source prompt selections = .ok references →
        validateScheduledJobChatReferences desk source prompt references redact = .ok references) ↔
    (selections ≠ [] → Assignable board prompt selections →
      Deliverable desk board source selections ∧ Untangled board prompt selections) := by
  constructor
  · rintro ⟨hfinds, -⟩ hne hassignable
    obtain ⟨references, h⟩ := hfinds hassignable
    obtain ⟨hdeliverable, huntangled, -⟩ := providerJobChatReferences_ok hne h
    exact ⟨hdeliverable, huntangled⟩
  · intro hcond
    by_cases hne : selections = []
    · have hnil : providerJobChatReferences desk board source prompt selections = .ok [] := by
        rw [providerJobChatReferences, if_pos hne]
        rfl
      refine ⟨fun _ => ⟨[], hnil⟩, fun references h => ?_⟩
      obtain rfl := Except.ok.inj (hnil.symm.trans h)
      rfl
    · refine ⟨fun hassignable => ?_, fun references h => (providerJobChatReferences_ok hne h).2.2 redact⟩
      obtain ⟨hdeliverable, huntangled⟩ := hcond hne hassignable
      exact providerJobChatReferences_of hsel hne hassignable hdeliverable huntangled

/-- Two live routes, the title of one beginning the title of the other. -/
def sampleBoard : Board where
  issued := fun _ => true
  live := fun id => if id = "ann" then some ⟨[.instruction], "planner"⟩ else some ⟨[.instruction], "dev"⟩
  label := fun id => if id = "planner" then "Ann".toList else "Ann Lee".toList

def sampleSelections : List Selection := [⟨"ann", .instruction⟩, ⟨"ann-lee", .instruction⟩]

lemma sampleSelections_selectable : Selectable sampleBoard sampleSelections where
  distinct := by decide
  issued := fun _ _ => rfl
  live := by
    intro x hx
    rcases mem_pair.1 hx with rfl | rfl
    · exact ⟨⟨[.instruction], "planner"⟩, rfl, mem_singleton_self _⟩
    · exact ⟨⟨[.instruction], "dev"⟩, rfl, mem_singleton_self _⟩
  identified := by decide
  titled := by decide

lemma sampleSelections_deliverable : Deliverable sampleDesk sampleBoard "source" sampleSelections where
  authenticated := rfl
  asker := rfl
  reply := fun hasked => absurd hasked (by decide)
  known := by decide
  takes := by
    intro x hx
    rcases mem_pair.1 hx with rfl | rfl <;> rfl
  apart := by decide

theorem routes_find_places_sample : ∃ references,
    providerJobChatReferences sampleDesk sampleBoard "source" "@Ann and @Ann Lee".toList sampleSelections =
      .ok references ∧
    validateScheduledJobChatReferences sampleDesk "source" "@Ann and @Ann Lee".toList references true =
      .ok references := by
  have hassignable : Assignable sampleBoard "@Ann and @Ann Lee".toList sampleSelections := by
    refine ⟨[(0, 4), (9, 17)], .cons ⟨[], " and @Ann Lee".toList, ?_⟩ (.cons ⟨"@Ann and ".toList, [], ?_⟩ .nil),
      by simp [Apart]⟩
    · exact ⟨by decide, by decide, by decide, by decide⟩
    · exact ⟨by decide, by decide, by decide, by decide⟩
  have huntangled : Untangled sampleBoard "@Ann and @Ann Lee".toList sampleSelections := by
    have hplaces : leftmost "@Ann and @Ann Lee".toList [] (sampleSelections.map sampleBoard.title) =
        [some (0, 4), some (9, 17)] := by decide
    rw [Untangled, hplaces]
    simp [Apart]
  obtain ⟨hfinds, haccepted⟩ := (routes_find_places_iff_untangled sampleDesk sampleBoard "source"
    "@Ann and @Ann Lee".toList sampleSelections true sampleSelections_selectable).2
      fun _ _ => ⟨sampleSelections_deliverable, huntangled⟩
  obtain ⟨references, h⟩ := hfinds hassignable
  exact ⟨references, h, haccepted references h⟩

/-- A prompt with room for both routes, to chats that can exchange, is refused: the first route takes the
    beginning of the mention of the second. -/
theorem nested_title_refused :
    Selectable sampleBoard sampleSelections ∧
    Assignable sampleBoard "@Ann Lee and @Ann".toList sampleSelections ∧
    Deliverable sampleDesk sampleBoard "source" sampleSelections ∧
    providerJobChatReferences sampleDesk sampleBoard "source" "@Ann Lee and @Ann".toList sampleSelections =
      .error ⟨400, "saved chat target configuration is invalid"⟩ := by
  refine ⟨sampleSelections_selectable, ⟨[(13, 17), (0, 8)], .cons ⟨"@Ann Lee and ".toList, [], ?_⟩
    (.cons ⟨[], " and @Ann".toList, ?_⟩ .nil), by simp [Apart]⟩, sampleSelections_deliverable, ?_⟩
  · exact ⟨by decide, by decide, by decide, by decide⟩
  · exact ⟨by decide, by decide, by decide, by decide⟩
  · rfl

end Mentions
