import ZenithBot.Mentions.Validation

/-! Turning the live routes of a provider into mentions of a scheduled job
    (`provider_job_chat_references`). For each selected route in turn the first delimited occurrence of
    `@Title` that no earlier route has taken becomes its span. Two routes can share a title, and one title
    can begin another:

        prompt          @Ann @Ann Lee
        route to Ann    ╰──╯
        another Ann          ╰──╯
        Ann Lee              ╰──────╯        taken is only the exact range

    `occurrences` is the list of places the search can offer for a marker, from left to right. -/

namespace Mentions
open Lib Py List

/-! ### Jobs -/

/-- `sub in text`. -/
def includes (sub text : String) : Bool := text.toList.tails.any fun t => sub.toList.isPrefixOf t

/-- `provider_safe_scheduled_chat_reference_detail`. -/
def providerSafeDetail (desk : Desk) (e : HttpError) : String :=
  let detail := desk.casefold e.detail
  if includes "archived" detail then "saved chat target is archived"
  else if e.statusCode = 404 ∨ includes "not found" detail then "saved chat target is unavailable"
  else if includes "backend" detail ∨ includes "transport" detail then
    "saved chat target does not support scheduled delivery"
  else "saved chat target configuration is invalid"

/-- The error of a stored job that has to be repaired. -/
def repairRequired (desk : Desk) (redactTargetDetail : Bool) (e : HttpError) : HttpError :=
  if e.statusCode = 503 then e
  else if redactTargetDetail then { e with detail := providerSafeDetail desk e } else e

def validateScheduledJobChatReferences (desk : Desk) (source : String) (prompt : Text)
    (references : List ChatReference) (redactTargetDetail : Bool) :
    Except HttpError (List ChatReference) := do
  if references = [] then return []
  else
    refuseIf (∃ r ∈ references, r.peer ≠ none)
      ⟨400, "scheduled jobs support same-server chat references only"⟩
    refuseIf ((desk.sessions source).isNone = true) ⟨404, "source chat was not found"⟩
    (validateChatReferences desk source prompt references [handoffsV2Capability]).mapError
      (repairRequired desk redactTargetDetail)

/-- `live_provider_cross_chat_route`, as far as it is read here. -/
structure LiveRoute where
  actions : List RouteAction
  targetSessionId : String

/-- `AgentJobChatRouteSelection`. -/
structure Selection where
  routeId : String
  action : RouteAction

/-- The routes issued to the live turn and what has become of them. -/
structure Board where
  issued : String → Bool
  live : String → Option LiveRoute
  /-- `sanitized_provider_route_label` of a chat's title -/
  label : String → Text

/-! ### The search -/

/-- `prompt.find(marker, searchFrom)`. -/
def findFrom (prompt marker : Text) (searchFrom : ℕ) : Option ℕ :=
  (List.range (prompt.length + 1)).find? fun i => searchFrom ≤ i && marker.isPrefixOf (prompt.drop i)

/-- The characters around the occurrence at `start` delimit it. -/
def delimitedAt (prompt marker : Text) (start : ℕ) : Bool :=
  delimited (prompt.take start).getLast? (prompt.drop (start + marker.length)).head?

/-- The range of the occurrence at `start`, in UTF-16 units. -/
def spanAt (prompt marker : Text) (start : ℕ) : Span :=
  (Utf16.length (prompt.take start), Utf16.length (prompt.take (start + marker.length)))

/-- The search of one route; `searchFrom` grows in every round, so `prompt.length + 1` rounds are
    enough. -/
def search (prompt marker : Text) (occupied : List Span) : ℕ → ℕ → Option Span
  | 0, _ => none
  | fuel + 1, searchFrom => match findFrom prompt marker searchFrom with
    | none => none
    | some start =>
      if delimitedAt prompt marker start = false then search prompt marker occupied fuel (start + 1)
      else if spanAt prompt marker start ∉ occupied then some (spanAt prompt marker start)
      else search prompt marker occupied fuel (start + marker.length)

/-- `ChatReference(...)` of a job's route; pydantic refuses a title that no reference can have. -/
def routeReference (target : String) (title : Text) (span : Span) (action : RouteAction) :
    Except HttpError ChatReference :=
  if h : ((1 ≤ target.length ∧ target.length ≤ 128) ∧ (1 ≤ title.length ∧ title.length ≤ 240) ∧
      1 ≤ span.2) ∧ title.head? ≠ some '@' then
    .ok ⟨target, title, span.1, span.2, .route, some action, false, none, h.1, h.2, ⟨fun _ => rfl, nofun⟩⟩
  else .error ⟨500, "invalid chat reference"⟩

/-- The loop's state. -/
structure Converting where
  seenRoutes : List String
  occupied : List Span
  references : List ChatReference

def convert (desk : Desk) (board : Board) (prompt : Text) (s : Converting) (x : Selection) :
    Except HttpError Converting := do
  refuseIf (x.routeId ∈ s.seenRoutes) ⟨400, "a scheduled job chat route may be selected only once"⟩
  refuseIf (board.issued x.routeId = false)
    ⟨403, "scheduled job chat route was not granted to this live turn"⟩
  let live ← getOr (board.live x.routeId) ⟨409, "scheduled job chat route is no longer available"⟩
  refuseIf (x.action ∉ live.actions) ⟨403, "scheduled job chat action was not granted to this live turn"⟩
  refuseIf ((desk.sessions live.targetSessionId).isNone = true)
    ⟨409, "scheduled job chat target is no longer available"⟩
  let title := board.label live.targetSessionId
  let span ← getOr (search prompt ('@' :: title) s.occupied (prompt.length + 1) 0) ⟨400,
    "scheduled job prompt must include the exact chat mention " ++
      desk.quoted (String.ofList ('@' :: title)) ++ " for route " ++ x.routeId⟩
  let reference ← routeReference live.targetSessionId title span x.action
  return ⟨s.seenRoutes ++ [x.routeId], s.occupied ++ [span], s.references ++ [reference]⟩

def providerJobChatReferences (desk : Desk) (board : Board) (source : String) (prompt : Text)
    (selections : List Selection) : Except HttpError (List ChatReference) := do
  if selections = [] then return []
  else
    let s ← selections.foldlM (convert desk board prompt) ⟨[], [], []⟩
    validateScheduledJobChatReferences desk source prompt s.references true

/-! ### Occurrences -/

/-- The places the search can offer, from left to right, none beginning inside another. -/
def occurrencesFrom (prompt marker : Text) : ℕ → ℕ → List ℕ
  | 0, _ => []
  | fuel + 1, searchFrom => match findFrom prompt marker searchFrom with
    | none => []
    | some start =>
      if delimitedAt prompt marker start = false then occurrencesFrom prompt marker fuel (start + 1)
      else start :: occurrencesFrom prompt marker fuel (start + marker.length)

/-- The ranges of those places, for the mention of a title. -/
def occurrences (prompt title : Text) : List Span :=
  (occurrencesFrom prompt ('@' :: title) (prompt.length + 1) 0).map (spanAt prompt ('@' :: title))

structure OccursAt (prompt marker : Text) (start : ℕ) : Prop where
  here : marker <+: prompt.drop start
  delimited : delimitedAt prompt marker start = true

section Search
variable {prompt marker : Text}
variable {p : ℕ} {span : Span}

/-- The search takes the first place it is offered that is free. -/
lemma search_eq (occupied : List Span) : ∀ fuel searchFrom : ℕ,
    search prompt marker occupied fuel searchFrom =
      ((occurrencesFrom prompt marker fuel searchFrom).map (spanAt prompt marker)).find? (· ∉ occupied)
  | 0, _ => rfl
  | fuel + 1, searchFrom => by
    rw [search, occurrencesFrom]
    cases findFrom prompt marker searchFrom with
    | none => rfl
    | some start =>
      dsimp only
      split
      · exact search_eq occupied fuel (start + 1)
      · split
        · rename_i hfree
          simp [hfree]
        · rename_i htaken
          rw [search_eq occupied fuel (start + marker.length)]
          simp [htaken]

/-- The first place at or after `searchFrom` where the marker stands. -/
lemma findFrom_some {searchFrom start : ℕ} (h : findFrom prompt marker searchFrom = some start) :
    searchFrom ≤ start ∧ marker <+: prompt.drop start ∧
      ∀ i, searchFrom ≤ i → marker <+: prompt.drop i → start ≤ i := by
  obtain ⟨hp, -, hleast⟩ := find?_range_eq_some.1 h
  have hp : searchFrom ≤ start ∧ marker <+: prompt.drop start := by simpa using hp
  refine ⟨hp.1, hp.2, fun i hi hstands => not_lt.1 fun hlt => ?_⟩
  have hbool : marker.isPrefixOf (prompt.drop i) = true := by simpa using hstands
  have hnot := hleast i hlt
  simp [hi, hbool] at hnot

lemma findFrom_none {searchFrom : ℕ} (hne : marker ≠ []) (h : findFrom prompt marker searchFrom = none) :
    ∀ i, searchFrom ≤ i → ¬marker <+: prompt.drop i := by
  intro i hi hstands
  have hlt : i < prompt.length := by
    by_contra hge
    rw [drop_of_length_le (not_lt.1 hge), prefix_nil] at hstands
    exact hne hstands
  have hbool : marker.isPrefixOf (prompt.drop i) = true := by simpa using hstands
  have hnot := find?_eq_none.1 h i (mem_range.2 (by omega))
  simp [hi, hbool] at hnot

/-- What is offered are delimited occurrences. -/
lemma occursAt_of_mem : ∀ {fuel searchFrom p : ℕ}, p ∈ occurrencesFrom prompt marker fuel searchFrom →
    searchFrom ≤ p ∧ OccursAt prompt marker p
  | fuel + 1, searchFrom, p, h => by
    rw [occurrencesFrom] at h
    cases hfind : findFrom prompt marker searchFrom with
    | none =>
      rw [hfind] at h
      cases h
    | some start =>
      obtain ⟨hle, hhere, -⟩ := findFrom_some hfind
      rw [hfind] at h
      dsimp only at h
      split at h
      · obtain ⟨hp, hoccurs⟩ := occursAt_of_mem h
        exact ⟨by omega, hoccurs⟩
      · rename_i hdelimited
        rcases mem_cons.1 h with rfl | h
        · exact ⟨hle, hhere, by simpa using hdelimited⟩
        · obtain ⟨hp, hoccurs⟩ := occursAt_of_mem h
          exact ⟨by omega, hoccurs⟩

/-- None of them begins inside another. -/
lemma occurrencesFrom_spaced : ∀ fuel searchFrom : ℕ,
    (occurrencesFrom prompt marker fuel searchFrom).Pairwise fun p q => p + marker.length ≤ q
  | 0, _ => .nil
  | fuel + 1, searchFrom => by
    rw [occurrencesFrom]
    cases findFrom prompt marker searchFrom with
    | none => exact .nil
    | some start =>
      dsimp only
      split
      · exact occurrencesFrom_spaced fuel (start + 1)
      · exact pairwise_cons.2 ⟨fun q hq => (occursAt_of_mem hq).1, occurrencesFrom_spaced fuel _⟩

/-- LONGEST: no row of spaced occurrences is longer than the one that is offered. -/
theorem occurrencesFrom_longest (hne : marker ≠ []) : ∀ {fuel searchFrom : ℕ} {ps : List ℕ},
    prompt.length < searchFrom + fuel → (∀ p ∈ ps, searchFrom ≤ p ∧ OccursAt prompt marker p) →
    (ps.Pairwise fun p q => p + marker.length ≤ q) →
    ps.length ≤ (occurrencesFrom prompt marker fuel searchFrom).length
  | _, _, [], _, _, _ => Nat.zero_le _
  | 0, searchFrom, p :: ps, hfuel, hoccurs, _ => by
    obtain ⟨hp, hhere, -⟩ := hoccurs p mem_cons_self
    rw [drop_of_length_le (by omega), prefix_nil] at hhere
    exact absurd hhere hne
  | fuel + 1, searchFrom, p :: ps, hfuel, hoccurs, hspaced => by
    have hpos := length_pos_iff.2 hne
    rw [occurrencesFrom]
    cases hfind : findFrom prompt marker searchFrom with
    | none =>
      obtain ⟨hp, hhere⟩ := hoccurs p mem_cons_self
      exact absurd hhere.here (findFrom_none hne hfind p hp)
    | some start =>
      obtain ⟨hle, -, hleast⟩ := findFrom_some hfind
      have hstart : ∀ q ∈ p :: ps, start ≤ q := fun q hq =>
        hleast q (hoccurs q hq).1 (hoccurs q hq).2.here
      dsimp only
      split
      · rename_i hundelimited
        -- the place is not delimited, so it is none of the row
        refine occurrencesFrom_longest hne (by omega) (fun q hq => ⟨?_, (hoccurs q hq).2⟩) hspaced
        have hne' : start ≠ q := by
          rintro rfl
          rw [(hoccurs start hq).2.delimited] at hundelimited
          cases hundelimited
        have hq := hstart q hq
        omega
      · obtain ⟨hhead, htail⟩ := pairwise_cons.1 hspaced
        have hp := hstart p mem_cons_self
        have hrest : ps.length ≤ (occurrencesFrom prompt marker fuel (start + marker.length)).length := by
          refine occurrencesFrom_longest hne (by omega) (fun q hq => ⟨?_, ?_⟩) htail
          · have hq := hhead q hq
            omega
          · exact (hoccurs q (mem_cons_of_mem _ hq)).2
        rw [length_cons, length_cons]
        omega

/-! ### Occurrences and mentions -/

lemma OccursAt.split (h : OccursAt prompt marker p) :
    prompt = prompt.take p ++ marker ++ prompt.drop (p + marker.length) ∧
      prompt.take (p + marker.length) = prompt.take p ++ marker := by
  obtain ⟨rest, hrest⟩ := h.here
  have htake : prompt.take (p + marker.length) = prompt.take p ++ marker := by
    rw [take_add, ← hrest, take_left]
  refine ⟨?_, htake⟩
  rw [← htake, take_append_drop]

lemma OccursAt.mention (h : OccursAt prompt marker p) :
    Mention prompt (spanAt prompt marker p) marker := by
  obtain ⟨hsplit, htake⟩ := h.split
  exact ⟨prompt.take p, prompt.drop (p + marker.length), hsplit, rfl, by rw [spanAt, htake], h.delimited⟩

lemma Mention.occursAt (h : Mention prompt span marker) :
    ∃ p, OccursAt prompt marker p ∧ spanAt prompt marker p = span := by
  obtain ⟨before, after, rfl, hstart, hstop, hdelimited⟩ := h
  have htake : (before ++ marker ++ after).take before.length = before := by
    rw [append_assoc, take_left]
  have htake' : (before ++ marker ++ after).take (before.length + marker.length) = before ++ marker := by
    rw [← length_append, take_left]
  have hdrop : (before ++ marker ++ after).drop (before.length + marker.length) = after := by
    rw [← length_append, drop_left]
  refine ⟨before.length, ⟨?_, ?_⟩, ?_⟩
  · rw [append_assoc, drop_left]
    exact prefix_append _ _
  · rw [delimitedAt, htake, hdrop]
    exact hdelimited
  · rw [spanAt, htake, htake', hstart, hstop]

lemma Mention.marker_unique {marker' : Text} (h : Mention prompt span marker)
    (h' : Mention prompt span marker') : marker = marker' :=
  Option.some.inj (h.slices.2.1.symm.trans h'.slices.2.1)

/-- Places in UTF-16 units are in the order of the places. -/
lemma le_of_length_take {q : ℕ} (hp : p ≤ prompt.length)
    (h : Utf16.length (prompt.take p) ≤ Utf16.length (prompt.take q)) : p ≤ q := by
  by_contra hlt
  have hlt := not_le.1 hlt
  have hsplit : prompt.take p = prompt.take q ++ (prompt.drop q).take (p - q) := by
    rw [← take_add, Nat.add_sub_cancel' hlt.le]
  have hmore : (prompt.drop q).take (p - q) ≠ [] := by
    rw [← length_pos_iff, length_take, length_drop]
    omega
  have hpos := Utf16.length_pos hmore
  rw [hsplit, Utf16.length_append] at h
  omega

lemma OccursAt.bound (h : OccursAt prompt marker p) (hne : marker ≠ []) :
    p + marker.length ≤ prompt.length := by
  have hlen := h.here.length_le
  have hpos := length_pos_iff.2 hne
  rw [length_drop] at hlen
  omega

end Search

end Mentions
