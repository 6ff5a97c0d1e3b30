import ZenithBot.EventLog.Catchup
import ZenithBot.EventLog.Sequence

/-! Catching up delivers every event once and in order, whatever happens to the log meanwhile.

    A page starts where no event before it is above the cursor: where the last page stopped, if the file
    is the same, or where the index points and a second look at the line confirmed it
    (`startOffset_spec`). That look cannot be deceived: at an offset that is not the start of a line, no
    number is read (`confirms_spec`). From there the page goes through the events in order
    (`scan_spec`); files only grow, and one that was replaced never comes back (`Timeline.events_mono`,
    `Timeline.current_between`). The loop keeps these facts (`Progress`) and gets on with every second
    page at the latest. -/

namespace EventLog
open Json List

variable {id : FileId} {after t through : Nat} {e : Event} {T : Timeline} {d : Disk}
  {shown : Json → Bool} {events : List Event} {look : Look} {d' : Disk}

/-! ### Files only grow -/

def Disk.ids (d : Disk) : List FileId := (d.current :: d.old).map Gen.id

lemma Disk.current_mem (d : Disk) : d.current.id ∈ d.ids := mem_cons_self

lemma Disk.events_increasing (d : Disk) (id : FileId) :
    ((d.events id).map Event.seq).Pairwise (· < ·) := by
  unfold Disk.events
  cases d.gen? id with
  | none => exact List.Pairwise.nil
  | some g => exact g.increasing

/-- What comes behind in a file is later. -/
lemma Disk.events_split {front rest : List Event} (h : d.events id = front ++ rest) :
    (rest.map Event.seq).Pairwise (· < ·) ∧ ∀ f ∈ front, ∀ e ∈ rest, f.seq < e.seq := by
  have hall := d.events_increasing id
  rw [h, map_append, pairwise_append] at hall
  exact ⟨hall.2.1, fun f hf e he => hall.2.2 _ (mem_map_of_mem hf) _ (mem_map_of_mem he)⟩

lemma Disk.mem_ids (h : e ∈ d.events id) : id ∈ d.ids := by
  unfold Disk.events at h
  cases hfind : d.gen? id with
  | none =>
    rw [hfind] at h
    cases h
  | some g =>
    have hid : g.id = id := by simpa using find?_some hfind
    exact hid ▸ mem_map_of_mem (mem_of_find?_eq_some hfind)

/-- STEP: a file keeps its events, and gets more only at its end. -/
theorem Disk.Next.grow (h : d.Next d') (hid : id ∈ d.ids) :
    d.events id <+: d'.events id ∧ id ∈ d'.ids := by
  cases h with
  | stay => exact ⟨prefix_rfl, hid⟩
  | append _ more hsame hevents _ hold =>
    refine ⟨?_, by simpa [Disk.ids, hsame, hold] using hid⟩
    by_cases hcur : d.current.id = id
    · simp [Disk.events, Disk.gen?, hsame, hcur, hevents]
    · simp [Disk.events, Disk.gen?, hsame, hcur, hold]
  | replace _ hsub hold =>
    have hids : d'.ids = d'.current.id :: d.ids := by simp [Disk.ids, hold]
    have hne : d'.current.id ≠ id := by
      rintro rfl
      have hdistinct : d'.ids.Nodup := d'.distinct
      rw [hids] at hdistinct
      exact (nodup_cons.1 hdistinct).1 hid
    refine ⟨?_, hids ▸ mem_cons_of_mem _ hid⟩
    have heq : d'.events id = d.events id := by simp [Disk.events, Disk.gen?, hold, hne]
    exact heq ▸ prefix_rfl

/-- STEP: a file that was replaced stays so. -/
theorem Disk.Next.old (h : d.Next d') (hid : id ∈ d.old.map Gen.id) : id ∈ d'.old.map Gen.id := by
  cases h with
  | stay => exact hid
  | append _ _ _ _ _ hold => rwa [hold]
  | replace _ _ hold =>
    rw [hold]
    exact mem_cons_of_mem _ hid

namespace Timeline
variable (T : Timeline)
variable {s : Nat}

lemma events_mono (h : s ≤ t) (hid : id ∈ (T.disk s).ids) :
    (T.disk s).events id <+: (T.disk t).events id ∧ id ∈ (T.disk t).ids := by
  induction t, h using Nat.le_induction with
  | base => exact ⟨prefix_rfl, hid⟩
  | succ t _ ih =>
    have hnext := (T.next t).grow ih.2
    exact ⟨ih.1.trans hnext.1, hnext.2⟩

/-- Sooner or later the event is in the file that was at the path at instant `s`. -/
def Holds (s : Nat) (e : Event) : Prop := ∃ t, e ∈ (T.disk t).events (T.disk s).current.id

/-- At any instant such an event is in the file, or it will come behind everything that is. -/
lemma Holds.split {T : Timeline} (h : T.Holds s e) (hst : s ≤ t) :
    e ∈ (T.disk t).events (T.disk s).current.id ∨
      ∀ f ∈ (T.disk t).events (T.disk s).current.id, f.seq < e.seq := by
  obtain ⟨t', he⟩ := h
  have hid := (T.events_mono hst (T.disk s).current_mem).2
  rcases Nat.le_total t' t with hle | hge
  · exact .inl ((T.events_mono hle (Disk.mem_ids he)).1.subset he)
  · obtain ⟨more, hmore⟩ := (T.events_mono hge hid).1
    rw [← hmore] at he
    rcases mem_append.1 he with hin | hnew
    · exact .inl hin
    · exact .inr fun f hf => (Disk.events_split hmore.symm).2 f hf e hnew

end Timeline

/-! ### Lines of the log -/

/-- The events a page takes from those it goes through. -/
def taken (shown : Json → Bool) (after : Nat) (events : List Event) : List Event :=
  events.filter fun e => after < e.seq && shown e.json

/-- The loop over `rest` went through `mid` and stopped before `back`, which is all above the number it
    got to. -/
structure Scanned (shown : Json → Bool) (limit after through : Nat) (front rest : List Event) (s s' : Scan)
    (mid back : List Event) : Prop where
  parts : rest = mid ++ back
  place : s'.nextOffset = (fileOf (front ++ mid)).length
  out : s'.out = s.out ++ (taken shown after mid).map Event.json
  above : s.highest ≤ s'.highest
  within : s'.highest ≤ through
  passed : ∀ e ∈ mid, e.seq ≤ s'.highest
  behind : ∀ e ∈ back, s'.highest < e.seq
  stopped : back = [] ∨ after < s'.highest
  backed : s'.highest = s.highest ∨ ∃ e ∈ rest, s'.highest ≤ e.seq
  reached : s'.out.length < limit → ∀ e ∈ rest, through ≤ e.seq → s'.highest = through

/-- The state of the loop behind the line of `e`. -/
def Scan.past (s : Scan) (e : Event) (highest : Nat) (out : List Json) : Scan :=
  ⟨s.nextOffset + (e.line.length + 1), highest, out⟩

/-- Going on behind the line of `e`. -/
lemma Scanned.cons {limit : Nat} {front rest : List Event} {s s' : Scan}
    {mid back : List Event} {highest : Nat} {out : List Json}
    (h : Scanned shown limit after through (front ++ [e]) rest (s.past e highest out) s' mid back)
    (hout : out = s.out ++ (taken shown after [e]).map Event.json) (habove : s.highest ≤ highest)
    (hpassed : e.seq ≤ highest) (hbacked : highest = s.highest ∨ highest = e.seq) :
    Scanned shown limit after through front (e :: rest) s s' (e :: mid) back where
  parts := by rw [h.parts, cons_append]
  place := by rw [h.place, append_assoc, singleton_append]
  out := by
    have htaken : taken shown after (e :: mid) = taken shown after [e] ++ taken shown after mid :=
      filter_append [e] mid
    rw [h.out, htaken, map_append, ← append_assoc, ← hout]
    rfl
  above := habove.trans h.above
  within := h.within
  passed := by
    rw [forall_mem_cons]
    exact ⟨hpassed.trans h.above, h.passed⟩
  behind := h.behind
  stopped := h.stopped
  backed := by
    rcases h.backed with heq | ⟨f, hf, hle⟩
    · rcases hbacked with hsame | hseq
      · exact .inl (heq.trans hsame)
      · exact .inr ⟨e, mem_cons_self, (heq.trans hseq).le⟩
    · exact .inr ⟨f, mem_cons_of_mem _ hf, hle⟩
  reached := fun hlen => by
    rw [forall_mem_cons]
    exact ⟨fun hthrough => le_antisymm h.within (hthrough.trans (hpassed.trans h.above)), h.reached hlen⟩

/-- The instants of a page come in the order of its calls. -/
structure Look.InOrder (look : Look) : Prop where
  measured : look.opened ≤ look.measured
  sized : look.measured ≤ look.index.sized
  listed : look.index.sized ≤ look.index.listed
  first : look.index.listed ≤ look.index.first
  rebuilt : look.index.listed ≤ look.index.rebuilt ∧ look.index.rebuilt ≤ look.index.second
  second : look.index.first ≤ look.index.second
  checked : look.index.second ≤ look.checked
  read : look.checked ≤ look.read
  finished : look.read ≤ look.finished
  ended : look.finished ≤ look.ended

/-- Where the page reads the file it has opened, no line is half written. -/
def Look.Whole (T : Timeline) (look : Look) : Prop :=
  ∀ t ∈ [look.index.first, look.index.second, look.read],
    (T.disk t).torn (T.disk look.opened).current.id = []

/-- The events of the file a page reads, when it has read it. -/
def Timeline.readBy (T : Timeline) (look : Look) : List Event :=
  (T.disk look.read).events (T.disk look.opened).current.id

/-- At instant `t`, an offset that is a place in a file before which nothing is above `after`. -/
def Timeline.Cleared (T : Timeline) (t after offset : Nat) (id : FileId) : Prop :=
  id ∈ (T.disk t).ids ∧ ∃ front rest, (T.disk t).events id = front ++ rest ∧
    offset = (fileOf front).length ∧ ∀ e ∈ front, e.seq ≤ after

lemma Timeline.Cleared.mono {t' offset : Nat} (h : T.Cleared t after offset id) (hle : t ≤ t') :
    T.Cleared t' after offset id := by
  obtain ⟨hid, front, rest, hevents, hoffset, hfront⟩ := h
  obtain ⟨⟨more, hmore⟩, hid'⟩ := T.events_mono hle hid
  exact ⟨hid', front, rest ++ more, by rw [← hmore, hevents, append_assoc], hoffset, hfront⟩

/-- A continuation that may be used from instant `t` on. -/
def Timeline.Resumable (T : Timeline) (t after : Nat) (c : Continuation) : Prop :=
  c.offset = 0 ∨ T.Cleared t after c.offset c.file

section Start
variable {T : Timeline} {look : Look} (hlook : look.InOrder) {previous : Option Continuation}
include hlook

end Start

/-- A page went through all events: it is not full, or ends with the last of them. -/
def ReadToEnd (limit : Nat) (page : List Json) (events : List Event) : Prop :=
  page.length < limit ∨ page.getLast? = events.getLast?.map Event.json

/-- What one page does from cursor `after` on. -/
structure PageOk (T : Timeline) (look : Look) (shown : Json → Bool) (limit after through : Nat)
    (page : List Event) (c : Continuation) : Prop where
  increasing : (page.map Event.seq).Pairwise (· < ·)
  between : ∀ e ∈ page, after < e.seq ∧ e.seq ≤ c.scanned
  forward : after ≤ c.scanned
  within : c.scanned ≤ through
  complete : ∀ e, T.Holds look.opened e → after < e.seq → e.seq ≤ c.scanned → shown e.json → e ∈ page
  resumable : T.Resumable look.ended c.scanned c
  stalled : look.present → c.scanned = after → ∀ e ∈ T.readBy look, e.seq ≤ after
  reached : look.present → ReadToEnd limit (page.map Event.json) (T.readBy look) →
    ∀ e ∈ T.readBy look, through ≤ e.seq → c.scanned = through

/-- The instants of all pages: one page after the other. -/
structure Schedule where
  looks : Nat → Look
  inOrder : ∀ n, (looks n).InOrder
  sequential : ∀ n, (looks n).ended ≤ (looks (n + 1)).opened

/-- The first `n` pages all read files that hold the event, and show it. -/
def Offered (T : Timeline) (S : Schedule) (shown : Nat → Json → Bool) (n : Nat) (e : Event) : Prop :=
  ∀ i < n, T.Holds (S.looks i).opened e ∧ shown i e.json

/-- Where the loop stands before its page `n`. -/
structure Progress (T : Timeline) (S : Schedule) (shown : Nat → Json → Bool) (start through : Nat)
    (n cursor : Nat) (offset : Option Continuation) (pages : List (List Json)) (events : List Event) :
    Prop where
  count : pages.length = n
  started : 0 < n → start < through
  fresh : n = 0 → cursor = start
  sent : pages.flatten = events.map Event.json
  increasing : (events.map Event.seq).Pairwise (· < ·)
  forward : start ≤ cursor
  between : ∀ e ∈ events, start < e.seq ∧ e.seq ≤ cursor ∧ e.seq ≤ through
  complete : ∀ e, Offered T S shown n e → start < e.seq → e.seq ≤ cursor → e ∈ events
  resumable : ∀ c, offset = some c → ∃ t ≤ (S.looks n).opened, T.Resumable t cursor c

/-- No page that read its file to the end has seen the boundary. -/
def Unreached (T : Timeline) (S : Schedule) (limit through : Nat) (pages : List (List Json)) : Prop :=
  ∀ i page, pages[i]? = some page → (S.looks i).present → ReadToEnd limit page (T.readBy (S.looks i)) →
    ∀ e ∈ T.readBy (S.looks i), e.seq < through

section Loop
variable {T : Timeline} {S : Schedule} {shown : Nat → Json → Bool} {limit start through : Nat}
  {n cursor : Nat} {offset : Option Continuation} {pages : List (List Json)} {events : List Event}
  {c : Continuation}

/-- STEP: a page more. -/
theorem Progress.page (h : Progress T S shown start through n cursor offset pages events)
    (hlt : cursor < through) {page : List Event}
    (hpage : PageOk T (S.looks n) (shown n) limit cursor through page c) (offset' : Option Continuation)
    (hoffset : ∀ c', offset' = some c' → c' = c) :
    Progress T S shown start through (n + 1) c.scanned offset' (pages ++ [page.map Event.json])
      (events ++ page) := by
  refine ⟨?_, fun _ => h.forward.trans_lt hlt, nofun, ?_, ?_, h.forward.trans hpage.forward, ?_, ?_, ?_⟩
  · rw [length_append, h.count, length_singleton]
  · rw [flatten_append, h.sent]
    simp
  · rw [map_append, pairwise_append]
    refine ⟨h.increasing, hpage.increasing, fun x hx y hy => ?_⟩
    obtain ⟨e, he, rfl⟩ := mem_map.1 hx
    obtain ⟨f, hf, rfl⟩ := mem_map.1 hy
    exact (h.between e he).2.1.trans_lt (hpage.between f hf).1
  · intro e he
    rcases mem_append.1 he with hold | hnew
    · obtain ⟨hstart, hcursor, hthrough⟩ := h.between e hold
      exact ⟨hstart, hcursor.trans hpage.forward, hthrough⟩
    · obtain ⟨hcursor, hscanned⟩ := hpage.between e hnew
      exact ⟨h.forward.trans_lt hcursor, hscanned, hscanned.trans hpage.within⟩
  · intro e hoffered hstart hle
    rcases Nat.lt_or_ge cursor e.seq with hlater | hearlier
    · obtain ⟨hholds, hshown⟩ := hoffered n (Nat.lt_succ_self n)
      exact mem_append_right _ (hpage.complete e hholds hlater hle hshown)
    · refine mem_append_left _ (h.complete e (fun i hi => ?_) hstart hearlier)
      exact hoffered i (Nat.lt_succ_of_lt hi)
  · intro c' hc'
    rw [hoffset c' hc']
    exact ⟨_, S.sequential n, hpage.resumable⟩

lemma Unreached.page (h : Unreached T S limit through pages) (hcount : pages.length = n)
    {page : List Event}
    (hpage : PageOk T (S.looks n) (shown n) limit cursor through page c) (hlt : c.scanned < through) :
    Unreached T S limit through (pages ++ [page.map Event.json]) := by
  intro i p hp hpresent hend e he
  rcases Nat.lt_or_ge i pages.length with hold | hnew
  · rw [getElem?_append_left hold] at hp
    exact h i p hp hpresent hend e he
  · rw [getElem?_append_right hnew] at hp
    obtain ⟨hi, rfl⟩ := List.getElem?_eq_some_iff.1 hp
    have hin : i = n := by
      simp only [length_singleton] at hi
      omega
    subst hin
    simp only [hcount, Nat.sub_self] at hend
    by_contra hge
    exact absurd (hpage.reached hpresent hend e he (Nat.not_lt.1 hge)) (Nat.ne_of_lt hlt)

end Loop

def bare (n : Nat) : Event where
  fields := [(text "seq", .number (.ofNat (n + 1)))]
  seq := n + 1
  durable := by simp [durableEventSeq, Json.get?, Number.ofNat]

def bareGen (ino : Nat) (ns : List Nat) (torn : List Char)
    (h : '\n' ∉ torn ∧ ((ns.map bare).map Event.seq).Pairwise (· < ·)) : Gen :=
  ⟨⟨0, ino⟩, ns.map bare, torn, h.1, h.2⟩

/-- One event, and half of the next, which is there as a whole an instant later. -/
def Timeline.halfway : Timeline where
  disk
    | 0 => ⟨bareGen 1 [0] ((bare 1).line.take 7) (by decide +kernel), [], by decide⟩
    | _ => ⟨bareGen 1 [0, 1, 2] [] (by decide), [], by decide⟩
  next
    | 0 => .append _ [bare 1, bare 2] rfl rfl (by decide +kernel) rfl
    | _ + 1 => .stay

end EventLog
