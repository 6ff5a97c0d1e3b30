import Mathlib.Tactic
import ZenithBot.Mentions.References

/-! What an accepted span is: a part of the prompt, between code points, that reads as the marker and
    stands by itself (`Mention`). And what the check of the sorted spans says of them: pairwise disjoint
    (`overlapping_iff`). -/

namespace Mentions
open Lib Py List

variable {marker prompt : Text} {span : Span} {r : ChatReference} {text : Text} {start stop : ℕ}

/-! ### One span -/

/-- The span is exactly an occurrence of `marker`, delimited from its neighbours. -/
def Mention (prompt : Text) (span : Span) (marker : Text) : Prop :=
  ∃ before after, prompt = before ++ marker ++ after ∧ Utf16.length before = span.1 ∧
    Utf16.length (before ++ marker) = span.2 ∧ delimited before.getLast? after.head? = true

lemma utf16Slice_ok (h : utf16Slice prompt start stop = .ok text) :
    Utf16.slice prompt start stop = some text := getOr_ok h

lemma utf16Slice_of (h : Utf16.slice prompt start stop = some text) :
    utf16Slice prompt start stop = .ok text := by
  rw [utf16Slice, h]
  rfl

lemma hasTokenBoundaries_ok {token : Bool} (h : hasTokenBoundaries prompt span = .ok token) :
    ∃ before after, Utf16.slice prompt 0 span.1 = some before ∧
      Utf16.slice prompt span.2 (Utf16.length prompt) = some after ∧
      delimited before.getLast? after.head? = token := by
  obtain ⟨before, hbefore, h⟩ := bind_ok h
  obtain ⟨after, hafter, h⟩ := bind_ok h
  exact ⟨before, after, utf16Slice_ok hbefore, utf16Slice_ok hafter, Except.ok.inj h⟩

lemma covers_ok {exact : Bool} (h : covers prompt span marker = .ok exact) :
    ∃ text, Utf16.slice prompt span.1 span.2 = some text ∧ exact = decide (text = marker) := by
  obtain ⟨text, htext, h⟩ := bind_ok h
  exact ⟨text, utf16Slice_ok htext, (Except.ok.inj h).symm⟩

lemma mention_of_slices (hle : span.1 ≤ span.2) (hend : span.2 ≤ Utf16.length prompt)
    (htext : Utf16.slice prompt span.1 span.2 = some text)
    (htoken : hasTokenBoundaries prompt span = .ok true) : Mention prompt span text := by
  obtain ⟨before, after, hbefore, hafter, hdelimited⟩ := hasTokenBoundaries_ok htoken
  obtain ⟨hsplit, hstart, hstop⟩ := Utf16.split_of_slices hle hend hbefore htext hafter
  exact ⟨before, after, hsplit, hstart, hstop, hdelimited⟩

lemma Mention.slices (h : Mention prompt span marker) :
    span.2 ≤ Utf16.length prompt ∧ Utf16.slice prompt span.1 span.2 = some marker ∧
      hasTokenBoundaries prompt span = .ok true := by
  obtain ⟨before, after, rfl, hstart, hstop, hdelimited⟩ := h
  have hbefore : Utf16.slice (before ++ marker ++ after) 0 (Utf16.length before) = some before := by
    rw [append_assoc]
    exact Utf16.slice_start before (marker ++ after)
  have hafter := Utf16.slice_end (before ++ marker) after
  refine ⟨?_, ?_, ?_⟩
  · rw [← hstop, Utf16.length_append (before ++ marker) after]
    exact Nat.le_add_right _ _
  · rw [← hstart, ← hstop]
    exact Utf16.slice_middle before marker after
  · rw [hasTokenBoundaries, ← hstart, ← hstop, utf16Slice_of hbefore, ok_bind, utf16Slice_of hafter, ok_bind,
      hdelimited]
    rfl

lemma Mention.nonempty (h : Mention prompt span marker) (hm : marker ≠ []) : span.1 < span.2 := by
  obtain ⟨before, after, -, hstart, hstop, -⟩ := h
  have hpos := Utf16.length_pos hm
  rw [Utf16.length_append] at hstop
  omega

/-- SPAN: what the chat validator asks of a span is that it is a mention of one of the markers. -/
theorem checkSpan_ok (h : checkSpan prompt r = .ok ()) :
    ∃ m ∈ r.markerCandidates, Mention prompt r.span m := by
  obtain ⟨_, -, h⟩ := bind_ok h
  obtain ⟨hempty, h⟩ := refuse_ok h
  obtain ⟨hend, h⟩ := refuse_ok h
  obtain ⟨text, htext, h⟩ := bind_ok h
  obtain ⟨hmarker, h⟩ := refuse_ok h
  obtain ⟨token, htoken, h⟩ := bind_ok h
  have htrue : token = true := by simpa using refuseIf_ok h
  subst htrue
  have hlt := not_le.1 hempty
  refine ⟨text, by simpa using hmarker, ?_⟩
  exact mention_of_slices hlt.le (not_lt.1 hend) (utf16Slice_ok htext) htoken

lemma markerCandidates_ne_nil {m : Text} (h : m ∈ r.markerCandidates) : m ≠ [] := by
  unfold ChatReference.markerCandidates at h
  split at h
  · rcases mem_cons.1 h with rfl | h
    · exact cons_ne_nil _ _
    · rw [mem_singleton.1 h]
      exact cons_ne_nil _ _
  · rw [mem_singleton.1 h]
    exact cons_ne_nil _ _

lemma checkSpan_of {m : Text} (hm : m ∈ r.markerCandidates) (h : Mention prompt r.span m) :
    checkSpan prompt r = .ok () := by
  obtain ⟨hend, htext, htoken⟩ := h.slices
  have hend : r.sourceTextEnd ≤ Utf16.length prompt := hend
  have htext : Utf16.slice prompt r.sourceTextStart r.sourceTextEnd = some m := htext
  have hlt : r.sourceTextStart < r.sourceTextEnd := h.nonempty (markerCandidates_ne_nil hm)
  rw [checkSpan, refuseIf_of_not r.plain, ok_bind, refuseIf_of_not (not_le.2 hlt), ok_bind,
    refuseIf_of_not (not_lt.2 hend), ok_bind, utf16Slice_of htext, ok_bind, refuseIf_of_not (not_not.2 hm),
    ok_bind, htoken, ok_bind, refuseIf_of_not (by simp)]

/-! ### All spans -/

/-- Two spans share no unit. -/
def Apart (a b : Span) : Prop := a.2 ≤ b.1 ∨ b.2 ≤ a.1

lemma Apart.symm {a b : Span} (h : Apart a b) : Apart b a := Or.symm h

/-- Of spans that are not empty, the first ends where the second begins or earlier. -/
def Before (a b : Span) : Prop := a.1 < a.2 ∧ b.1 < b.2 ∧ a.2 ≤ b.1

instance : IsTrans Span Before where
  trans a b c := by
    rintro ⟨ha, -, hab⟩ ⟨hb, hc, hbc⟩
    exact ⟨ha, hc, by omega⟩

instance : Std.Total Span.le := ⟨fun a b => by unfold Span.le; omega⟩

instance : IsTrans Span Span.le := ⟨fun a b c hab hbc => by unfold Span.le at *; omega⟩

/-- The neighbours of a list do not overlap iff each lies before the next. -/
lemma overlapping_eq_false : ∀ {spans : List Span}, (∀ a ∈ spans, a.1 < a.2) →
    (overlapping spans = false ↔ spans.Pairwise Before)
  | [], _ => by simp [overlapping]
  | [a], _ => by simp [overlapping]
  | a :: b :: rest, h => by
    have htail : ∀ x ∈ b :: rest, x.1 < x.2 := fun x hx => h x (mem_cons_of_mem _ hx)
    have ha := h a mem_cons_self
    have hb := htail b mem_cons_self
    rw [overlapping, Bool.or_eq_false_iff, overlapping_eq_false htail, ← isChain_iff_pairwise,
      ← isChain_iff_pairwise, isChain_cons_cons]
    simp only [decide_eq_false_iff_not, not_lt]
    constructor
    · rintro ⟨hab, hrest⟩
      exact ⟨⟨ha, hb, hab⟩, hrest⟩
    · rintro ⟨hab, hrest⟩
      exact ⟨hab.2.2, hrest⟩

/-- OVERLAP: sorted spans that pass the check are pairwise apart, and pairwise apart spans pass it. -/
theorem overlapping_iff {spans : List Span} (h : ∀ a ∈ spans, a.1 < a.2) :
    overlapping (spans.insertionSort Span.le) = false ↔ spans.Pairwise Apart := by
  have hperm := perm_insertionSort Span.le spans
  have hsorted := pairwise_insertionSort Span.le spans
  have hpos : ∀ a ∈ spans.insertionSort Span.le, a.1 < a.2 := fun a ha => h a (hperm.mem_iff.1 ha)
  rw [overlapping_eq_false hpos, ← hperm.pairwise_iff fun hab => hab.symm]
  constructor
  · exact fun hp => hp.imp fun hab => .inl hab.2.2
  · intro hp
    refine (hsorted.and hp).imp_of_mem fun {a b} ha hb hab => ?_
    have hpa := hpos a ha
    have hpb := hpos b hb
    obtain ⟨hle, hapart⟩ := hab
    unfold Span.le at hle
    refine ⟨hpa, hpb, ?_⟩
    rcases hapart with hapart | hapart
    · exact hapart
    · omega

end Mentions
