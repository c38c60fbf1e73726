import Mathlib.Order.Lattice
import Mathlib.Data.List.Basic

/-!
# Rows of spans

Half-open spans of a linear order.  A row of spans is in order when each span ends at or
before the start of every later one.  The gaps a row leaves in a stretch are disjoint from
the row and from each other, and a span that is disjoint from a row in order has its place
in it.
-/

/-- The points from `start` on and before `stop`. -/
structure Span (α : Type) where
  start : α
  stop : α
  deriving DecidableEq, Repr

namespace Span

open List

variable {α : Type} [LinearOrder α]

/-- The first span ends where the second one starts, or earlier. -/
def Before (a b : Span α) : Prop :=
  a.stop ≤ b.start

/-- Two spans without a common point. -/
def Apart (a b : Span α) : Prop :=
  a.Before b ∨ b.Before a

/-- The spans of a row are not empty and follow one another. -/
structure Row (spans : List (Span α)) : Prop where
  lt : ∀ span ∈ spans, span.start < span.stop
  before : spans.Pairwise Before

theorem Row.nil :
  Row ([] : List (Span α))
  := ⟨by simp, .nil⟩

variable {spans : List (Span α)} {span : Span α}

theorem Row.of_cons (h : Row (span :: spans)) :
  Row spans
  := ⟨fun other hmem => h.lt other (mem_cons_of_mem _ hmem), h.before.of_cons⟩

theorem Row.head_before {other : Span α} (h : Row (span :: spans)) (hmem : other ∈ spans) :
  span.Before other
  := rel_of_pairwise_cons h.before hmem

/-! ### Gaps -/

/-- The span from `start` to `stop`, unless it is empty. -/
def unlessEmpty (start stop : α) : List (Span α) :=
  if start < stop then [⟨start, stop⟩] else []

variable {stop : α}

theorem mem_unlessEmpty {start : α} (h : span ∈ unlessEmpty start stop) :
  span = ⟨start, stop⟩ ∧ start < stop
  := by
  rw [unlessEmpty] at h
  split at h
  · rename_i hlt
    apply And.intro (mem_singleton.mp h) hlt
  · contradiction

theorem row_unlessEmpty (start stop : α) :
  Row (unlessEmpty start stop)
  := by
  rw [unlessEmpty]
  split
  · rename_i hlt
    refine ⟨by simpa using hlt, pairwise_singleton _ _⟩
  · apply Row.nil

/-- The parts of the stretch from `cursor` to `stop` that a row leaves free. -/
def gaps (stop : α) : List (Span α) → α → List (Span α)
  | [], cursor => unlessEmpty cursor stop
  | span :: rest, cursor =>
    if span.stop ≤ cursor then
      gaps stop rest cursor
    else if stop ≤ span.start then
      unlessEmpty cursor stop
    else
      unlessEmpty cursor span.start ++
        if stop ≤ span.stop then [] else gaps stop rest span.stop

/-- A gap lies within the stretch. -/
theorem mem_gaps {cursor : α} {gap : Span α} (h : gap ∈ gaps stop spans cursor) :
  cursor ≤ gap.start ∧ gap.start < gap.stop ∧ gap.stop ≤ stop
  := by
  fun_induction gaps stop spans cursor with
  | case1 | case3 =>
    obtain ⟨rfl, hlt⟩ := mem_unlessEmpty h
    refine ⟨le_refl _, hlt, le_refl _⟩
  | case2 span rest cursor hcursor ih => apply ih h
  | case4 span rest cursor hcursor hstop ih =>
    obtain h | h := mem_append.mp h
    · obtain ⟨rfl, hlt⟩ := mem_unlessEmpty h
      refine ⟨le_refl _, hlt, le_of_not_ge hstop⟩
    · split at h
      · contradiction
      · obtain ⟨hle, hlt, hgap⟩ := ih h
        refine ⟨le_trans (le_of_not_ge hcursor) hle, hlt, hgap⟩

/-- The gaps follow one another. -/
theorem row_gaps (stop cursor : α) (h : Row spans) :
  Row (gaps stop spans cursor)
  := by
  fun_induction gaps stop spans cursor with
  | case1 | case3 => apply row_unlessEmpty
  | case2 span rest cursor hcursor ih => apply ih h.of_cons
  | case4 span rest cursor hcursor hstop ih =>
    split
    · rw [append_nil]
      apply row_unlessEmpty
    · have hrest := ih h.of_cons
      have hlt := h.lt span mem_cons_self
      refine ⟨forall_mem_append.mpr ⟨(row_unlessEmpty _ _).lt, hrest.lt⟩, pairwise_append.mpr
        ⟨(row_unlessEmpty _ _).before, hrest.before, fun first hfirst gap hmem => ?_⟩⟩
      obtain ⟨rfl, -⟩ := mem_unlessEmpty hfirst
      apply le_trans (le_of_lt hlt) (mem_gaps hmem).1

/-- The gaps are disjoint from the row. -/
theorem apart_gaps {cursor : α} {gap : Span α} (h : Row spans) (hspan : span ∈ spans)
    (hgap : gap ∈ gaps stop spans cursor) :
  Apart gap span
  := by
  -- the first span is at or before everything from its own stop on
  have hlater {first : Span α} {rest : List (Span α)} {point : α} (h : Row (first :: rest))
      (hspan : span ∈ first :: rest) (hpoint : point ≤ first.start) : point ≤ span.start := by
    obtain rfl | hmem := mem_cons.mp hspan
    · apply hpoint
    · apply le_trans hpoint
      apply le_trans (le_of_lt (h.lt first mem_cons_self)) (h.head_before hmem)
  fun_induction gaps stop spans cursor with
  | case1 => contradiction
  | case2 first rest cursor hcursor ih =>
    obtain rfl | hmem := mem_cons.mp hspan
    · right
      apply le_trans hcursor (mem_gaps hgap).1
    · apply ih h.of_cons hmem hgap
  | case3 first rest cursor hcursor hstop =>
    obtain ⟨rfl, -⟩ := mem_unlessEmpty hgap
    left
    apply hlater h hspan hstop
  | case4 first rest cursor hcursor hstop ih =>
    obtain hgap | hgap := mem_append.mp hgap
    · obtain ⟨rfl, -⟩ := mem_unlessEmpty hgap
      left
      apply hlater h hspan (le_refl _)
    · split at hgap
      · contradiction
      · obtain rfl | hmem := mem_cons.mp hspan
        · right
          apply (mem_gaps hgap).1
        · apply ih h.of_cons hmem hgap

/-! ### Insertion -/

/-- Moves a span forward past those it precedes.  The row is given back to front. -/
def sink (span : Span α) : List (Span α) → List (Span α)
  | [] => [span]
  | last :: earlier =>
    if span.start < last.start then last :: sink span earlier else span :: last :: earlier

section

variable (spans) (span)

/-- Puts a span in its place in a row. -/
def place : List (Span α) :=
  (sink span spans.reverse).reverse

theorem sink_perm (spans : List (Span α)) :
  (sink span spans).Perm (span :: spans)
  := by
  induction spans with
  | nil => apply Perm.refl
  | cons last earlier ih =>
    rw [sink]
    split
    · apply (ih.cons last).trans (.swap span last earlier)
    · apply Perm.refl

theorem place_perm :
  (place spans span).Perm (span :: spans)
  := by
  apply (reverse_perm _).trans
  apply (sink_perm span spans.reverse).trans
  apply (reverse_perm spans).cons

end

/-- A row read back to front stays in order when a span apart from it sinks into it. -/
theorem pairwise_sink (hspan : span.start < span.stop)
    (hlt : ∀ other ∈ spans, other.start < other.stop) (h : spans.Pairwise fun a b => b.Before a)
    (hapart : ∀ other ∈ spans, Apart span other) :
  (sink span spans).Pairwise fun a b => b.Before a
  := by
  induction spans with
  | nil => apply pairwise_singleton
  | cons last earlier ih =>
    obtain ⟨hlast, hlt⟩ := forall_mem_cons.mp hlt
    obtain ⟨hside, hapart⟩ := forall_mem_cons.mp hapart
    obtain ⟨hearlier, htail⟩ := pairwise_cons.mp h
    rw [sink]
    split_ifs with hbefore
    · refine pairwise_cons.mpr ⟨fun other hmem => ?_, ih hlt htail hapart⟩
      obtain rfl | hmem := mem_cons.mp ((sink_perm span earlier).mem_iff.mp hmem)
      · obtain hfirst | hafter := hside
        · apply hfirst
        · apply absurd (lt_of_lt_of_le hlast hafter) (not_lt_of_gt hbefore)
      · apply hearlier other hmem
    · have hlastBefore : last.Before span := by
        obtain hfirst | hlater := hside
        · apply absurd (lt_of_lt_of_le hspan hfirst) hbefore
        · apply hlater
      refine pairwise_cons.mpr ⟨fun other hmem => ?_, h⟩
      obtain rfl | hmem := mem_cons.mp hmem
      · apply hlastBefore
      · apply le_trans (hearlier other hmem) (le_trans (le_of_lt hlast) hlastBefore)

/-- A span apart from a row has its place in it. -/
theorem Row.place (h : Row spans) (hspan : span.start < span.stop)
    (hapart : ∀ other ∈ spans, Apart span other) :
  Row (place spans span)
  := by
  constructor
  · intro other hmem
    obtain rfl | hmem := mem_cons.mp ((place_perm spans span).mem_iff.mp hmem)
    · apply hspan
    · apply h.lt other hmem
  · rw [Span.place, pairwise_reverse]
    apply pairwise_sink hspan
    · intro other hmem
      apply h.lt other (mem_reverse.mp hmem)
    · apply pairwise_reverse.mpr h.before
    · intro other hmem
      apply hapart other (mem_reverse.mp hmem)

/-- Spans that follow one another and are apart from a row are placed in it one by one. -/
theorem Row.foldl_place {others : List (Span α)} (h : Row spans) (hothers : Row others)
    (hapart : ∀ other ∈ others, ∀ span ∈ spans, Apart other span) :
  Row (others.foldl Span.place spans)
  := by
  induction others generalizing spans with
  | nil => apply h
  | cons other rest ih =>
    have hplaced := h.place (hothers.lt other mem_cons_self)
      (fun span hmem => hapart other mem_cons_self span hmem)
    refine ih hplaced hothers.of_cons fun later hlater span hmem => ?_
    obtain rfl | hmem := mem_cons.mp ((place_perm spans other).mem_iff.mp hmem)
    · right
      apply hothers.head_before hlater
    · apply hapart later (mem_cons_of_mem _ hlater) span hmem

end Span
