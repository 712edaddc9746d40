import Mathlib.Data.List.Basic
import TreeShape.Proofs.Shape.Position
import TreeShape.Proofs.Source.Lines
/- The points and positions of a document. Line and column of an offset grow with it, so the order
of points is the order of their offsets, and regions are intervals of offsets. -/
namespace TreeShape

namespace Source

variable {s : Source} {p q : Point} {a b : Nat}

/-- A point of a document tells the line of its offset and how far the offset is from its start. -/
theorem WellFormed.pointAt_eq_ok_iff (h : s.WellFormed) :
    s.pointAt a = .ok p ↔
      a ≤ s.length ∧ p.offset = a ∧ ∃ start, OnLine s p.line start a ∧ p.column = a - start + 1 := by
  obtain ⟨line, hlast, honLine⟩ := h.onLine_linesUpTo a
  constructor
  · intro hp
    unfold pointAt at hp
    split at hp
    · cases hp
    · simp only [hlast, Option.map_some, Option.getD_some] at hp
      cases hp
      exact ⟨by omega, rfl, line.start, honLine, rfl⟩
  · rintro ⟨hle, rfl, start, hline, hcolumn⟩
    obtain ⟨hnumber, rfl⟩ := hline.unique h honLine
    simp only [pointAt, hlast, Option.map_some, Option.getD_some]
    rw [if_neg (by omega), ← hnumber, ← hcolumn]

theorem WellFormed.exists_pointAt (h : s.WellFormed) (hle : a ≤ s.length) :
    ∃ p, s.pointAt a = .ok p := by
  obtain ⟨line, -, honLine⟩ := h.onLine_linesUpTo a
  exact ⟨⟨_, a - line.start + 1, a⟩, h.pointAt_eq_ok_iff.mpr ⟨hle, rfl, line.start, honLine, rfl⟩⟩

theorem WellFormed.offset_of_pointAt (h : s.WellFormed) (hp : s.pointAt a = .ok p) :
    p.offset = a := (h.pointAt_eq_ok_iff.mp hp).2.1

/-- No coordinate goes further than one after the last character. -/
theorem WellFormed.pointAt_bounds (h : s.WellFormed) (hp : s.pointAt a = .ok p) :
    p.line ≤ s.length + 1 ∧ p.column ≤ s.length + 1 ∧ p.offset ≤ s.length := by
  obtain ⟨hle, hoffset, start, hline, hcolumn⟩ := h.pointAt_eq_ok_iff.mp hp
  obtain ⟨index, hindex⟩ : ∃ k, p.line = k + 1 := ⟨p.line - 1, by have := hline.one_le; omega⟩
  have hstarts := hline.starts
  rw [hindex] at hstarts
  have hnumber := h.number_le_start hstarts
  have := hline.reached
  omega

theorem agrees_iff : s.agrees p = true ↔ s.pointAt p.offset = .ok p := by
  unfold agrees
  cases s.pointAt p.offset with
  | ok expected => simp
  | error e => simp

/-- An earlier offset is on an earlier line, or further left on the same one. -/
theorem WellFormed.left_of_lt (h : s.WellFormed) (hp : s.pointAt a = .ok p)
    (hq : s.pointAt b = .ok q) (hlt : a < b) :
    p.line < q.line ∨ p.line = q.line ∧ p.column < q.column := by
  obtain ⟨-, -, start, hpLine, hpColumn⟩ := h.pointAt_eq_ok_iff.mp hp
  obtain ⟨-, -, start', hqLine, hqColumn⟩ := h.pointAt_eq_ok_iff.mp hq
  rcases Nat.lt_or_eq_of_le (hpLine.number_le h hqLine (Nat.le_of_lt hlt)) with hless | hsame
  · exact .inl hless
  · have hstart : start = start' := by
      have hstarts := hpLine.starts
      rw [hsame, hqLine.starts] at hstarts
      exact (Option.some.inj hstarts).symm
    have := hpLine.reached
    exact .inr ⟨hsame, by omega⟩

/-- Two points of a document are in order by line and column just if their offsets are. -/
theorem WellFormed.notAfter_iff (h : s.WellFormed) (hp : s.pointAt a = .ok p)
    (hq : s.pointAt b = .ok q) : p.NotAfter q ↔ a ≤ b := by
  unfold Point.NotAfter
  constructor
  · intro horder
    apply Nat.le_of_not_lt
    intro hlt
    have := h.left_of_lt hq hp hlt
    omega
  · intro hle
    rcases Nat.lt_or_eq_of_le hle with hlt | heq
    · have := h.left_of_lt hp hq hlt
      omega
    · subst heq
      rw [hp] at hq
      cases hq
      exact .inr ⟨rfl, Nat.le_refl _⟩

theorem WellFormed.lt_iff (h : s.WellFormed) (hp : s.pointAt a = .ok p)
    (hq : s.pointAt b = .ok q) : p < q ↔ a < b := by
  have hpq := h.notAfter_iff hp hq
  have hqp := h.notAfter_iff hq hp
  have hpOffset := h.offset_of_pointAt hp
  have hqOffset := h.offset_of_pointAt hq
  change p.Before q ↔ a < b
  unfold Point.Before
  unfold Point.NotAfter at hpq hqp
  omega

/-- A document agrees with both ends of a position. -/
structure Ends (s : Source) (p : Position) : Prop where
  start : s.agrees p.start = true
  stop : s.agrees p.stop = true

/-- A position of a document contains the points whose offsets lie between those of its ends. -/
theorem WellFormed.contains_iff (h : s.WellFormed) {outer : Position} (houter : s.Ends outer)
    (hp : s.agrees p = true) :
    outer.contains p = true ↔ outer.start.offset ≤ p.offset ∧ p.offset ≤ outer.stop.offset := by
  have hpoint := agrees_iff.mp hp
  simp only [Position.contains, Bool.and_eq_true, decide_eq_true_eq,
    h.notAfter_iff (agrees_iff.mp houter.start) hpoint,
    h.notAfter_iff hpoint (agrees_iff.mp houter.stop)]

/-- On positions of a document containment is inclusion of the offsets. -/
theorem WellFormed.encloses_iff (h : s.WellFormed) {outer inner : Position} (houter : s.Ends outer)
    (hinner : s.Ends inner) :
    outer.encloses inner = true ↔
      (outer.start.offset ≤ inner.start.offset ∧ inner.start.offset ≤ outer.stop.offset) ∧
        outer.start.offset ≤ inner.stop.offset ∧ inner.stop.offset ≤ outer.stop.offset := by
  rw [Position.encloses, Bool.and_eq_true, h.contains_iff houter hinner.start,
    h.contains_iff houter hinner.stop]

theorem positionBetween_eq_ok_iff {region : Position} :
    s.positionBetween a b = .ok region ↔
      a ≤ b ∧ s.pointAt a = .ok region.start ∧ s.pointAt b = .ok region.stop ∧
        region.indent = (List.range' (region.start.line + 1)
          (region.stop.line - region.start.line)).filterMap s.lineIndent? := by
  obtain ⟨start, stop, indent⟩ := region
  unfold positionBetween
  cases hstart : s.pointAt a with
  | error e => simp [bind, Except.bind]
  | ok first =>
      cases hstop : s.pointAt b with
      | error e => simp [bind, Except.bind]
      | ok last =>
          simp only [bind, Except.bind, pure, Except.pure]
          split
          · simp; omega
          · simp only [Except.ok.injEq, Position.mk.injEq]
            constructor
            · rintro ⟨rfl, rfl, rfl⟩
              exact ⟨by omega, rfl, rfl, rfl⟩
            · rintro ⟨-, rfl, rfl, rfl⟩
              exact ⟨rfl, rfl, rfl⟩

theorem lineIndent?_of_lineStart? {number start : Nat} (h : s.lineStart? number = some start) :
    ∃ column, s.lineIndent? number = some column := by
  obtain ⟨line, hline, -⟩ := lineStart?_eq_some_iff.mp h
  exact ⟨line.indent, by rw [lineIndent?, hline]; rfl⟩

theorem WellFormed.lineIndent?_bounds (h : s.WellFormed) {number column : Nat}
    (hcolumn : s.lineIndent? number = some column) : 1 ≤ column ∧ column ≤ s.length + 1 := by
  obtain ⟨line, hline, rfl⟩ := Option.map_eq_some_iff.mp hcolumn
  cases number with
  | zero => cases hline
  | succ index => exact (h.ascending.bounds line (List.mem_of_getElem? hline)).2.2

/-- A region of a document: two offsets in order, and the column of every line after the first. -/
structure Between (s : Source) (a b : Nat) (region : Position) : Prop where
  ordered : a ≤ b
  within : b ≤ s.length
  start : s.pointAt a = .ok region.start
  stop : s.pointAt b = .ok region.stop
  indentLength : region.indent.length = region.stop.line - region.start.line
  indent : ∀ index < region.stop.line - region.start.line,
    region.indent[index]? = s.lineIndent? (region.start.line + 1 + index)

/-- Every line up to one that an offset lies on has a column. -/
theorem WellFormed.lineIndent?_of_le (h : s.WellFormed) (hp : s.pointAt a = .ok p) {number : Nat}
    (hpos : 1 ≤ number) (hle : number ≤ p.line) :
    ∃ column, s.lineIndent? number = some column := by
  obtain ⟨-, -, start, hline, -⟩ := h.pointAt_eq_ok_iff.mp hp
  obtain ⟨start', hstart⟩ := lineStart?_of_le hpos hle hline.starts
  exact lineIndent?_of_lineStart? hstart

/-- The columns of some lines in a row, if the document has all of them. -/
theorem getElem?_filterMap_lineIndent? {first count : Nat}
    (hlines : ∀ index < count, ∃ column, s.lineIndent? (first + index) = some column) :
    ((List.range' first count).filterMap s.lineIndent?).length = count ∧
      ∀ index < count,
        ((List.range' first count).filterMap s.lineIndent?)[index]? = s.lineIndent? (first + index) := by
  have hmap : (List.range' first count).filterMap s.lineIndent? =
      (List.range' first count).map fun number => (s.lineIndent? number).getD 0 := by
    apply List.filterMap_eq_map_iff_forall_eq_some.mpr
    intro number hnumber
    obtain ⟨hlow, hhigh⟩ := List.mem_range'_1.mp hnumber
    obtain ⟨column, hcolumn⟩ := hlines (number - first) (by omega)
    rw [Nat.add_sub_cancel' hlow] at hcolumn
    rw [hcolumn, Option.getD_some]
  rw [hmap]
  refine ⟨by simp, ?_⟩
  intro index hindex
  obtain ⟨column, hcolumn⟩ := hlines index hindex
  simp [hindex, hcolumn]

theorem WellFormed.positionBetween_iff (h : s.WellFormed) {region : Position} :
    s.positionBetween a b = .ok region ↔ s.Between a b region := by
  rw [positionBetween_eq_ok_iff]
  have hcolumns : s.pointAt b = .ok region.stop →
      ∀ index < region.stop.line - region.start.line,
        ∃ column, s.lineIndent? (region.start.line + 1 + index) = some column := by
    intro hstop index hindex
    exact h.lineIndent?_of_le hstop (by omega) (by omega)
  constructor
  · rintro ⟨hle, hstart, hstop, hindent⟩
    obtain ⟨hlength, hget⟩ := getElem?_filterMap_lineIndent? (hcolumns hstop)
    rw [← hindent] at hlength hget
    exact ⟨hle, (h.pointAt_eq_ok_iff.mp hstop).1, hstart, hstop, hlength, hget⟩
  · intro hbetween
    obtain ⟨hlength, hget⟩ := getElem?_filterMap_lineIndent? (hcolumns hbetween.stop)
    refine ⟨hbetween.ordered, hbetween.start, hbetween.stop, List.ext_getElem? ?_⟩
    intro index
    rcases Nat.lt_or_ge index (region.stop.line - region.start.line) with hlt | hge
    · rw [hbetween.indent index hlt, hget index hlt]
    · have hleft := hbetween.indentLength
      rw [List.getElem?_eq_none (by omega), List.getElem?_eq_none (by omega)]

theorem WellFormed.exists_between (h : s.WellFormed) (hle : a ≤ b) (hb : b ≤ s.length) :
    ∃ region, s.Between a b region := by
  obtain ⟨p, hp⟩ := h.exists_pointAt (Nat.le_trans hle hb)
  obtain ⟨q, hq⟩ := h.exists_pointAt hb
  refine ⟨⟨p, q, (List.range' (p.line + 1) (q.line - p.line)).filterMap s.lineIndent?⟩, ?_⟩
  exact h.positionBetween_iff.mp (positionBetween_eq_ok_iff.mpr ⟨hle, hp, hq, rfl⟩)

theorem Between.indent_bounds (h : s.WellFormed) {region : Position}
    (hbetween : s.Between a b region) :
    ∀ column ∈ region.indent, 1 ≤ column ∧ column ≤ s.length + 1 := by
  intro column hcolumn
  obtain ⟨index, hindex, rfl⟩ := List.getElem_of_mem hcolumn
  have hline := hbetween.indent index (by rw [← hbetween.indentLength]; exact hindex)
  rw [List.getElem?_eq_getElem hindex] at hline
  exact h.lineIndent?_bounds hline.symm

/-- Two offsets in order are the ends of a valid position, if its columns are counted from one and
there is none or one for each line after the first. -/
theorem WellFormed.valid_of_pointAt (h : s.WellFormed) {region : Position} (hle : a ≤ b)
    (hstart : s.pointAt a = .ok region.start) (hstop : s.pointAt b = .ok region.stop)
    (hcolumns : ∀ column ∈ region.indent, 1 ≤ column)
    (hlines : region.indent = [] ∨
      region.indent.length = region.stop.line - region.start.line) : region.Valid := by
  obtain ⟨-, hoffset, start, hline, hcolumn⟩ := h.pointAt_eq_ok_iff.mp hstart
  obtain ⟨-, hoffset', start', hline', hcolumn'⟩ := h.pointAt_eq_ok_iff.mp hstop
  exact ⟨hline.one_le, by omega, hline'.one_le, by omega, (h.notAfter_iff hstart hstop).mpr hle,
    by omega, hcolumns, hlines⟩

end Source

end TreeShape
