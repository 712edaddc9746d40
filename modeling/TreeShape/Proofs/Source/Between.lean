import TreeShape.Proofs.Position.Order
import TreeShape.Proofs.Source.Points
/- The regions of a document: which offsets are the ends of one, what is wrong with the others, and
how a region is divided by an offset in it. -/
namespace TreeShape

namespace Source

variable {s : Source} {p q : Point} {a b : Nat} {e : ShapeError}

theorem pointAt_eq_error_iff :
    s.pointAt a = .error e ↔ s.length < a ∧ e = .offsetOutOfBounds a s.length := by
  unfold pointAt
  by_cases hlt : s.length < a
  · rw [if_pos hlt, Except.error.injEq, and_iff_right hlt]
    exact eq_comm
  · rw [if_neg hlt]
    simp [hlt]

/-- Why there is no region from one offset to another: the first is no offset of the document, or
the first is one and the second is not, or they are in the wrong order. -/
inductive Refuses (s : Source) (a b : Nat) : ShapeError → Prop
  | start : s.length < a → Refuses s a b (.offsetOutOfBounds a s.length)
  | stop : a ≤ s.length → s.length < b → Refuses s a b (.offsetOutOfBounds b s.length)
  | order {p q : Point} : b < a → s.pointAt a = .ok p → s.pointAt b = .ok q →
      Refuses s a b (.startAfterEnd p q)

theorem Refuses.positionBetween (h : s.WellFormed) (hrefuses : s.Refuses a b e) :
    s.positionBetween a b = .error e := by
  unfold Source.positionBetween
  cases hrefuses with
  | start hlt =>
      rw [pointAt_eq_error_iff.mpr ⟨hlt, rfl⟩]
      rfl
  | stop hle hlt =>
      obtain ⟨p, hp⟩ := h.exists_pointAt hle
      rw [hp, pointAt_eq_error_iff.mpr ⟨hlt, rfl⟩]
      rfl
  | order hlt hp hq =>
      rw [hp, hq]
      exact if_pos hlt

theorem WellFormed.exists_refuses (h : s.WellFormed) (hends : ¬ (a ≤ b ∧ b ≤ s.length)) :
    ∃ e, s.Refuses a b e := by
  rcases Nat.lt_or_ge s.length a with hstart | hstart
  · exact ⟨_, .start hstart⟩
  · rcases Nat.lt_or_ge s.length b with hstop | hstop
    · exact ⟨_, .stop hstart hstop⟩
    · obtain ⟨p, hp⟩ := h.exists_pointAt hstart
      obtain ⟨q, hq⟩ := h.exists_pointAt hstop
      exact ⟨_, .order (by omega) hp hq⟩

theorem WellFormed.exists_positionBetween_iff (h : s.WellFormed) :
    (∃ p, s.positionBetween a b = .ok p) ↔ a ≤ b ∧ b ≤ s.length := by
  simp only [h.positionBetween_iff]
  constructor
  · rintro ⟨p, hregion⟩
    exact ⟨hregion.ordered, hregion.within⟩
  · rintro ⟨hle, hb⟩
    exact h.exists_between hle hb

theorem WellFormed.positionBetween_eq_error_iff (h : s.WellFormed) :
    s.positionBetween a b = .error e ↔ s.Refuses a b e := by
  refine ⟨?_, Refuses.positionBetween h⟩
  intro herror
  have hends : ¬ (a ≤ b ∧ b ≤ s.length) := by
    rw [← h.exists_positionBetween_iff, herror]
    rintro ⟨p, hp⟩
    cases hp
  obtain ⟨e', hrefuses⟩ := h.exists_refuses hends
  cases herror.symm.trans (hrefuses.positionBetween h)
  exact hrefuses

theorem WellFormed.line_le_of_le (h : s.WellFormed) (hp : s.pointAt a = .ok p)
    (hq : s.pointAt b = .ok q) (hle : a ≤ b) : p.line ≤ q.line := by
  rcases (h.notAfter_iff hp hq).mpr hle with hlt | ⟨heq, -⟩
  · exact Nat.le_of_lt hlt
  · exact Nat.le_of_eq heq

theorem WellFormed.le_of_le (h : s.WellFormed) (hp : s.pointAt a = .ok p)
    (hq : s.pointAt b = .ok q) (hle : a ≤ b) : p ≤ q := by
  rw [Point.le_iff_not_lt, h.lt_iff hq hp]
  exact Nat.not_lt.mpr hle

/-- The columns of the lines after one up to another are divided by each line between them. -/
theorem filterMap_lines_append (f : Nat → Option Nat) {first mid last : Nat} (hfirst : first ≤ mid)
    (hlast : mid ≤ last) :
    (List.range' (first + 1) (last - first)).filterMap f =
      (List.range' (first + 1) (mid - first)).filterMap f ++
        (List.range' (mid + 1) (last - mid)).filterMap f := by
  rw [← List.filterMap_append]
  have hcount : last - first = (mid - first) + (last - mid) := by omega
  have hmid : mid + 1 = first + 1 + (mid - first) := by omega
  rw [hcount, hmid, List.range'_append_1]

/-- Two regions, the second of which starts where the first stops, make up one region. -/
theorem WellFormed.positionBetween_join (h : s.WellFormed) {c : Nat} {left right : Position}
    (hleft : s.positionBetween a b = .ok left) (hright : s.positionBetween b c = .ok right) :
    left.stop = right.start ∧
      s.positionBetween a c = .ok ⟨left.start, right.stop, left.indent ++ right.indent⟩ := by
  obtain ⟨hab, ha, hb, hindent⟩ := positionBetween_eq_ok_iff.mp hleft
  obtain ⟨hbc, hb', hc, hindent'⟩ := positionBetween_eq_ok_iff.mp hright
  have hmid : left.stop = right.start := Except.ok.inj (hb.symm.trans hb')
  refine ⟨hmid, positionBetween_eq_ok_iff.mpr ⟨Nat.le_trans hab hbc, ha, hc, ?_⟩⟩
  rw [hindent, hindent', ← hmid]
  exact (filterMap_lines_append s.lineIndent? (h.line_le_of_le ha hb hab)
    (h.line_le_of_le hb hc hbc)).symm

/-- The box around the parts of a region has its ends. -/
theorem WellFormed.boundingBox_parts (h : s.WellFormed) {c : Nat} {left right : Position}
    (hleft : s.positionBetween a b = .ok left) (hright : s.positionBetween b c = .ok right) :
    Position.boundingBox [left, right] = some ⟨left.start, right.stop, []⟩ := by
  obtain ⟨hab, ha, hb, -⟩ := positionBetween_eq_ok_iff.mp hleft
  obtain ⟨hbc, hb', hc, -⟩ := positionBetween_eq_ok_iff.mp hright
  refine Position.boundingBox_eq_some_iff.mpr ⟨⟨.head _, ?_⟩, ⟨.tail _ (.head _), ?_⟩, rfl⟩
  · simp only [List.map_cons, List.map_nil, List.forall_mem_cons]
    exact ⟨h.le_of_le ha ha (Nat.le_refl a), h.le_of_le ha hb' hab, by simp⟩
  · simp only [List.map_cons, List.map_nil, List.forall_mem_cons]
    exact ⟨h.le_of_le hb hc hbc, h.le_of_le hc hc (Nat.le_refl c), by simp⟩

/-- Two offsets of a text are the ends of a region just if they are in order, and otherwise it is
told what is wrong with them. A region is valid, counts the characters between its ends, and has the
columns of its lines after the first. An offset in it divides it into two regions that meet there,
share out its columns, and have its ends around them. -/
theorem positionBetween_exact (text : String) :
    let s := ofText text
    (∀ a b, (∃ p, s.positionBetween a b = .ok p) ↔ a ≤ b ∧ b ≤ text.length) ∧
      (∀ a b e, s.positionBetween a b = .error e ↔ s.Refuses a b e) ∧
      (∀ a b p, s.positionBetween a b = .ok p →
        p.validate = .ok () ∧ p.length = b - a ∧ p.indent.length = p.lineSpan - 1 ∧
          ∀ index < p.indent.length, p.indent[index]? = s.lineIndent? (p.start.line + 1 + index)) ∧
      ∀ a b c, a ≤ b → b ≤ c → c ≤ text.length →
        ∃ left right whole, s.positionBetween a b = .ok left ∧ s.positionBetween b c = .ok right ∧
          s.positionBetween a c = .ok whole ∧ left.stop = right.start ∧ whole.start = left.start ∧
          whole.stop = right.stop ∧ whole.indent = left.indent ++ right.indent ∧
          Position.boundingBox [left, right] = some { whole with indent := [] } := by
  intro s
  have hformed : s.WellFormed := wellFormed_ofText text
  rw [← length_ofText text]
  refine ⟨fun a b => hformed.exists_positionBetween_iff,
    fun a b e => hformed.positionBetween_eq_error_iff, ?_, ?_⟩
  · intro a b p hp
    have hregion := hformed.positionBetween_iff.mp hp
    have hspan : p.indent.length = p.lineSpan - 1 := hregion.indentLength
    have hcolumns : ∀ column ∈ p.indent, 1 ≤ column := fun column hcolumn =>
      (hregion.indent_bounds hformed column hcolumn).1
    have hvalid := hformed.valid_of_pointAt hregion.ordered hregion.start hregion.stop hcolumns
      (.inr hregion.indentLength)
    refine ⟨Position.validate_eq_ok_iff.mpr hvalid, ?_, hspan, ?_⟩
    · rw [Position.length, hformed.offset_of_pointAt hregion.start,
        hformed.offset_of_pointAt hregion.stop]
    · rw [hregion.indentLength]
      exact hregion.indent
  · intro a b c hab hbc hc
    obtain ⟨left, hleft⟩ := hformed.exists_positionBetween_iff.mpr ⟨hab, Nat.le_trans hbc hc⟩
    obtain ⟨right, hright⟩ := hformed.exists_positionBetween_iff.mpr ⟨hbc, hc⟩
    obtain ⟨hmid, hwhole⟩ := hformed.positionBetween_join hleft hright
    exact ⟨left, right, _, hleft, hright, hwhole, hmid, rfl, rfl, rfl,
      hformed.boundingBox_parts hleft hright⟩

/-- A region is divided between the two characters of a line break. -/
theorem positionBetween_exact_in_break :
    let s := ofText "a\r\n b"
    ∃ left right whole, s.positionBetween 0 2 = .ok left ∧ s.positionBetween 2 5 = .ok right ∧
      s.positionBetween 0 5 = .ok whole ∧ left.stop = ⟨1, 3, 2⟩ ∧ right.indent = [2] ∧
      whole.indent = left.indent ++ right.indent := by
  intro s
  obtain ⟨-, -, -, hparts⟩ := positionBetween_exact "a\r\n b"
  obtain ⟨left, right, whole, hleft, hright, hwhole, hmid, -, -, hindent, -⟩ :=
    hparts 0 2 5 (by decide) (by decide) (by decide)
  have hright' : s.positionBetween 2 5 = .ok ⟨⟨1, 3, 2⟩, ⟨2, 3, 5⟩, [2]⟩ := by decide
  cases Except.ok.inj (hright.symm.trans hright')
  exact ⟨left, _, whole, hleft, hright, hwhole, hmid, rfl, hindent⟩

end Source

end TreeShape
