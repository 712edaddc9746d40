import Mathlib.Data.Set.Basic
import TreeShape.Proofs.Position.Enclosing
/- A position as the set of the points that lie in it: enclosing is inclusion, and overlapping is having
a point in common. -/
namespace TreeShape

namespace Point

variable {p q : Point}

theorem NotAfter.total (p q : Point) : p.NotAfter q ∨ q.NotAfter p := by
  unfold NotAfter
  omega

/-- Two points with one line and column, whatever their offsets. -/
def SamePlace (p q : Point) : Prop := p.line = q.line ∧ p.column = q.column

theorem samePlace_iff : p.SamePlace q ↔ p.NotAfter q ∧ q.NotAfter p := by
  unfold SamePlace NotAfter
  omega

end Point

namespace Position

variable {outer inner p q : Position} {r : Point}

/-- By line and column a position does not stop before it starts. -/
def Forward (p : Position) : Prop := p.start.NotAfter p.stop

/-- The points that lie in a position. -/
def points (p : Position) : Set Point := {r | p.contains r = true}

theorem mem_points_iff : r ∈ p.points ↔ p.start.NotAfter r ∧ r.NotAfter p.stop := contains_iff

theorem Forward.start_mem (h : p.Forward) : p.start ∈ p.points := mem_points_iff.mpr ⟨.refl _, h⟩

theorem Forward.stop_mem (h : p.Forward) : p.stop ∈ p.points := mem_points_iff.mpr ⟨h, .refl _⟩

theorem encloses_iff_subset (hinner : inner.Forward) :
    outer.encloses inner = true ↔ inner.points ⊆ outer.points := by
  constructor
  · intro h r hr
    exact contains_of_encloses h hr
  · intro h
    exact encloses_iff.mpr ⟨h hinner.start_mem, h hinner.stop_mem⟩

theorem overlaps_iff :
    p.overlaps q = true ↔
      q.start ∈ p.points ∨ q.stop ∈ p.points ∨ p.start ∈ q.points ∨ p.stop ∈ q.points := by
  simp only [overlaps, Bool.or_eq_true, or_assoc]
  rfl

/-- It is enough for an overlap that neither position starts after the other stops. -/
theorem overlaps_iff_notAfter (hp : p.Forward) (hq : q.Forward) :
    p.overlaps q = true ↔ p.start.NotAfter q.stop ∧ q.start.NotAfter p.stop := by
  simp only [overlaps_iff, mem_points_iff]
  constructor
  · rintro (⟨hstart, hstop⟩ | ⟨hstart, hstop⟩ | ⟨hstart, hstop⟩ | ⟨hstart, hstop⟩)
    · exact ⟨hstart.trans hq, hstop⟩
    · exact ⟨hstart, hq.trans hstop⟩
    · exact ⟨hstop, hstart.trans hp⟩
    · exact ⟨hp.trans hstop, hstart⟩
  · rintro ⟨hpq, hqp⟩
    -- The later one of the starts lies in both positions.
    rcases Point.NotAfter.total p.start q.start with hle | hle
    · exact .inl ⟨hle, hqp⟩
    · exact .inr (.inr (.inl ⟨hle, hpq⟩))

theorem overlaps_iff_nonempty (hp : p.Forward) (hq : q.Forward) :
    p.overlaps q = true ↔ (p.points ∩ q.points).Nonempty := by
  constructor
  · intro h
    rcases overlaps_iff.mp h with hr | hr | hr | hr
    · exact ⟨q.start, hr, hq.start_mem⟩
    · exact ⟨q.stop, hr, hq.stop_mem⟩
    · exact ⟨p.start, hp.start_mem, hr⟩
    · exact ⟨p.stop, hp.stop_mem, hr⟩
  · rintro ⟨r, hrp, hrq⟩
    obtain ⟨hpr, hrp⟩ := mem_points_iff.mp hrp
    obtain ⟨hqr, hrq⟩ := mem_points_iff.mp hrq
    exact (overlaps_iff_notAfter hp hq).mpr ⟨hpr.trans hrq, hqr.trans hrp⟩

theorem overlaps_comm (p q : Position) : p.overlaps q = q.overlaps p := by
  rw [Bool.eq_iff_iff, overlaps_iff, overlaps_iff]
  exact or_assoc.symm.trans (or_comm.trans or_assoc)

/-- What has a point in common with a position has it in common with all that enclose it. -/
theorem overlaps_of_encloses (houter : outer.Forward) (hinner : inner.Forward) (hp : p.Forward)
    (h : outer.encloses inner = true) (hoverlaps : p.overlaps inner = true) :
    p.overlaps outer = true := by
  rw [overlaps_iff_nonempty hp hinner] at hoverlaps
  rw [overlaps_iff_nonempty hp houter]
  exact hoverlaps.mono (Set.inter_subset_inter_right _ ((encloses_iff_subset hinner).mp h))

/-- Positions that enclose each other differ in offsets and indents at most. -/
theorem encloses_each_other_iff (hp : p.Forward) (hq : q.Forward) :
    p.encloses q = true ∧ q.encloses p = true ↔
      p.start.SamePlace q.start ∧ p.stop.SamePlace q.stop := by
  simp only [encloses_iff, contains_iff, Point.samePlace_iff]
  constructor
  · rintro ⟨⟨hstart, hstop⟩, hstart', hstop'⟩
    exact ⟨⟨hstart.1, hstart'.1⟩, hstop'.2, hstop.2⟩
  · rintro ⟨⟨hpq, hqp⟩, hpq', hqp'⟩
    exact ⟨⟨⟨hpq, hq.trans hqp'⟩, hpq.trans hq, hqp'⟩, ⟨hqp, hp.trans hpq'⟩, hqp.trans hp, hpq'⟩

/-- On positions that run forward by line and column, enclosing is inclusion of the points in them, and
overlapping is having a point in common, which is that neither starts after the other stops. So it
does not matter which of two overlaps the other, enclosing is reflexive and transitive and holds both
ways between the same places only, and what overlaps a position overlaps all that enclose it. -/
theorem operations_on_points :
    (∀ p q : Position, p.Forward → q.Forward →
        (p.encloses q = true ↔ q.points ⊆ p.points) ∧
          (p.overlaps q = true ↔ (p.points ∩ q.points).Nonempty) ∧
          (p.overlaps q = true ↔ p.start.NotAfter q.stop ∧ q.start.NotAfter p.stop) ∧
          (p.encloses q = true ∧ q.encloses p = true ↔
            p.start.SamePlace q.start ∧ p.stop.SamePlace q.stop)) ∧
      (∀ p q : Position, p.overlaps q = q.overlaps p) ∧
      (∀ p : Position, p.Forward → p.encloses p = true) ∧
      (∀ outer mid inner : Position, outer.encloses mid = true → mid.encloses inner = true →
        outer.encloses inner = true) ∧
      ∀ outer inner p : Position, outer.Forward → inner.Forward → p.Forward →
        outer.encloses inner = true → p.overlaps inner = true → p.overlaps outer = true := by
  refine ⟨?_, overlaps_comm, ?_, ?_, ?_⟩
  · intro p q hp hq
    exact ⟨encloses_iff_subset hq, overlaps_iff_nonempty hp hq, overlaps_iff_notAfter hp hq,
      encloses_each_other_iff hp hq⟩
  · intro p hp
    exact encloses_refl hp
  · intro outer mid inner h h'
    exact encloses_trans h h'
  · intro outer inner p houter hinner hp h hoverlaps
    exact overlaps_of_encloses houter hinner hp h hoverlaps

/-- A position that starts where an inner one stops, at another offset, overlaps the outer one. -/
theorem operations_on_points_touching :
    let outer : Position := ⟨⟨1, 1, 0⟩, ⟨2, 6, 14⟩, []⟩
    let inner : Position := ⟨⟨1, 3, 2⟩, ⟨2, 5, 13⟩, [3]⟩
    let p : Position := ⟨⟨2, 5, 40⟩, ⟨3, 1, 42⟩, []⟩
    outer.Forward ∧ inner.Forward ∧ p.Forward ∧ inner.points ⊆ outer.points ∧
      (p.points ∩ inner.points).Nonempty ∧ p.overlaps outer = true ∧
      outer.overlaps p = true ∧ outer.encloses outer = true ∧ ¬ p.points ⊆ outer.points := by
  intro outer inner p
  have houter : outer.Forward := .inl (by decide)
  have hinner : inner.Forward := .inl (by decide)
  have hp : p.Forward := .inl (by decide)
  obtain ⟨hsets, hcomm, hrefl, -, hinherit⟩ := operations_on_points
  have hencloses : outer.encloses inner = true := by decide
  have hoverlaps : p.overlaps inner = true := by decide
  have hbeyond : p.overlaps outer = true :=
    hinherit outer inner p houter hinner hp hencloses hoverlaps
  refine ⟨houter, hinner, hp, (hsets outer inner houter hinner).1.mp hencloses,
    (hsets p inner hp hinner).2.1.mp hoverlaps, hbeyond, ?_, hrefl outer houter, ?_⟩
  · rw [hcomm, hbeyond]
  · rw [← (hsets outer p houter hp).1]
    decide

end Position

end TreeShape
