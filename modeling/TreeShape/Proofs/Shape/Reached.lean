import TreeShape.Proofs.Shape.Conforms
/- The positions in a tree, and the forms in which they may be written. -/
namespace TreeShape

namespace Json

variable {fields : List (String × Json)} {v q : Json}

/-- The position of an object, if it has one that is not null. -/
def position? : Json → Option Json
  | .object fields => present? "position" fields
  | _ => none

/-- The position belongs to the root, or to an object that lists of children lead to. -/
inductive Reaches : Json → Json → Prop
  | root {v q : Json} : v.position? = some q → Reaches v q
  | child {v item q : Json} : item ∈ v.childItems → Reaches item q → Reaches v q

theorem reaches_object_iff :
    (object fields).Reaches q ↔
      present? "position" fields = some q ∨ ∃ item ∈ (object fields).childItems, item.Reaches q := by
  constructor
  · intro h
    cases h with
    | root h => exact .inl h
    | child hitem h => exact .inr ⟨_, hitem, h⟩
  · rintro (h | ⟨item, hitem, h⟩)
    · exact .root h
    · exact .child hitem h

/-- Neither a position nor one of its points is written as a list. -/
structure WrittenOut (q : Json) : Prop where
  position : ∀ items, q ≠ .array items
  start : ∀ items, q.step? (.key "start") ≠ some (.array items)
  stop : ∀ items, q.step? (.key "end") ≠ some (.array items)

theorem WritesPoint.ne_array {p : Point} (h : v.WritesPoint p) (items : List Json) :
    v ≠ .array items := by
  obtain ⟨fields, rfl, -⟩ := h
  simp

theorem WritesPosition.writtenOut {p : Position} (h : q.WritesPosition p) : q.WrittenOut := by
  obtain ⟨fields, rfl, h⟩ := h
  refine ⟨by simp, ?_, ?_⟩
  · intro items hitems
    obtain ⟨v, hv, hwrites⟩ := h.start
    cases Option.some.inj ((present?_eq_some_iff.mp hv).1.symm.trans hitems)
    exact hwrites.ne_array items rfl
  · intro items hitems
    obtain ⟨v, hv, hwrites⟩ := h.stop
    cases Option.some.inj ((present?_eq_some_iff.mp hv).1.symm.trans hitems)
    exact hwrites.ne_array items rfl

/-- Every position in a tree is written by its coordinates. -/
theorem Conforms.writes_of_reaches {required : Bool} (hv : v.Conforms required)
    (hq : v.Reaches q) : ∃ p, q.WritesPosition p ∧ p.Valid := by
  induction hq with
  | root hroot =>
      cases hv with
      | leaf hshape hnone => exact hshape.position _ hroot
      | parent hshape hitems hall => exact hshape.position _ hroot
  | child hitem hq ih =>
      apply ih
      cases hv with
      | leaf hshape hnone =>
          obtain ⟨fields, items, hfields, hitems⟩ := exists_of_mem_childItems hitem
          cases hfields
          rw [present?_of_get? hitems (by simp)] at hnone
          cases hnone
      | parent hshape hitems hall =>
          rw [childItems_present hitems] at hitem
          exact hall _ hitem

end Json

end TreeShape
