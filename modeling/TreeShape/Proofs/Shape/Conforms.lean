import TreeShape.Json.Path
import TreeShape.Proofs.Shape.Position
/- Which JSON values are trees, and how to reach the nodes of one: by shape alone. -/
namespace TreeShape

namespace Json

variable {key : String} {fields : List (String × Json)} {v item : Json}

/-- The items of an object's list of children; other values have none. -/
def childItems : Json → List Json
  | .object fields =>
    match Entries.get? "children" fields with
    | some (.array items) => items
    | _ => []
  | _ => []

theorem childItems_object {items : List Json}
    (h : Entries.get? "children" fields = some (.array items)) :
    (object fields).childItems = items := by
  simp only [childItems, h]

theorem childItems_present {items : List Json}
    (h : present? "children" fields = some (.array items)) :
    (object fields).childItems = items :=
  childItems_object (present?_eq_some_iff.mp h).1

theorem childItems_absent (h : present? "children" fields = none) :
    (object fields).childItems = [] := by
  rcases present?_eq_none_iff.mp h with h | h
  · simp only [childItems, h]
  · simp only [childItems, h]

theorem sizeOf_lt_of_get? (h : Entries.get? key fields = some v) : sizeOf v < sizeOf fields := by
  induction fields with
  | nil => cases h
  | cons field rest ih =>
      obtain ⟨k, w⟩ := field
      unfold Entries.get? at h
      split at h
      · cases Option.some.inj h
        simp only [List.cons.sizeOf_spec, Prod.mk.sizeOf_spec]
        omega
      · have := ih h
        simp only [List.cons.sizeOf_spec]
        omega

theorem exists_of_mem_childItems (h : item ∈ v.childItems) :
    ∃ fields items, v = object fields ∧ Entries.get? "children" fields = some (array items) := by
  unfold childItems at h
  split at h
  · split at h
    · exact ⟨_, _, rfl, by assumption⟩
    · cases h
  · cases h

theorem sizeOf_lt_of_mem_childItems (h : item ∈ v.childItems) : sizeOf item < sizeOf v := by
  obtain ⟨fields, items, rfl, hitems⟩ := exists_of_mem_childItems h
  rw [childItems_object hitems] at h
  have hfields := sizeOf_lt_of_get? hitems
  have hitem := List.sizeOf_lt_of_mem h
  simp only [array.sizeOf_spec] at hfields
  simp only [object.sizeOf_spec]
  omega

/-- What holds of a value whenever it holds of its children holds of every value. -/
theorem node_induction {motive : Json → Prop}
    (step : ∀ v, (∀ item ∈ v.childItems, motive item) → motive v) (v : Json) : motive v :=
  step v fun item _ => node_induction step item
termination_by sizeOf v
decreasing_by exact sizeOf_lt_of_mem_childItems (by assumption)

/-- The steps to a child lead to an item of the list of children. -/
theorem get?_child (v : Json) (index : Nat) (more : Path) :
    v.get? (.key "children" :: .index index :: more) =
      v.childItems[index]?.bind fun item => item.get? more := by
  cases v with
  | object fields =>
      simp only [get?, step?, childItems]
      cases Entries.get? "children" fields with
      | none => rfl
      | some children =>
          cases children with
          | array items => rfl
          | null => rfl
          | bool value => rfl
          | number value => rfl
          | string value => rfl
          | object fields => rfl
  | null => rfl
  | bool value => rfl
  | number value => rfl
  | string value => rfl
  | array items => rfl

theorem object_of_get?_key (h : v.get? [.key key] = some item) :
    ∃ fields, v = object fields ∧ Entries.get? key fields = some item := by
  cases v with
  | object fields =>
      refine ⟨fields, rfl, ?_⟩
      simpa [get?, step?, Option.bind_eq_some_iff] using h
  | null => cases h
  | bool value => cases h
  | number value => cases h
  | string value => cases h
  | array items => cases h

/-- What a node must be apart from its children; `required` says that it needs a position. -/
structure NodeShape (required : Bool) (fields : List (String × Json)) : Prop where
  type : ∃ label, Entries.get? "type" fields = some (.string label) ∧ label ≠ ""
  data : ∀ v, present? "data" fields = some v →
    ∃ entries, v = .object entries ∧ Entries.get? "space" entries = none
  placed : required = true → present? "position" fields ≠ none
  position : ∀ v, present? "position" fields = some v → ∃ p, v.WritesPosition p ∧ p.Valid

/-- A tree is an object with the shape of a node whose children, if it has a list of them, are
trees. -/
inductive Conforms (required : Bool) : Json → Prop
  | leaf {fields : List (String × Json)} : NodeShape required fields →
      present? "children" fields = none → Conforms required (.object fields)
  | parent {fields : List (String × Json)} {items : List Json} : NodeShape required fields →
      present? "children" fields = some (.array items) →
      (∀ item ∈ items, Conforms required item) → Conforms required (.object fields)

theorem conforms_object_iff {required : Bool} :
    (object fields).Conforms required ↔
      NodeShape required fields ∧
        (present? "children" fields = none ∨
          ∃ items, present? "children" fields = some (.array items) ∧
            ∀ item ∈ items, item.Conforms required) := by
  constructor
  · intro h
    cases h with
    | leaf hshape hnone => exact ⟨hshape, .inl hnone⟩
    | parent hshape hitems hall => exact ⟨hshape, .inr ⟨_, hitems, hall⟩⟩
  · rintro ⟨hshape, hnone | ⟨items, hitems, hall⟩⟩
    · exact .leaf hshape hnone
    · exact .parent hshape hitems hall

end Json

end TreeShape
