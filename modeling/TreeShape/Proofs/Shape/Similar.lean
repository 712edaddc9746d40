import Mathlib.Data.List.Forall2
import TreeShape.Data
import TreeShape.Proofs.Shape.Conforms
/- Values that are alike in all that a tree must be. Labels, data and values may differ in them, and
fields that no node has may stand in either. -/
namespace TreeShape

namespace Json

variable {asked : Kind} {v w : Json}

/-- Two values are of one kind, and it is not the kind that is asked for. -/
structure OfOtherKind (asked : Kind) (v w : Json) : Prop where
  other : v.kind ≠ asked
  same : w.kind = v.kind

/-- Both labels are empty, or neither is, or no string stands for either. -/
inductive SimilarLabel : Json → Json → Prop
  | empty : SimilarLabel (.string "") (.string "")
  | named {label label' : String} : label ≠ "" → label' ≠ "" →
      SimilarLabel (.string label) (.string label')
  | other {v w : Json} : OfOtherKind .string v w → SimilarLabel v w

/-- The reserved key is in both or in neither, or no object stands for either. -/
inductive SimilarData : Json → Json → Prop
  | entries {entries entries' : List (String × Json)} :
      Entries.contains reservedKey entries = Entries.contains reservedKey entries' →
      SimilarData (.object entries) (.object entries')
  | other {v w : Json} : OfOtherKind .object v w → SimilarData v w

/-- Both have the same points and the same indent, or no object stands for either. -/
inductive SimilarPosition : Json → Json → Prop
  | parts {fields fields' : List (String × Json)} :
      present? "start" fields = present? "start" fields' →
      present? "end" fields = present? "end" fields' →
      present? "indent" fields = present? "indent" fields' →
      SimilarPosition (.object fields) (.object fields')
  | other {v w : Json} : OfOtherKind .object v w → SimilarPosition v w

/-- The fields of two nodes are similar, apart from the children. -/
structure SimilarParts (fields fields' : List (String × Json)) : Prop where
  type : Option.Rel SimilarLabel (Entries.get? "type" fields) (Entries.get? "type" fields')
  data : Option.Rel SimilarData (present? "data" fields) (present? "data" fields')
  position : Option.Rel SimilarPosition (present? "position" fields) (present? "position" fields')
  value : Entries.contains "value" fields = Entries.contains "value" fields'

/-- Two trees are similar if their fields are and their children are, one by one. What stands for a
node without being an object, or for children without being a list, counts by its kind. -/
inductive Similar : Json → Json → Prop
  | other {v w : Json} : OfOtherKind .object v w → Similar v w
  | leaf {fields fields' : List (String × Json)} : SimilarParts fields fields' →
      present? "children" fields = none → present? "children" fields' = none →
      Similar (.object fields) (.object fields')
  | unlisted {fields fields' : List (String × Json)} {children children' : Json} :
      SimilarParts fields fields' → present? "children" fields = some children →
      present? "children" fields' = some children' → OfOtherKind .array children children' →
      Similar (.object fields) (.object fields')
  | parent {fields fields' : List (String × Json)} {items items' : List Json} :
      SimilarParts fields fields' → present? "children" fields = some (.array items) →
      present? "children" fields' = some (.array items') → items.length = items'.length →
      (∀ item item', (item, item') ∈ items.zip items' → Similar item item') →
      Similar (.object fields) (.object fields')

theorem OfOtherKind.symm (h : OfOtherKind asked v w) : OfOtherKind asked w v :=
  ⟨h.same ▸ h.other, h.same.symm⟩

theorem OfOtherKind.ne_object (h : OfOtherKind .object v w) (fields : List (String × Json)) :
    v ≠ .object fields := by
  intro heq
  exact h.other (heq ▸ rfl)

theorem OfOtherKind.ne_array (h : OfOtherKind .array v w) (items : List Json) :
    v ≠ .array items := by
  intro heq
  exact h.other (heq ▸ rfl)

end Json

end TreeShape
