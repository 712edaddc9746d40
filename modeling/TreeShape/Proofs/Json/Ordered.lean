import TreeShape.Json.Basic
import TreeShape.Proofs.Json.Entries
/- Values whose objects list their keys in order. -/
namespace TreeShape

namespace Json

variable {key : String} {fields : List (String × Json)} {v : Json}

/-- The keys of every object in a value increase. -/
inductive Ordered : Json → Prop
  | null : Ordered .null
  | bool (value : Bool) : Ordered (.bool value)
  | number (value : Number) : Ordered (.number value)
  | string (value : String) : Ordered (.string value)
  | array {items : List Json} : (∀ item ∈ items, Ordered item) → Ordered (.array items)
  | object {fields : List (String × Json)} : Entries.Sorted fields →
      (∀ field ∈ fields, Ordered field.2) → Ordered (.object fields)

theorem ordered_object_iff :
    (Json.object fields).Ordered ↔ Entries.Sorted fields ∧ ∀ field ∈ fields, field.2.Ordered := by
  constructor
  · rintro (_ | _ | _ | _ | _ | ⟨hkeys, hvalues⟩)
    exact ⟨hkeys, hvalues⟩
  · rintro ⟨hkeys, hvalues⟩
    exact .object hkeys hvalues

theorem ordered_array_iff {items : List Json} :
    (Json.array items).Ordered ↔ ∀ item ∈ items, item.Ordered := by
  constructor
  · rintro (_ | _ | _ | _ | hitems | _)
    exact hitems
  · exact .array

theorem Ordered.keys (h : (Json.object fields).Ordered) : Entries.Sorted fields :=
  (ordered_object_iff.mp h).1

theorem Ordered.of_get? (h : (Json.object fields).Ordered) (hv : Entries.get? key fields = some v) :
    v.Ordered :=
  (ordered_object_iff.mp h).2 _ (Entries.mem_of_get? hv)

theorem Ordered.of_mem {items : List Json} (h : (Json.array items).Ordered) (hv : v ∈ items) :
    v.Ordered :=
  ordered_array_iff.mp h v hv

end Json

end TreeShape
