import TreeShape.Position
/- Points are in a linear order by line, column and offset, and the box around some positions reaches
from the least of their starts to the greatest of their stops. -/
namespace TreeShape

namespace Point

variable {p q : Point}

/-- The line and column of the first point come before those of the second. -/
def Precedes (p q : Point) : Prop := p.line < q.line ∨ p.line = q.line ∧ p.column < q.column

theorem precedes_iff : p.Precedes q ↔ ¬ q.NotAfter p := by
  unfold Precedes NotAfter
  omega

theorem lt_iff :
    p < q ↔ p.line < q.line ∨ p.line = q.line ∧
      (p.column < q.column ∨ p.column = q.column ∧ p.offset < q.offset) := Iff.rfl

theorem le_iff_not_lt : p ≤ q ↔ ¬ q < p := Iff.rfl

theorem le_iff :
    p ≤ q ↔ p.line < q.line ∨ p.line = q.line ∧
      (p.column < q.column ∨ p.column = q.column ∧ p.offset ≤ q.offset) := by
  rw [le_iff_not_lt, lt_iff]
  omega

instance : Std.IsLinearOrder Point where
  le_refl p := by
    rw [le_iff]
    omega
  le_trans p q r := by
    rw [le_iff, le_iff, le_iff]
    omega
  le_antisymm p q := by
    obtain ⟨line, column, offset⟩ := p
    obtain ⟨line', column', offset'⟩ := q
    simp only [le_iff, mk.injEq]
    omega
  le_total p q := by
    rw [le_iff, le_iff]
    omega

instance : Min Point := ⟨Point.min⟩

instance : Max Point := ⟨Point.max⟩

instance : Std.LawfulOrderLeftLeaningMin Point where
  min_eq_left _ _ h := if_neg h
  min_eq_right _ _ h := if_pos (Decidable.not_not.mp h)

theorem not_lt_of_lt (h : p < q) : ¬ q < p := by
  rw [lt_iff] at h ⊢
  omega

instance : Std.LawfulOrderLeftLeaningMax Point where
  max_eq_left p q h := by
    by_cases hlt : q < p
    · exact if_pos hlt
    · obtain rfl := Std.le_antisymm h hlt
      exact ite_self q
  max_eq_right _ _ h := if_neg (not_lt_of_lt (Decidable.not_not.mp h))

end Point

namespace Position

variable {positions : List Position} {box p : Position} {f : Position → Point} {chosen : Point}

theorem foldl_min_eq_iff {first : Position} {rest : List Position} :
    rest.foldl (fun earliest p => earliest.min (f p)) (f first) = chosen ↔
      chosen ∈ (first :: rest).map f ∧ ∀ q ∈ (first :: rest).map f, chosen ≤ q := by
  rw [← List.min?_eq_some_iff, List.map_cons, List.min?_cons', List.foldl_map, Option.some_inj]
  rfl

theorem foldl_max_eq_iff {first : Position} {rest : List Position} :
    rest.foldl (fun latest p => latest.max (f p)) (f first) = chosen ↔
      chosen ∈ (first :: rest).map f ∧ ∀ q ∈ (first :: rest).map f, q ≤ chosen := by
  rw [← List.max?_eq_some_iff, List.map_cons, List.max?_cons', List.foldl_map, Option.some_inj]
  rfl

/-- A box around positions starts at the least of their starts and stops at the greatest of their
stops. -/
structure Bounds (positions : List Position) (box : Position) : Prop where
  start : box.start ∈ positions.map (·.start) ∧ ∀ q ∈ positions.map (·.start), box.start ≤ q
  stop : box.stop ∈ positions.map (·.stop) ∧ ∀ q ∈ positions.map (·.stop), q ≤ box.stop
  indent : box.indent = []

theorem Bounds.exists_start (h : Bounds positions box) :
    ∃ p ∈ positions, p.start = box.start := List.mem_map.mp h.start.1

theorem Bounds.exists_stop (h : Bounds positions box) :
    ∃ p ∈ positions, p.stop = box.stop := List.mem_map.mp h.stop.1

theorem Bounds.start_le (h : Bounds positions box) (hp : p ∈ positions) : box.start ≤ p.start :=
  h.start.2 _ (List.mem_map_of_mem hp)

theorem Bounds.le_stop (h : Bounds positions box) (hp : p ∈ positions) : p.stop ≤ box.stop :=
  h.stop.2 _ (List.mem_map_of_mem hp)

theorem Bounds.forward (h : Bounds positions box) (hall : ∀ p ∈ positions, p.start ≤ p.stop) :
    box.start ≤ box.stop := by
  obtain ⟨first, hfirst, hstart⟩ := h.exists_start
  rw [← hstart]
  exact Std.le_trans (hall first hfirst) (h.le_stop hfirst)

theorem boundingBox_eq_some_iff : boundingBox positions = some box ↔ Bounds positions box := by
  cases positions with
  | nil =>
      constructor
      · intro h
        cases h
      · intro h
        cases h.start.1
  | cons first rest =>
      obtain ⟨start, stop, indent⟩ := box
      simp only [boundingBox, Option.some_inj, mk.injEq, foldl_min_eq_iff, foldl_max_eq_iff]
      constructor
      · rintro ⟨hstart, hstop, hindent⟩
        exact ⟨hstart, hstop, hindent.symm⟩
      · intro h
        exact ⟨h.start, h.stop, h.indent.symm⟩

theorem exists_boundingBox (h : positions ≠ []) : ∃ box, boundingBox positions = some box := by
  cases positions with
  | nil => exact absurd rfl h
  | cons first rest => exact ⟨_, rfl⟩

end Position

end TreeShape
