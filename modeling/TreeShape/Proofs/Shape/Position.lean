import TreeShape.Node.Encode
/- Which point, indent and position a JSON value writes, and when a position is valid. -/
namespace TreeShape

namespace Json

variable {key : String} {fields : List (String × Json)} {v : Json} {m n : Nat}

theorem word?_eq_some_iff : v.word? = some n ↔ v = .nat n ∧ n < wordLimit := by
  constructor
  · intro h
    unfold word? at h
    split at h
    · split at h
      · cases h
        exact ⟨rfl, by assumption⟩
      · cases h
    · cases h
  · rintro ⟨rfl, hlt⟩
    change (if n < wordLimit then some n else none) = some n
    rw [if_pos hlt]

theorem nat_injective (h : nat m = nat n) : m = n := by
  simp only [nat, number.injEq, Number.int.injEq] at h
  exact Int.ofNat_inj.mp h

theorem present?_eq_some_iff :
    present? key fields = some v ↔ Entries.get? key fields = some v ∧ v ≠ .null := by
  unfold present?
  split
  · simp_all
  · rename_i h
    simp only [h, Option.some.injEq, reduceCtorEq, false_iff]
    rintro ⟨rfl, hne⟩
    exact hne rfl
  · rename_i w hnull h
    simp only [h, Option.some.injEq]
    constructor
    · rintro rfl
      exact ⟨rfl, fun hw => hnull hw⟩
    · exact fun hw => hw.1

theorem present?_eq_none_iff :
    present? key fields = none ↔
      Entries.get? key fields = none ∨ Entries.get? key fields = some .null := by
  unfold present?
  split <;> simp_all

theorem present?_of_get? {value : Option Json} (h : Entries.get? key fields = value)
    (hnull : value ≠ some .null) : present? key fields = value := by
  subst h
  cases hget : Entries.get? key fields with
  | none => exact present?_eq_none_iff.mpr (.inl hget)
  | some v =>
      refine present?_eq_some_iff.mpr ⟨hget, ?_⟩
      rintro rfl
      exact hnull hget

/-- The value of a field is a whole number that fits a word. -/
def Holds (key : String) (fields : List (String × Json)) (n : Nat) : Prop :=
  Entries.get? key fields = some (.nat n) ∧ n < wordLimit

theorem Holds.unique (hm : Holds key fields m) (hn : Holds key fields n) : m = n :=
  nat_injective (Option.some.inj (hm.1.symm.trans hn.1))

/-- An object writes a point by the coordinates it holds. -/
def WritesPoint (v : Json) (p : Point) : Prop :=
  ∃ fields, v = .object fields ∧
    Holds "line" fields p.line ∧ Holds "column" fields p.column ∧ Holds "offset" fields p.offset

theorem WritesPoint.unique {p q : Point} (hp : WritesPoint v p) (hq : WritesPoint v q) :
    p = q := by
  obtain ⟨pline, pcolumn, poffset⟩ := p
  obtain ⟨qline, qcolumn, qoffset⟩ := q
  obtain ⟨fields, rfl, hpLine, hpColumn, hpOffset⟩ := hp
  obtain ⟨fields', hfields, hqLine, hqColumn, hqOffset⟩ := hq
  cases hfields
  rw [Point.mk.injEq]
  exact ⟨hpLine.unique hqLine, hpColumn.unique hqColumn, hpOffset.unique hqOffset⟩

/-- An indent is written as a list of columns, as a single one, or not at all. -/
def WritesIndent : Option Json → List Nat → Prop
  | none, columns => columns = []
  | some (.array items), columns =>
    items = columns.map .nat ∧ ∀ column ∈ columns, column < wordLimit
  | some v, columns => ∃ column, v = .nat column ∧ column < wordLimit ∧ columns = [column]

theorem WritesIndent.unique {indent : Option Json} {first second : List Nat}
    (h : WritesIndent indent first) (h' : WritesIndent indent second) : first = second := by
  unfold WritesIndent at h h'
  split at h
  · rw [h, h']
  · exact (List.map_inj_right fun _ _ => nat_injective).mp (h.1.symm.trans h'.1)
  · obtain ⟨m, rfl, -, rfl⟩ := h
    obtain ⟨n, hn, -, rfl⟩ := h'
    rw [nat_injective hn]

theorem WritesIndent.fits {indent : Option Json} {columns : List Nat}
    (h : WritesIndent indent columns) : ∀ column ∈ columns, column < wordLimit := by
  unfold WritesIndent at h
  split at h
  · simp [h]
  · exact h.2
  · obtain ⟨column, -, hlt, rfl⟩ := h
    simpa using hlt

/-- The fields of a position: both points, which must be there, and the indent. -/
structure HoldsPosition (fields : List (String × Json)) (p : Position) : Prop where
  start : ∃ v, present? "start" fields = some v ∧ WritesPoint v p.start
  stop : ∃ v, present? "end" fields = some v ∧ WritesPoint v p.stop
  indent : WritesIndent (present? "indent" fields) p.indent

theorem HoldsPosition.unique {p q : Position} (hp : HoldsPosition fields p)
    (hq : HoldsPosition fields q) : p = q := by
  obtain ⟨pstart, pstop, pindent⟩ := p
  obtain ⟨qstart, qstop, qindent⟩ := q
  obtain ⟨v, hv, hpStart⟩ := hp.start
  obtain ⟨v', hv', hqStart⟩ := hq.start
  obtain ⟨w, hw, hpStop⟩ := hp.stop
  obtain ⟨w', hw', hqStop⟩ := hq.stop
  cases Option.some.inj (hv.symm.trans hv')
  cases Option.some.inj (hw.symm.trans hw')
  rw [Position.mk.injEq]
  exact ⟨hpStart.unique hqStart, hpStop.unique hqStop, hp.indent.unique hq.indent⟩

/-- An object writes a position by its fields. -/
def WritesPosition (v : Json) (p : Position) : Prop :=
  ∃ fields, v = .object fields ∧ HoldsPosition fields p

theorem WritesPosition.unique {p q : Position} (hp : WritesPosition v p)
    (hq : WritesPosition v q) : p = q := by
  obtain ⟨fields, rfl, hp⟩ := hp
  obtain ⟨fields', hfields, hq⟩ := hq
  cases hfields
  exact hp.unique hq

end Json

/-- One check after another passes just if both do. -/
theorem ShapeError.andThen_eq_ok_iff {first next : Except ShapeError Unit} :
    (first >>= fun _ => next) = .ok () ↔ first = .ok () ∧ next = .ok () := by
  cases first with
  | error e => simp [bind, Except.bind]
  | ok u => simp [bind, Except.bind]

namespace Position

/-- A position is valid if its coordinates are counted from one, its ends are in order, and it has
no column or one for each line after the first. -/
structure Valid (p : Position) : Prop where
  startLine : 1 ≤ p.start.line
  startColumn : 1 ≤ p.start.column
  stopLine : 1 ≤ p.stop.line
  stopColumn : 1 ≤ p.stop.column
  order : p.start.NotAfter p.stop
  offsets : p.start.offset ≤ p.stop.offset
  columns : ∀ column ∈ p.indent, 1 ≤ column
  lines : p.indent = [] ∨ p.indent.length = p.stop.line - p.start.line

/-- Points do not go backwards if they do so neither by lines and columns nor by offsets. -/
theorem not_backwards_iff {p q : Point} :
    ¬ (¬ p.NotAfter q ∨ q.offset < p.offset) ↔ p.NotAfter q ∧ p.offset ≤ q.offset := by
  rw [not_or, Decidable.not_not, Nat.not_lt]

theorem validate_point_iff {p : Point} : p.validate = .ok () ↔ 1 ≤ p.line ∧ 1 ≤ p.column := by
  unfold Point.validate
  split
  · simp; omega
  · split
    · simp; omega
    · simp; omega

theorem firstZero?_eq_none_iff {index : Nat} {columns : List Nat} :
    firstZero? index columns = none ↔ ∀ column ∈ columns, 1 ≤ column := by
  induction columns generalizing index with
  | nil => simp [firstZero?]
  | cons column rest ih =>
      unfold firstZero?
      split
      · simp; omega
      · rw [ih]
        simp; omega

theorem validate_eq_ok_iff {p : Position} : p.validate = .ok () ↔ p.Valid := by
  unfold validate
  rw [ShapeError.andThen_eq_ok_iff, ShapeError.andThen_eq_ok_iff, validate_point_iff, validate_point_iff]
  constructor
  · rintro ⟨hstart, hstop, h⟩
    split at h
    · cases h
    · rename_i horder
      split at h
      · cases h
      · rename_i hcolumns
        split at h
        · cases h
        · rename_i hlines
          obtain ⟨hpoints, hoffsets⟩ := not_backwards_iff.mp horder
          refine ⟨hstart.1, hstart.2, hstop.1, hstop.2, hpoints, hoffsets,
            firstZero?_eq_none_iff.mp hcolumns, ?_⟩
          by_cases hempty : p.indent = []
          · exact .inl hempty
          · exact .inr (Decidable.not_not.mp fun hne => hlines ⟨hempty, hne⟩)
  · intro h
    refine ⟨⟨h.startLine, h.startColumn⟩, ⟨h.stopLine, h.stopColumn⟩, ?_⟩
    have hcolumns : firstZero? 0 p.indent = none := firstZero?_eq_none_iff.mpr h.columns
    have hlines : ¬ (p.indent ≠ [] ∧ p.indent.length ≠ p.lineSpan - 1) := by
      rintro ⟨hne, hlength⟩
      exact hlength (h.lines.resolve_left hne)
    rw [if_neg (not_backwards_iff.mpr ⟨h.order, h.offsets⟩), hcolumns]
    exact if_neg hlines

end Position

end TreeShape
