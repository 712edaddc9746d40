import TreeShape.Proofs.Source.Points
/- Offsets of a document against its places: each offset has one line and column, and each line and
column that the document has is the place of one offset. -/
namespace TreeShape

namespace Source

variable {s : Source} {p : Point} {line column offset start : Nat}

/-- The last offset on a line: just before the next line, or at the end of the document. -/
def lineEnd (s : Source) (line : Nat) : Nat :=
  match s.lineStart? (line + 1) with
  | some next => next - 1
  | none => s.length

theorem offsetAt?_eq_some_iff :
    s.offsetAt? line column = some offset ↔
      ∃ start, s.lineStart? line = some start ∧ 1 ≤ column ∧ offset = start + (column - 1) ∧
        offset ≤ s.lineEnd line := by
  unfold offsetAt?
  rw [Option.bind_eq_bind, Option.bind_eq_some_iff]
  apply exists_congr
  intro start
  apply and_congr_right
  intro hstart
  change (if 1 ≤ column ∧ start + (column - 1) ≤ s.lineEnd line then some (start + (column - 1))
    else none) = some offset ↔ _
  constructor
  · intro h
    split at h
    · rename_i hfits
      cases h
      exact ⟨hfits.1, rfl, hfits.2⟩
    · cases h
  · rintro ⟨hcolumn, rfl, hend⟩
    rw [if_pos ⟨hcolumn, hend⟩]

theorem WellFormed.lineStart?_le (h : s.WellFormed) (hstart : s.lineStart? line = some start) :
    start ≤ s.length := by
  obtain ⟨found, hfound, rfl⟩ := lineStart?_eq_some_iff.mp hstart
  cases line with
  | zero => cases hfound
  | succ index => exact (h.ascending.bounds found (List.mem_of_getElem? hfound)).2.1

/-- The offsets up to the end of a line are those before the next line. -/
theorem WellFormed.le_lineEnd_iff (h : s.WellFormed) (hstart : s.lineStart? line = some start) :
    offset ≤ s.lineEnd line ↔
      offset ≤ s.length ∧ ∀ next, s.lineStart? (line + 1) = some next → offset < next := by
  unfold lineEnd
  split
  · rename_i next hnext
    -- The next line starts later, so taking one away from its start loses nothing.
    have hlater := h.lineStart?_lt (Nat.lt_succ_self line) hstart hnext
    have hbound := h.lineStart?_le hnext
    constructor
    · intro hle
      refine ⟨by omega, ?_⟩
      intro other hother
      cases Option.some.inj (hnext.symm.trans hother)
      omega
    · intro hbefore
      have := hbefore.2 next hnext
      omega
  · rename_i hnone
    constructor
    · intro hle
      refine ⟨hle, ?_⟩
      intro next hnext
      rw [hnone] at hnext
      cases hnext
    · intro hbefore
      exact hbefore.1

theorem WellFormed.offsetAt?_iff_onLine (h : s.WellFormed) :
    s.offsetAt? line column = some offset ↔
      offset ≤ s.length ∧ ∃ start, OnLine s line start offset ∧ column = offset - start + 1 := by
  rw [offsetAt?_eq_some_iff]
  constructor
  · rintro ⟨start, hstart, hcolumn, rfl, hend⟩
    obtain ⟨hlength, hbefore⟩ := (h.le_lineEnd_iff hstart).mp hend
    exact ⟨hlength, start, ⟨hstart, by omega, hbefore⟩, by omega⟩
  · rintro ⟨hlength, start, hline, rfl⟩
    have hreached := hline.reached
    refine ⟨start, hline.starts, by omega, by omega, ?_⟩
    exact (h.le_lineEnd_iff hline.starts).mpr ⟨hlength, hline.before⟩

/-- A line and column lead to an offset just if they are the place of the offset. -/
theorem WellFormed.offsetAt?_iff_pointAt (h : s.WellFormed) :
    s.offsetAt? line column = some offset ↔ s.pointAt offset = .ok ⟨line, column, offset⟩ := by
  rw [h.offsetAt?_iff_onLine, h.pointAt_eq_ok_iff]
  apply and_congr_right
  intro hle
  exact (and_iff_right rfl).symm

theorem WellFormed.agrees_iff_offsetAt? (h : s.WellFormed) :
    s.agrees p = true ↔ s.offsetAt? p.line p.column = some p.offset := by
  rw [agrees_iff, h.offsetAt?_iff_pointAt]

theorem pointAt_of_length_lt (h : s.length < offset) :
    s.pointAt offset = .error (.offsetOutOfBounds offset s.length) := by
  rw [pointAt, if_pos h]

/-- Offsets and places of a document are each other's inverse. An offset has a place just if it is no
later than the end; its line is there and starts no later, and its line and column lead back. A line
and column that lead to an offset are its place, and a point belongs to the document just if its line
and column lead to its offset. -/
theorem offsets_places_inverse (text : String) :
    let s := ofText text
    (∀ offset ≤ s.length, ∃ line start, s.OnLine line start offset ∧
        s.pointAt offset = .ok ⟨line, offset - start + 1, offset⟩ ∧
        s.offsetAt? line (offset - start + 1) = some offset) ∧
      (∀ offset, s.length < offset →
        s.pointAt offset = .error (.offsetOutOfBounds offset s.length)) ∧
      (∀ line column offset, s.offsetAt? line column = some offset →
        s.pointAt offset = .ok ⟨line, column, offset⟩) ∧
      ∀ p, s.agrees p = true ↔ s.offsetAt? p.line p.column = some p.offset := by
  intro s
  have h : s.WellFormed := wellFormed_ofText text
  refine ⟨?_, ?_, ?_, ?_⟩
  · intro offset hle
    obtain ⟨line, -, hline⟩ := h.onLine_linesUpTo offset
    have hoffset := h.offsetAt?_iff_onLine.mpr ⟨hle, line.start, hline, rfl⟩
    exact ⟨_, line.start, hline, h.offsetAt?_iff_pointAt.mp hoffset, hoffset⟩
  · intro offset hlt
    exact pointAt_of_length_lt hlt
  · intro line column offset hoffset
    exact h.offsetAt?_iff_pointAt.mp hoffset
  · intro p
    exact h.agrees_iff_offsetAt?

/-- The feed after a return, an empty line that a return ends, and an offset after the end. -/
theorem offsets_places_inverse_breaks :
    let s := ofText "a\r\n\rb"
    2 ≤ s.length ∧ s.length < 6 ∧
      (∃ line start, s.OnLine line start 2 ∧ s.pointAt 2 = .ok ⟨line, 2 - start + 1, 2⟩ ∧
        s.offsetAt? line (2 - start + 1) = some 2) ∧
      s.pointAt 6 = .error (.offsetOutOfBounds 6 5) ∧
      s.offsetAt? 2 1 = some 3 ∧ s.pointAt 3 = .ok ⟨2, 1, 3⟩ ∧ s.agrees ⟨2, 1, 3⟩ = true := by
  intro s
  obtain ⟨hwithin, houtside, hback, hagrees⟩ := offsets_places_inverse "a\r\n\rb"
  have hoffset : s.offsetAt? 2 1 = some 3 := by decide
  refine ⟨by decide, by decide, hwithin 2 (by decide), houtside 6 (by decide), hoffset, ?_, ?_⟩
  · exact hback 2 1 3 hoffset
  · exact (hagrees ⟨2, 1, 3⟩).mpr hoffset

end Source

end TreeShape
