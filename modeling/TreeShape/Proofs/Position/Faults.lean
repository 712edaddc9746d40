import TreeShape.Proofs.Checker.Columns
import TreeShape.Proofs.Node.Encode
/- Which rule of the checker a fault of a position breaks, and where; the checker reports it there. -/
namespace TreeShape

/-- The coordinate of a point of which an error tells. -/
inductive Point.Offends (p : Point) : ShapeError → String → Prop
  | line : p.line < 1 → Offends p (.invalidLine p.line) "line"
  | column : 1 ≤ p.line → p.column < 1 → Offends p (.invalidColumn p.column) "column"

theorem Point.offends_of_validate {p : Point} {e : ShapeError} (h : p.validate = .error e) :
    ∃ key, p.Offends e key := by
  unfold validate at h
  split at h
  · rename_i hline
    cases h
    exact ⟨_, .line hline⟩
  · rename_i hline
    split at h
    · rename_i hcolumn
      cases h
      exact ⟨_, .column (Nat.le_of_not_lt hline) hcolumn⟩
    · cases h

namespace Position

/-- The rule that is broken by that of which an error tells, and the place in the position. -/
inductive Offends (p : Position) : ShapeError → Rule → Path → Prop
  | start {e : ShapeError} {key : String} : p.start.Offends e key →
      Offends p e .pointOutOfRange [.key "start", .key key]
  | stop {e : ShapeError} {key : String} : p.start.validate = .ok () → p.stop.Offends e key →
      Offends p e .pointOutOfRange [.key "end", .key key]
  | order : p.start.validate = .ok () → p.stop.validate = .ok () →
      (¬ p.start.NotAfter p.stop ∨ p.stop.offset < p.start.offset) →
      Offends p (.startAfterEnd p.start p.stop) .startAfterEnd []
  | column {index column : Nat} : firstZero? 0 p.indent = some (index, column) →
      Offends p (.invalidIndent index column) .invalidIndent [.key "indent", .index index]
  | lines : p.start.validate = .ok () → p.stop.validate = .ok () → p.start.NotAfter p.stop →
      p.start.offset ≤ p.stop.offset → (∀ column ∈ p.indent, 1 ≤ column) → p.indent ≠ [] →
      p.indent.length ≠ p.stop.line - p.start.line →
      Offends p (.indentLength (p.stop.line - p.start.line) p.indent.length) .invalidIndent
        [.key "indent"]

variable {p : Position} {e : ShapeError} {rule : Rule} {place : Path}

theorem offends_of_validate (h : p.validate = .error e) : ∃ rule place, p.Offends e rule place := by
  unfold validate at h
  cases hstart : p.start.validate with
  | error cause =>
      rw [hstart] at h
      cases h
      obtain ⟨key, hkey⟩ := Point.offends_of_validate hstart
      exact ⟨_, _, .start hkey⟩
  | ok u =>
      cases hstop : p.stop.validate with
      | error cause =>
          rw [hstart, hstop] at h
          cases h
          obtain ⟨key, hkey⟩ := Point.offends_of_validate hstop
          exact ⟨_, _, .stop hstart hkey⟩
      | ok u =>
          rw [hstart, hstop] at h
          simp only [bind, Except.bind] at h
          split at h
          · rename_i horder
            cases h
            exact ⟨_, _, .order hstart hstop horder⟩
          · rename_i hforward
            obtain ⟨horder, hoffset⟩ := not_backwards_iff.mp hforward
            split at h
            · rename_i index column hzero
              cases h
              exact ⟨_, _, .column hzero⟩
            · rename_i hnone
              split at h
              · rename_i hlength
                cases h
                exact ⟨_, _, .lines hstart hstop horder hoffset
                  (firstZero?_eq_none_iff.mp hnone) hlength.1 hlength.2⟩
              · cases h

/-- The first zero among columns, with what comes before it. -/
theorem exists_of_firstZero? {start index column : Nat} {columns : List Nat}
    (h : firstZero? start columns = some (index, column)) :
    ∃ i, index = start + i ∧ columns[i]? = some column ∧ column < 1 ∧
      ∀ j < i, ∀ other, columns[j]? = some other → 1 ≤ other := by
  induction columns generalizing start with
  | nil => cases h
  | cons first rest ih =>
      unfold firstZero? at h
      split at h
      · rename_i hzero
        cases h
        exact ⟨0, rfl, rfl, hzero, fun j hj => absurd hj (Nat.not_lt_zero j)⟩
      · rename_i hpos
        obtain ⟨i, rfl, hcolumn, hzero, hbefore⟩ := ih h
        refine ⟨i + 1, by omega, hcolumn, hzero, ?_⟩
        intro j hj other hother
        cases j with
        | zero =>
            cases hother
            exact Nat.le_of_not_lt hpos
        | succ j => exact hbefore j (Nat.lt_of_succ_lt_succ hj) other hother

end Position

theorem checkCoordinate_of_small {fields : List (String × Json)} {name : String} {least n : Nat}
    (hn : Json.Holds name fields n) (hsmall : n < least) :
    checkCoordinate fields name least = ⟨none, [⟨[.key name], .coordinateTooSmall name least n⟩]⟩ := by
  have hword : Json.word? (.nat n) = some n := Json.word?_eq_some_iff.mpr ⟨rfl, hn.2⟩
  simp only [checkCoordinate, hn.1, hword, if_neg (Nat.not_le.mpr hsmall)]

/-- A coordinate below one is reported at the coordinate. -/
theorem exists_mem_checkPoint {source : Option Source} {name key : String} {v : Json} {p : Point}
    {e : ShapeError} (hv : v.WritesPoint p) (h : p.Offends e key) :
    ∃ f ∈ (checkPoint source name (some v)).findings,
      f.fault.rule = .pointOutOfRange ∧ f.path = [.key key] := by
  obtain ⟨fields, rfl, hline, hcolumn, -⟩ := hv
  have hcoordinates : ∀ f, f ∈ (checkCoordinate fields "line" 1).findings ++
      (checkCoordinate fields "column" 1).findings ++ (checkCoordinate fields "offset" 0).findings →
      f ∈ (checkPoint source name (some (.object fields))).findings := by
    intro f hf
    simp only [checkPoint]
    split
    · exact List.mem_append_left _ hf
    · exact hf
  cases h with
  | line hsmall =>
      refine ⟨⟨[.key "line"], .coordinateTooSmall "line" 1 p.line⟩, hcoordinates _ ?_, rfl, rfl⟩
      rw [checkCoordinate_of_small hline hsmall]
      simp
  | column _ hsmall =>
      refine ⟨⟨[.key "column"], .coordinateTooSmall "column" 1 p.column⟩, hcoordinates _ ?_, rfl, rfl⟩
      rw [checkCoordinate_of_small hcolumn hsmall]
      simp

section Position

variable {parts : List (String × Json)} {p : Position} {e : ShapeError} {rule : Rule} {place : Path}

theorem hasPoint_of_validate {value : Option Json} {q : Point}
    (h : ∃ v, value = some v ∧ v.WritesPoint q) (hq : q.validate = .ok ()) :
    Json.HasPoint value q := by
  obtain ⟨v, hv, hwrites⟩ := h
  obtain ⟨hline, hcolumn⟩ := Position.validate_point_iff.mp hq
  exact ⟨v, hv, hwrites, hline, hcolumn⟩

/-- A fault of a position is reported in the position, at its place, whatever else is reported. -/
theorem exists_mem_checkPosition (source : Option Source) (hp : Json.HoldsPosition parts p)
    (hindent : Json.present? "indent" parts = some p.indentJson) (h : p.Offends e rule place) :
    ∃ f ∈ (checkPosition source (.object parts)).findings, f.fault.rule = rule ∧ f.path = place := by
  cases h with
  | start hpoint =>
      obtain ⟨v, hv, hwrites⟩ := hp.start
      obtain ⟨f, hf, hrule, hpath⟩ := exists_mem_checkPoint hwrites hpoint
      rw [← hv] at hf
      exact ⟨_, mem_checkPosition_of_start hf, hrule, congrArg (_ :: ·) hpath⟩
  | stop _ hpoint =>
      obtain ⟨v, hv, hwrites⟩ := hp.stop
      obtain ⟨f, hf, hrule, hpath⟩ := exists_mem_checkPoint hwrites hpoint
      rw [← hv] at hf
      exact ⟨_, mem_checkPosition_of_stop hf, hrule, congrArg (_ :: ·) hpath⟩
  | order hstart hstop hback =>
      refine ⟨⟨[], .startAfterEnd p.start p.stop⟩, ?_, rfl, rfl⟩
      simp only [checkPosition, checkPoint_of_hasPoint (hasPoint_of_validate hp.start hstart),
        checkPoint_of_hasPoint (hasPoint_of_validate hp.stop hstop), if_pos hback]
      exact List.mem_append_right _ List.mem_cons_self
  | @column index column hzero =>
      obtain ⟨i, hi, hcolumn, hsmall, hbefore⟩ := Position.exists_of_firstZero? hzero
      have hitem : (p.indent.map Json.nat)[i]? = some (.nat column) := by
        rw [List.getElem?_map, hcolumn]
        rfl
      have hbad : ¬ (Json.nat column).IsColumn := by
        rintro ⟨n, hn, -, hle⟩
        rw [← Json.nat_injective hn] at hle
        omega
      have hgood : Json.ColumnsBefore (p.indent.map Json.nat) i := by
        intro j hj item hitem
        rw [List.getElem?_map] at hitem
        obtain ⟨other, hother, rfl⟩ := Option.map_eq_some_iff.mp hitem
        exact ⟨other, rfl, hp.indent.fits other (List.mem_of_getElem? hother),
          hbefore j hj other hother⟩
      have hf : ⟨[.index index], .notAColumn (.nat column)⟩ ∈
          (checkIndent (Json.present? "indent" parts)).findings := by
        rw [hindent]
        exact mem_checkColumns_iff.mpr ⟨i, _, hitem, hbad, hgood, by rw [hi]⟩
      exact ⟨_, mem_checkPosition_of_indent hf, rfl, rfl⟩
  | lines hstart hstop horder hoffset hcolumns hne hlength =>
      refine ⟨⟨[.key "indent"], .indentLength (p.stop.line - p.start.line) p.indent.length⟩, ?_, rfl,
        rfl⟩
      have hforward := Position.not_backwards_iff.mpr ⟨horder, hoffset⟩
      have hlines : checkIndentLines source p.start p.stop p.indent =
          ⟨[], [⟨[], .indentLength (p.stop.line - p.start.line) p.indent.length⟩]⟩ := by
        unfold checkIndentLines
        rw [if_neg (by simpa using hne), if_pos hlength]
      simp only [checkPosition, checkPoint_of_hasPoint (hasPoint_of_validate hp.start hstart),
        checkPoint_of_hasPoint (hasPoint_of_validate hp.stop hstop), if_neg hforward,
        checkIndent_of_hasIndent ⟨hp.indent, hcolumns⟩, hlines]
      exact List.mem_append_right _ List.mem_cons_self

end Position

end TreeShape
