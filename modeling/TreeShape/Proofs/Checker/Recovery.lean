import TreeShape.Proofs.Checker.Node
/- The position that is left of a node with faults: a valid one with the ends that are written, or none
if the ends cannot be used. -/
namespace TreeShape

namespace Json

/-- No point can be read: there is none, or it is no object, or one of its coordinates is not there or
out of range. -/
inductive UnusablePoint : Option Json → Prop
  | missing : UnusablePoint none
  | notObject {v : Json} : (∀ fields, v ≠ .object fields) → UnusablePoint (some v)
  | coordinate {fields : List (String × Json)} {key : String} {least : Nat} :
      (key, least) ∈ [("line", 1), ("column", 1), ("offset", 0)] →
      (∀ n, Holds key fields n → n < least) → UnusablePoint (some (.object fields))

theorem unusablePoint_of_lacks {value : Option Json} (h : ∀ p, ¬ HasPoint value p) :
    UnusablePoint value := by
  cases value with
  | none => exact .missing
  | some v =>
      by_cases hobject : ∃ fields, v = .object fields
      · obtain ⟨fields, rfl⟩ := hobject
        apply Classical.byContradiction
        intro husable
        have hcoordinate : ∀ key least, (key, least) ∈ [("line", 1), ("column", 1), ("offset", 0)] →
            ∃ n, Holds key fields n ∧ least ≤ n := by
          intro key least hmem
          apply Classical.byContradiction
          intro hnone
          exact husable (.coordinate hmem fun n hn =>
            Nat.lt_of_not_le fun hle => hnone ⟨n, hn, hle⟩)
        obtain ⟨line, hline, hlineLe⟩ := hcoordinate "line" 1 (by simp)
        obtain ⟨column, hcolumn, hcolumnLe⟩ := hcoordinate "column" 1 (by simp)
        obtain ⟨offset, hoffset, -⟩ := hcoordinate "offset" 0 (by simp)
        exact h ⟨line, column, offset⟩
          ⟨_, rfl, ⟨fields, rfl, hline, hcolumn, hoffset⟩, hlineLe, hcolumnLe⟩
      · exact .notObject fun fields hv => hobject ⟨fields, hv⟩

theorem UnusablePoint.lacks {value : Option Json} (h : UnusablePoint value) (p : Point) :
    ¬ HasPoint value p := by
  rintro ⟨v, hv, ⟨fields, rfl, hline, hcolumn, hoffset⟩, hlineLe, hcolumnLe⟩
  cases h with
  | missing => cases hv
  | notObject hobject =>
      cases hv
      exact hobject fields rfl
  | coordinate hkey hsmall =>
      cases hv
      simp only [List.mem_cons, Prod.mk.injEq, List.not_mem_nil, or_false] at hkey
      rcases hkey with ⟨rfl, rfl⟩ | ⟨rfl, rfl⟩ | ⟨rfl, rfl⟩
      · exact absurd (hsmall _ hline) (Nat.not_lt.mpr hlineLe)
      · exact absurd (hsmall _ hcolumn) (Nat.not_lt.mpr hcolumnLe)
      · exact absurd (hsmall _ hoffset) (Nat.not_lt_zero _)

/-- A value has no position of use: it is no object, or has no position that is one, or an end of it
cannot be read, or it starts after it ends. -/
inductive Unplaced : Json → Prop
  | notObject {v : Json} : (∀ fields, v ≠ .object fields) → Unplaced v
  | noPosition {fields : List (String × Json)} : present? "position" fields = none →
      Unplaced (.object fields)
  | positionNotObject {fields : List (String × Json)} {q : Json} :
      present? "position" fields = some q → (∀ parts, q ≠ .object parts) →
      Unplaced (.object fields)
  | unusablePoint {fields parts : List (String × Json)} {name : String} :
      present? "position" fields = some (.object parts) → name = "start" ∨ name = "end" →
      UnusablePoint (present? name parts) → Unplaced (.object fields)
  | backwards {fields parts : List (String × Json)} {start stop : Point} :
      present? "position" fields = some (.object parts) →
      HasPoint (present? "start" parts) start → HasPoint (present? "end" parts) stop →
      ¬ start.NotAfter stop ∨ stop.offset < start.offset → Unplaced (.object fields)

/-- A position that has the ends written in an object, and the columns written there unless it has
none. -/
structure HoldsEnds (parts : List (String × Json)) (p : Position) : Prop where
  start : HasPoint (present? "start" parts) p.start
  stop : HasPoint (present? "end" parts) p.stop
  indent : p.indent = [] ∨ WritesIndent (present? "indent" parts) p.indent

end Json

section Position

variable {source : Option Source} {parts : List (String × Json)} {start stop : Point}

/-- Of an indent no column is left, or all that are written, and then one for each line after the
first. -/
theorem kept_columns (source : Option Source) (start stop : Point) (indent : Option Json) :
    let kept := (checkIndentLines source start stop (checkIndent indent).value).value
    kept = [] ∨ Json.HasIndent indent kept ∧ kept.length = stop.line - start.line := by
  rcases checkIndent_cases indent with ⟨written, hwritten, heq⟩ | ⟨-, f, heq⟩
  · simp only [heq]
    by_cases hlength : written.length = stop.line - start.line
    · rw [checkIndentLines_value (.inr hlength)]
      exact .inr ⟨hwritten, hlength⟩
    · left
      unfold checkIndentLines
      split
      · rfl
      · rfl
  · simp only [heq]
    exact .inl rfl

/-- Whatever else is found, ends in order make a valid position. -/
theorem exists_checkPosition_value (source : Option Source)
    (hstart : Json.HasPoint (Json.present? "start" parts) start)
    (hstop : Json.HasPoint (Json.present? "end" parts) stop) (horder : start.NotAfter stop)
    (hoffset : start.offset ≤ stop.offset) :
    ∃ p, (checkPosition source (.object parts)).value = some p ∧ p.Valid ∧
      Json.HoldsEnds parts p := by
  have hforward := Position.not_backwards_iff.mpr ⟨horder, hoffset⟩
  obtain ⟨-, -, -, hline, hcolumn⟩ := id hstart
  obtain ⟨-, -, -, hline', hcolumn'⟩ := id hstop
  have hkept := kept_columns source start stop (Json.present? "indent" parts)
  refine ⟨⟨start, stop, _⟩, ?_, ⟨hline, hcolumn, hline', hcolumn', horder, hoffset, ?_, ?_⟩,
    ⟨hstart, hstop, hkept.imp_right fun h => h.1.1⟩⟩
  · simp only [checkPosition, checkPoint_of_hasPoint hstart, checkPoint_of_hasPoint hstop,
      if_neg hforward]
  · rcases hkept with hnone | ⟨hwritten, -⟩
    · simp [hnone]
    · exact hwritten.2
  · exact hkept.imp_right fun h => h.2

theorem checkPosition_value_of_unusable {name : String} (source : Option Source)
    (hname : name = "start" ∨ name = "end") (h : Json.UnusablePoint (Json.present? name parts)) :
    (checkPosition source (.object parts)).value = none := by
  have hnone : (checkPoint source name (Json.present? name parts)).value = none := by
    rcases checkPoint_cases source name (Json.present? name parts) with
      ⟨p, hp, -⟩ | ⟨-, findings, heq, -⟩
    · exact absurd hp (h.lacks p)
    · rw [heq]
  simp only [checkPosition]
  split
  · rename_i start stop hstart hstop
    rcases hname with rfl | rfl
    · rw [hstart] at hnone
      cases hnone
    · rw [hstop] at hnone
      cases hnone
  · rfl

theorem checkPosition_value_of_backwards (source : Option Source)
    (hstart : Json.HasPoint (Json.present? "start" parts) start)
    (hstop : Json.HasPoint (Json.present? "end" parts) stop)
    (h : ¬ start.NotAfter stop ∨ stop.offset < start.offset) :
    (checkPosition source (.object parts)).value = none := by
  simp only [checkPosition, checkPoint_of_hasPoint hstart, checkPoint_of_hasPoint hstop, if_pos h]

end Position

namespace Checker

variable {fields : List (String × Json)}

theorem position_checkNode (c : Checker) (fields : List (String × Json)) :
    (c.checkNode (.object fields)).position =
      (Json.present? "position" fields).bind fun q => (checkPosition c.source q).value := by
  rw [checkNode_object, checkNodePosition]
  cases Json.present? "position" fields with
  | none => rfl
  | some q => rfl

theorem position_of_unplaced (c : Checker) {v : Json} (h : v.Unplaced) :
    (c.checkNode v).position = none := by
  cases h with
  | notObject hv => rw [checkNode_other hv]
  | noPosition hnone => rw [position_checkNode, hnone, Option.bind_none]
  | positionNotObject hq hobject =>
      rw [position_checkNode, hq, Option.bind_some, checkPosition]
      exact hobject
  | unusablePoint hparts hname hpoint =>
      rw [position_checkNode, hparts, Option.bind_some,
        checkPosition_value_of_unusable c.source hname hpoint]
  | backwards hparts hstart hstop horder =>
      rw [position_checkNode, hparts, Option.bind_some,
        checkPosition_value_of_backwards c.source hstart hstop horder]

/-- A value that has ends of use has a valid position. -/
theorem exists_position_of_placed (c : Checker) {v : Json} (h : ¬ v.Unplaced) :
    ∃ fields parts p, v = .object fields ∧ Json.present? "position" fields = some (.object parts) ∧
      (c.checkNode v).position = some p ∧ p.Valid ∧ Json.HoldsEnds parts p := by
  have hpoint : ∀ {fields parts : List (String × Json)} {name : String},
      v = .object fields → Json.present? "position" fields = some (.object parts) →
      name = "start" ∨ name = "end" → ∃ p, Json.HasPoint (Json.present? name parts) p := by
    rintro fields parts name rfl hparts hname
    apply Classical.byContradiction
    intro hnone
    exact h (.unusablePoint hparts hname
      (Json.unusablePoint_of_lacks fun p hp => hnone ⟨p, hp⟩))
  by_cases hv : ∃ fields, v = .object fields
  · obtain ⟨fields, rfl⟩ := hv
    cases hq : Json.present? "position" fields with
    | none => exact absurd (.noPosition hq) h
    | some q =>
        by_cases hobject : ∃ parts, q = .object parts
        · obtain ⟨parts, rfl⟩ := hobject
          obtain ⟨start, hstart⟩ := hpoint rfl hq (.inl rfl)
          obtain ⟨stop, hstop⟩ := hpoint rfl hq (.inr rfl)
          obtain ⟨horder, hoffset⟩ := Position.not_backwards_iff.mp fun hback =>
            h (.backwards hq hstart hstop hback)
          obtain ⟨p, hp, hvalid, hends⟩ :=
            exists_checkPosition_value c.source hstart hstop horder hoffset
          refine ⟨fields, parts, p, rfl, hq, ?_, hvalid, hends⟩
          rw [position_checkNode, hq, Option.bind_some, hp]
        · exact absurd (.positionNotObject hq fun parts hparts => hobject ⟨parts, hparts⟩) h
  · exact absurd (.notObject fun fields hfields => hv ⟨fields, hfields⟩) h

/-- A position that checking a node leaves is valid, whatever was reported of it, and has the ends
and the columns that are written, or no columns; so its lines after the first can be counted. None
is left just if the node has no position of use. -/
theorem recovered_position (c : Checker) (v : Json) :
    (∀ p, (c.checkNode v).position = some p →
      p.validate = .ok () ∧ p.start.line ≤ p.stop.line ∧
        ∃ fields parts, v = .object fields ∧
          Json.present? "position" fields = some (.object parts) ∧
          (∃ w, Json.present? "start" parts = some w ∧ w.WritesPoint p.start) ∧
          (∃ w, Json.present? "end" parts = some w ∧ w.WritesPoint p.stop) ∧
          (p.indent = [] ∨ Json.WritesIndent (Json.present? "indent" parts) p.indent)) ∧
      ((c.checkNode v).position = none ↔ v.Unplaced) := by
  constructor
  · intro p hp
    have hplaced : ¬ v.Unplaced := by
      intro h
      rw [position_of_unplaced c h] at hp
      cases hp
    obtain ⟨fields, parts, q, hv, hparts, hq, hvalid, hends⟩ := exists_position_of_placed c hplaced
    cases hq.symm.trans hp
    obtain ⟨start, hstart, hwritesStart, -⟩ := hends.start
    obtain ⟨stop, hstop, hwritesStop, -⟩ := hends.stop
    refine ⟨Position.validate_eq_ok_iff.mpr hvalid, ?_, fields, parts, hv, hparts,
      ⟨start, hstart, hwritesStart⟩, ⟨stop, hstop, hwritesStop⟩, hends.indent⟩
    rcases hvalid.order with hlt | ⟨heq, -⟩
    · exact Nat.le_of_lt hlt
    · exact Nat.le_of_eq heq
  · refine ⟨?_, position_of_unplaced c⟩
    intro hnone
    apply Classical.byContradiction
    intro hplaced
    obtain ⟨_, _, p, -, -, hp, -⟩ := exists_position_of_placed c hplaced
    rw [hnone] at hp
    cases hp

end Checker

end TreeShape
