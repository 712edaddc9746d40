import TreeShape.Proofs.Checker.Places
import TreeShape.Proofs.Node.Encode
import TreeShape.Proofs.Source.Points
/- With a document the checker accepts just the positions of its regions. -/
namespace TreeShape

/-- A position has the ends of a region of the document, and the columns of its lines or none. -/
def Source.Matches (s : Source) (p : Position) : Prop :=
  ∃ a b region, a ≤ b ∧ b ≤ s.length ∧ s.positionBetween a b = .ok region ∧
    p.start = region.start ∧ p.stop = region.stop ∧ (p.indent = [] ∨ p.indent = region.indent)

namespace Source

variable {s : Source} {p region : Position} {a b : Nat}

/-- Columns that are as many as the lines and agree with them are those of the region. -/
theorem Between.indent_eq (hbetween : s.Between a b region)
    (hlength : p.indent.length = region.indent.length)
    (hindent : s.Indented (region.start.line + 1) p.indent) : p.indent = region.indent := by
  apply List.ext_getElem hlength
  intro index hleft hright
  have hcolumn := hbetween.indent index (by rw [← hbetween.indentLength]; exact hright)
  rw [List.getElem?_eq_getElem hright] at hcolumn
  exact (hindent index _ _ (List.getElem?_eq_getElem hleft) hcolumn.symm).symm

theorem Between.indented (hbetween : s.Between a b region) :
    s.Indented (region.start.line + 1) region.indent := by
  intro index column expected hcolumn hexpected
  obtain ⟨hlt, -⟩ := List.getElem?_eq_some_iff.mp hcolumn
  rw [hbetween.indentLength] at hlt
  rw [← hbetween.indent index hlt, hcolumn] at hexpected
  exact (Option.some.inj hexpected).symm

theorem WellFormed.matches_of_confirms (h : s.WellFormed) (hvalid : p.Valid)
    (hconfirms : s.Confirms p) : s.Matches p := by
  have hstart := agrees_iff.mp hconfirms.start
  have hstop := agrees_iff.mp hconfirms.stop
  have hwithin := (h.pointAt_eq_ok_iff.mp hstop).1
  obtain ⟨region, hbetween⟩ := h.exists_between hvalid.offsets hwithin
  have hsameStart : p.start = region.start := Except.ok.inj (hstart.symm.trans hbetween.start)
  have hsameStop : p.stop = region.stop := Except.ok.inj (hstop.symm.trans hbetween.stop)
  refine ⟨_, _, region, hvalid.offsets, hwithin, h.positionBetween_iff.mpr hbetween, hsameStart,
    hsameStop, ?_⟩
  -- A column whose line is missing would pass, but the number of columns rules it out: every line
  -- up to that of the end is there.
  rcases hvalid.lines with hempty | hlength
  · exact .inl hempty
  · right
    apply hbetween.indent_eq
    · rw [hlength, hbetween.indentLength, hsameStart, hsameStop]
    · rw [← hsameStart]
      exact hconfirms.indent

theorem WellFormed.valid_of_matches (h : s.WellFormed) (hmatches : s.Matches p) : p.Valid := by
  obtain ⟨a, b, region, hab, -, hregion, hstart, hstop, hindent⟩ := hmatches
  have hbetween := h.positionBetween_iff.mp hregion
  have hpoint := hbetween.start
  have hpoint' := hbetween.stop
  rw [← hstart] at hpoint
  rw [← hstop] at hpoint'
  apply h.valid_of_pointAt hab hpoint hpoint'
  · rcases hindent with hempty | hsame
    · simp [hempty]
    · rw [hsame]
      exact fun column hcolumn => (hbetween.indent_bounds h column hcolumn).1
  · rcases hindent with hempty | hsame
    · exact .inl hempty
    · right
      rw [hsame, hbetween.indentLength, hstart, hstop]

theorem WellFormed.confirms_of_matches (h : s.WellFormed) (hmatches : s.Matches p) :
    s.Confirms p := by
  obtain ⟨a, b, region, hab, -, hregion, hstart, hstop, hindent⟩ := hmatches
  have hbetween := h.positionBetween_iff.mp hregion
  refine ⟨?_, ?_, ?_⟩
  · rw [agrees_iff, hstart, h.offset_of_pointAt hbetween.start]
    exact hbetween.start
  · rw [agrees_iff, hstop, h.offset_of_pointAt hbetween.stop]
    exact hbetween.stop
  · rcases hindent with hempty | hsame
    · intro index column expected hcolumn
      simp [hempty] at hcolumn
    · rw [hsame, hstart]
      exact hbetween.indented

/-- A column for a line that the document does not have is the column of no region. -/
theorem WellFormed.lineIndent?_of_matches (h : s.WellFormed) (hmatches : s.Matches p) {index : Nat}
    (hindex : index < p.indent.length) :
    ∃ column, s.lineIndent? (p.start.line + 1 + index) = some column := by
  obtain ⟨a, b, region, -, -, hregion, hstart, -, hindent⟩ := hmatches
  have hbetween := h.positionBetween_iff.mp hregion
  rcases hindent with hempty | hsame
  · simp [hempty] at hindex
  · rw [hsame] at hindex
    refine ⟨region.indent[index], ?_⟩
    rw [hstart, ← hbetween.indent index (by rw [← hbetween.indentLength]; exact hindex)]
    exact List.getElem?_eq_getElem hindex

end Source

namespace Checker

/-- Nothing is found at a position or below it just if it matches the document. -/
theorem checkPosition_matches_iff {text : String} {fields : List (String × Json)} :
    (checkPosition (some (.ofText text)) (.object fields)).findings = [] ↔
      ∃ p, Json.HoldsPosition fields p ∧ (Source.ofText text).Matches p := by
  have hformed := Source.wellFormed_ofText text
  rw [checkPosition_findings_iff]
  constructor
  · rintro ⟨p, ⟨fields, ⟨⟩, hp⟩, hvalid, hsource⟩
    exact ⟨p, hp, hformed.matches_of_confirms hvalid (hsource _ rfl)⟩
  · rintro ⟨p, hp, hmatches⟩
    refine ⟨p, ⟨fields, rfl, hp⟩, hformed.valid_of_matches hmatches, ?_⟩
    rintro s ⟨⟩
    exact hformed.confirms_of_matches hmatches

/-- A checker that knows the document is silent at the position of a node just if the position is
that of a region, with the columns of its lines or none. A column for a line that the document does
not have never passes. -/
theorem sourced_position_exact (c : Checker) (text : String) (tree : Json) (address : List Nat)
    {fields : List (String × Json)}
    (hposition : tree.get? (nodePath address ++ [.key "position"]) = some (.object fields)) :
    let place := nodePath address ++ [.key "position"]
    let silent := ∀ d ∈ ((c.withSource text).check tree).diagnostics, ¬ d.Within place
    (silent ↔ ∃ p, Json.HoldsPosition fields p ∧ (Source.ofText text).Matches p) ∧
      ∀ p, Json.HoldsPosition fields p → ∀ index < p.indent.length,
        (Source.ofText text).lineIndent? (p.start.line + 1 + index) = none → ¬ silent := by
  intro place silent
  have hplace : ∀ step ∈ place, step.Plain := by
    intro step hstep
    rcases List.mem_append.mp hstep with hnode | hkey
    · exact plain_of_mem_nodePath address step hnode
    · rw [List.mem_singleton.mp hkey]
      decide
  rw [Json.get?_append] at hposition
  obtain ⟨node, hnode, hfield⟩ := Option.bind_eq_some_iff.mp hposition
  obtain ⟨outer, rfl, hget⟩ := Json.object_of_get?_key hfield
  have hpresent : Json.present? "position" outer = some (.object fields) :=
    Json.present?_eq_some_iff.mpr ⟨hget, by simp⟩
  have hexact : silent ↔ ∃ p, Json.HoldsPosition fields p ∧ (Source.ofText text).Matches p := by
    rw [← checkPosition_matches_iff]
    change (∀ d ∈ ((c.withSource text).check tree).diagnostics, ¬ d.Within place) ↔ _
    rw [silent_iff_diagnostics hplace, silent_nodePath (by simp) hnode, silent_position hpresent]
    rfl
  refine ⟨hexact, ?_⟩
  intro p hp index hindex hnone hsilent
  obtain ⟨q, hq, hmatches⟩ := hexact.mp hsilent
  cases hq.unique hp
  obtain ⟨column, hcolumn⟩ := (Source.wellFormed_ofText text).lineIndent?_of_matches hmatches hindex
  rw [hnone] at hcolumn
  cases hcolumn

/-- The region of both lines passes as the position of a child. -/
theorem sourced_position_exact_two_lines :
    let position := Position.mk ⟨1, 1, 0⟩ ⟨2, 4, 6⟩ [3]
    let child := Json.object [("position", position.toJson), ("type", .string "text")]
    let tree := Json.object [("children", .array [child]), ("type", .string "root")]
    tree.get? (nodePath [0] ++ [.key "position"]) = some position.toJson ∧
      ∀ d ∈ ((default.withSource "a\r\n  b").check tree).diagnostics,
        ¬ d.Within (nodePath [0] ++ [.key "position"]) := by
  intro position child tree
  have hposition : tree.get? (nodePath [0] ++ [.key "position"]) = some position.toJson := by rfl
  have hregion : (Source.ofText "a\r\n  b").positionBetween 0 6 = .ok position := by rfl
  obtain ⟨fields, hfields, hp⟩ := Position.writes_toJson (p := position) (by decide)
  refine ⟨hposition, ?_⟩
  rw [hfields] at hposition
  exact (sourced_position_exact default "a\r\n  b" tree [0] hposition).1.mpr
    ⟨position, hp, 0, 6, position, by decide, by decide, hregion, rfl, rfl, .inr rfl⟩

end Checker

end TreeShape
