import TreeShape.Proofs.Checker.Indent
/- What checking a position finds: nothing, just if a valid position is written that the document
confirms. -/
namespace TreeShape

/-- A document confirms a position if its points and its columns are those of the document. -/
structure Source.Confirms (s : Source) (p : Position) : Prop where
  start : s.agrees p.start = true
  stop : s.agrees p.stop = true
  indent : s.Indented (p.start.line + 1) p.indent

section Position

variable {source : Option Source} {v : Json} {p : Position}

theorem checkPosition_severe (source : Option Source) (v : Json) :
    Severe (checkPosition source v).findings := by
  unfold checkPosition
  split
  · rename_i fields
    have hparts := severe_append (severe_append
      (severe_under [.key "start"] (by decide)
        (checkPoint_severe source "start" (Json.present? "start" fields)))
      (severe_under [.key "end"] (by decide)
        (checkPoint_severe source "end" (Json.present? "end" fields))))
      (severe_under [.key "indent"] (by decide)
        (checkIndent_severe (Json.present? "indent" fields)))
    simp only
    split
    · split
      · exact severe_append hparts (severe_single rfl (by simp))
      · exact severe_append hparts (severe_under [.key "indent"] (by decide) checkIndentLines_severe)
    · exact hparts
  · exact severe_single rfl (by simp)

theorem hasPoint_start {fields : List (String × Json)} (hp : Json.HoldsPosition fields p)
    (hvalid : p.Valid) : Json.HasPoint (Json.present? "start" fields) p.start := by
  obtain ⟨v, hv, hwrites⟩ := hp.start
  exact ⟨v, hv, hwrites, hvalid.startLine, hvalid.startColumn⟩

theorem hasPoint_stop {fields : List (String × Json)} (hp : Json.HoldsPosition fields p)
    (hvalid : p.Valid) : Json.HasPoint (Json.present? "end" fields) p.stop := by
  obtain ⟨v, hv, hwrites⟩ := hp.stop
  exact ⟨v, hv, hwrites, hvalid.stopLine, hvalid.stopColumn⟩

theorem checkPosition_of_writes (hp : v.WritesPosition p) (hvalid : p.Valid)
    (hsource : ∀ s ∈ source, s.Confirms p) : checkPosition source v = ⟨some p, []⟩ := by
  obtain ⟨fields, rfl, hp⟩ := hp
  have hstart := sourceFindings_eq_nil_iff.mpr fun s hs => (hsource s hs).start
  have hstop := sourceFindings_eq_nil_iff.mpr fun s hs => (hsource s hs).stop
  have hlines := checkIndentLines_findings_iff.mpr
    ⟨hvalid.lines, fun s hs => (hsource s hs).indent⟩
  have horder := Position.not_backwards_iff.mpr ⟨hvalid.order, hvalid.offsets⟩
  simp only [checkPosition, checkPoint_of_hasPoint (hasPoint_start hp hvalid),
    checkPoint_of_hasPoint (hasPoint_stop hp hvalid),
    checkIndent_of_hasIndent ⟨hp.indent, hvalid.columns⟩, hstart, hstop, if_neg horder,
    checkIndentLines_value hvalid.lines, hlines]
  rfl

/-- Whatever comes of them, the parts of a position are checked first. -/
theorem parts_of_checkPosition {fields : List (String × Json)}
    (h : (checkPosition source (.object fields)).findings = []) :
    (checkPoint source "start" (Json.present? "start" fields)).findings = [] ∧
      (checkPoint source "end" (Json.present? "end" fields)).findings = [] ∧
      (checkIndent (Json.present? "indent" fields)).findings = [] := by
  simp only [checkPosition] at h
  split at h
  · split at h
    · simp at h
    · simp only [List.append_eq_nil_iff, List.map_eq_nil_iff] at h
      exact ⟨h.1.1.1, h.1.1.2, h.1.2⟩
  · simp only [List.append_eq_nil_iff, List.map_eq_nil_iff] at h
    exact ⟨h.1.1, h.1.2, h.2⟩

theorem mem_checkPosition_of_part {fields : List (String × Json)} {f : Finding}
    (hf : f ∈ (checkPoint source "start" (Json.present? "start" fields)).findings.map
        (Finding.under [.key "start"]) ++
      (checkPoint source "end" (Json.present? "end" fields)).findings.map
        (Finding.under [.key "end"]) ++
      (checkIndent (Json.present? "indent" fields)).findings.map (Finding.under [.key "indent"])) :
    f ∈ (checkPosition source (.object fields)).findings := by
  simp only [checkPosition]
  split
  · split
    · exact List.mem_append_left _ hf
    · exact List.mem_append_left _ hf
  · exact hf

theorem mem_checkPosition_of_start {fields : List (String × Json)} {f : Finding}
    (hf : f ∈ (checkPoint source "start" (Json.present? "start" fields)).findings) :
    f.under [.key "start"] ∈ (checkPosition source (.object fields)).findings :=
  mem_checkPosition_of_part
    (List.mem_append_left _ (List.mem_append_left _ (List.mem_map_of_mem hf)))

theorem mem_checkPosition_of_stop {fields : List (String × Json)} {f : Finding}
    (hf : f ∈ (checkPoint source "end" (Json.present? "end" fields)).findings) :
    f.under [.key "end"] ∈ (checkPosition source (.object fields)).findings :=
  mem_checkPosition_of_part
    (List.mem_append_left _ (List.mem_append_right _ (List.mem_map_of_mem hf)))

theorem mem_checkPosition_of_indent {fields : List (String × Json)} {f : Finding}
    (hf : f ∈ (checkIndent (Json.present? "indent" fields)).findings) :
    f.under [.key "indent"] ∈ (checkPosition source (.object fields)).findings :=
  mem_checkPosition_of_part (List.mem_append_right _ (List.mem_map_of_mem hf))

theorem writes_of_checkPosition {fields : List (String × Json)}
    (h : (checkPosition source (.object fields)).findings = []) :
    ∃ p, Json.HoldsPosition fields p ∧ p.Valid ∧ ∀ s ∈ source, s.Confirms p := by
  obtain ⟨hstart, hstop, hindent⟩ := parts_of_checkPosition h
  obtain ⟨start, hasStart, hstartSource⟩ := checkPoint_findings_iff.mp hstart
  obtain ⟨stop, hasStop, hstopSource⟩ := checkPoint_findings_iff.mp hstop
  obtain ⟨columns, hasIndent⟩ := checkIndent_findings_iff.mp hindent
  simp only [checkPosition, checkPoint_of_hasPoint hasStart, checkPoint_of_hasPoint hasStop,
    checkIndent_of_hasIndent hasIndent] at h
  split at h
  · simp at h
  · rename_i horder
    simp only [List.append_eq_nil_iff, List.map_eq_nil_iff] at h
    obtain ⟨hlines, hlinesSource⟩ := checkIndentLines_findings_iff.mp h.2
    obtain ⟨v, hv, hwritesStart, hline, hcolumn⟩ := hasStart
    obtain ⟨w, hw, hwritesStop, hline', hcolumn'⟩ := hasStop
    refine ⟨⟨start, stop, columns⟩, ⟨⟨v, hv, hwritesStart⟩, ⟨w, hw, hwritesStop⟩, hasIndent.1⟩,
      ⟨hline, hcolumn, hline', hcolumn', ?_, ?_, hasIndent.2, hlines⟩, ?_⟩
    · exact Decidable.not_not.mp fun hnot => horder (.inl hnot)
    · exact Nat.le_of_not_lt fun hlt => horder (.inr hlt)
    · exact fun s hs => ⟨hstartSource s hs, hstopSource s hs, hlinesSource s hs⟩

theorem checkPosition_findings_iff :
    (checkPosition source v).findings = [] ↔
      ∃ p, v.WritesPosition p ∧ p.Valid ∧ ∀ s ∈ source, s.Confirms p := by
  constructor
  · intro h
    cases v with
    | object fields =>
        obtain ⟨p, hp, hvalid, hsource⟩ := writes_of_checkPosition h
        exact ⟨p, ⟨fields, rfl, hp⟩, hvalid, hsource⟩
    | null => cases h
    | bool value => cases h
    | number value => cases h
    | string value => cases h
    | array items => cases h
  · rintro ⟨p, hp, hvalid, hsource⟩
    rw [checkPosition_of_writes hp hvalid hsource]

end Position

end TreeShape
