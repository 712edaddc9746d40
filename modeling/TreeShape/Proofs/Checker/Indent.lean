import TreeShape.Proofs.Checker.Point
/- What checking an indent finds: nothing, just if every column is counted from one and there is one
for each later line, as the document has it. -/
namespace TreeShape

variable {columns : List Nat}

theorem column?_eq_some_iff {v : Json} {n : Nat} :
    column? v = some n ↔ v = .nat n ∧ n < Json.wordLimit ∧ 1 ≤ n := by
  simp [column?, Option.filter_eq_some_iff, Json.word?_eq_some_iff, and_assoc]

/-- The columns that an indent writes, all of them counted from one. -/
def Json.HasIndent (indent : Option Json) (columns : List Nat) : Prop :=
  Json.WritesIndent indent columns ∧ ∀ column ∈ columns, 1 ≤ column

/-- All entries are columns, or the first that is none is the only one reported. -/
theorem checkColumns_cases (index : Nat) (items : List Json) :
    (∃ columns, items = columns.map .nat ∧
      (∀ column ∈ columns, column < Json.wordLimit ∧ 1 ≤ column) ∧
      checkColumns index items = ⟨some columns, []⟩) ∨
    (∃ item ∈ items, column? item = none) ∧
      ∃ f : Finding, checkColumns index items = ⟨none, [f]⟩ := by
  induction items generalizing index with
  | nil => exact .inl ⟨[], rfl, by simp, rfl⟩
  | cons item rest ih =>
      unfold checkColumns
      cases hitem : column? item with
      | none => exact .inr ⟨⟨item, List.mem_cons_self, hitem⟩, _, rfl⟩
      | some column =>
          obtain ⟨rfl, hlt, hle⟩ := column?_eq_some_iff.mp hitem
          rcases ih (index + 1) with ⟨columns, rfl, hall, heq⟩ | ⟨⟨bad, hmem, hbad⟩, f, heq⟩
          · refine .inl ⟨column :: columns, rfl, ?_, by simp [heq]⟩
            intro n hn
            rcases List.mem_cons.mp hn with rfl | hlater
            · exact ⟨hlt, hle⟩
            · exact hall n hlater
          · exact .inr ⟨⟨bad, List.mem_cons_of_mem _ hmem, hbad⟩, f, by simp [heq]⟩

/-- An indent is read without a finding, or its columns are dropped and one finding tells why. -/
theorem checkIndent_cases (indent : Option Json) :
    (∃ columns, Json.HasIndent indent columns ∧ checkIndent indent = ⟨columns, []⟩) ∨
    (∀ columns, ¬ Json.HasIndent indent columns) ∧
      ∃ f : Finding, checkIndent indent = ⟨[], [f]⟩ := by
  unfold checkIndent
  split
  · exact .inl ⟨[], ⟨rfl, by simp⟩, rfl⟩
  · rename_i items
    rcases checkColumns_cases 0 items with ⟨columns, rfl, hall, heq⟩ | ⟨⟨bad, hmem, hbad⟩, f, heq⟩
    · refine .inl ⟨columns, ⟨⟨rfl, fun n hn => (hall n hn).1⟩, fun n hn => (hall n hn).2⟩, ?_⟩
      simp [heq]
    · refine .inr ⟨?_, f, by simp [heq]⟩
      rintro columns ⟨⟨rfl, hlt⟩, hle⟩
      obtain ⟨column, hcolumn, rfl⟩ := List.mem_map.mp hmem
      have hsome := column?_eq_some_iff.mpr ⟨rfl, hlt column hcolumn, hle column hcolumn⟩
      rw [hbad] at hsome
      cases hsome
  · rename_i v hv
    cases hcolumn : column? v with
    | some column =>
        obtain ⟨rfl, hlt, hle⟩ := column?_eq_some_iff.mp hcolumn
        refine .inl ⟨[column], ⟨⟨column, rfl, hlt, rfl⟩, ?_⟩, rfl⟩
        simpa using hle
    | none =>
        refine .inr ⟨?_, _, rfl⟩
        rintro columns ⟨hwrites, hpos⟩
        unfold Json.WritesIndent at hwrites
        split at hwrites
        · rename_i h
          cases h
        · rename_i items h
          exact hv items (Option.some.inj h)
        · rename_i w hw h
          obtain ⟨column, rfl, hlt, rfl⟩ := hwrites
          have hsome := column?_eq_some_iff.mpr ⟨rfl, hlt, hpos column List.mem_cons_self⟩
          rw [← Option.some.inj h, hcolumn] at hsome
          cases hsome

theorem checkIndent_of_hasIndent {indent : Option Json} (h : Json.HasIndent indent columns) :
    checkIndent indent = ⟨columns, []⟩ := by
  rcases checkIndent_cases indent with ⟨columns', h', heq⟩ | ⟨hnone, -⟩
  · rw [heq, h'.1.unique h.1]
  · exact absurd h (hnone columns)

theorem checkIndent_findings_iff {indent : Option Json} :
    (checkIndent indent).findings = [] ↔ ∃ columns, Json.HasIndent indent columns := by
  rcases checkIndent_cases indent with ⟨columns, h, heq⟩ | ⟨hnone, f, heq⟩
  · simp only [heq, true_iff]
    exact ⟨columns, h⟩
  · simp [heq, hnone]

theorem checkColumns_severe (index : Nat) (items : List Json) :
    Severe (checkColumns index items).findings := by
  induction items generalizing index with
  | nil => exact severe_nil
  | cons item rest ih =>
      unfold checkColumns
      split
      · exact severe_single rfl (by simp [Step.Plain])
      · exact ih (index + 1)

theorem checkIndent_severe (indent : Option Json) : Severe (checkIndent indent).findings := by
  unfold checkIndent
  split
  · exact severe_nil
  · exact checkColumns_severe 0 _
  · split
    · exact severe_nil
    · exact severe_single rfl (by simp)

theorem indentMismatches_severe (source : Source) (index line : Nat) (indent : List Nat) :
    Severe (indentMismatches source index line indent) := by
  induction indent generalizing index line with
  | nil => exact severe_nil
  | cons column rest ih =>
      unfold indentMismatches
      refine severe_append ?_ (ih (index + 1) (line + 1))
      split
      · split
        · exact severe_nil
        · exact severe_single rfl (by simp [Step.Plain])
      · exact severe_nil

/-- Columns agree with a document if each is the column of its line, where that line exists. -/
def Source.Indented (s : Source) (line : Nat) (indent : List Nat) : Prop :=
  ∀ index column expected, indent[index]? = some column →
    s.lineIndent? (line + index) = some expected → expected = column

theorem Source.indented_cons {s : Source} {line column : Nat} {rest : List Nat} :
    s.Indented line (column :: rest) ↔
      (∀ expected, s.lineIndent? line = some expected → expected = column) ∧
        s.Indented (line + 1) rest := by
  constructor
  · intro h
    refine ⟨fun expected hexpected => h 0 column expected rfl hexpected, ?_⟩
    intro index n expected hn hexpected
    rw [Nat.add_assoc, Nat.add_comm 1 index] at hexpected
    exact h (index + 1) n expected hn hexpected
  · rintro ⟨hfirst, hrest⟩ index n expected hn hexpected
    cases index with
    | zero =>
        cases Option.some.inj hn
        exact hfirst expected hexpected
    | succ index =>
        rw [Nat.add_comm index 1, ← Nat.add_assoc] at hexpected
        exact hrest index n expected hn hexpected

theorem indentMismatches_eq_nil_iff {source : Source} {index line : Nat} {indent : List Nat} :
    indentMismatches source index line indent = [] ↔ source.Indented line indent := by
  induction indent generalizing index line with
  | nil => simp [indentMismatches, Source.Indented]
  | cons column rest ih =>
      unfold indentMismatches
      rw [List.append_eq_nil_iff, ih, Source.indented_cons]
      cases hline : source.lineIndent? line with
      | none => simp
      | some expected => simp

section IndentLines

variable {source : Option Source} {start stop : Point} {indent : List Nat}

theorem checkIndentLines_value (h : indent = [] ∨ indent.length = stop.line - start.line) :
    (checkIndentLines source start stop indent).value = indent := by
  unfold checkIndentLines
  split
  · exact (List.isEmpty_iff.mp (by assumption)).symm
  · rename_i hne
    have hlength := h.resolve_left fun hnil => hne (by simp [hnil])
    rw [if_neg (by simp [hlength])]
    cases source with
    | none => rfl
    | some s => rfl

theorem checkIndentLines_findings_iff :
    (checkIndentLines source start stop indent).findings = [] ↔
      (indent = [] ∨ indent.length = stop.line - start.line) ∧
        ∀ s ∈ source, s.Indented (start.line + 1) indent := by
  unfold checkIndentLines
  split
  · rename_i hempty
    rw [List.isEmpty_iff.mp hempty]
    simp [Source.Indented]
  · rename_i hne
    have hne : indent ≠ [] := fun hnil => hne (by simp [hnil])
    split
    · rename_i hlength
      simp [hne, hlength]
    · rename_i hlength
      have hlength : indent.length = stop.line - start.line := Decidable.not_not.mp hlength
      cases source with
      | none => simp [hlength]
      | some s => simp [hlength, indentMismatches_eq_nil_iff]

theorem checkIndentLines_severe : Severe (checkIndentLines source start stop indent).findings := by
  unfold checkIndentLines
  split
  · exact severe_nil
  · split
    · exact severe_single rfl (by simp)
    · split
      · exact severe_nil
      · exact indentMismatches_severe _ _ _ _

end IndentLines

end TreeShape
