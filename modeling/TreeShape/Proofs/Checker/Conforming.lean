import TreeShape.Proofs.Checker.Node
/- Without a document the checker accepts just the values that have the shape of a tree. -/
namespace TreeShape

namespace Checker

variable {c : Checker} {tree : Json}

theorem withSeverity_check_eq_nil_iff (severity : Severity) :
    (c.check tree).withSeverity severity = [] ↔ Free severity (c.checkNode tree).findings := by
  simp only [Report.withSeverity, check, List.filter_eq_nil_iff, List.mem_map, decide_eq_true_eq,
    forall_exists_index, and_imp, forall_apply_eq_imp_iff₂]
  rfl

theorem errors_check_eq_nil_iff :
    (c.check tree).errors = [] ↔ Free .error (c.checkNode tree).findings :=
  withSeverity_check_eq_nil_iff .error

/-- Two rules warn, and no other finding is a warning. -/
theorem warnings_eq_nil_iff (report : Report) :
    report.warnings = [] ↔
      report.hasRule .childOutsideParent = false ∧ report.hasRule .childrenOutOfOrder = false := by
  have hwarning : ∀ rule : Rule, rule.severity = .warning ↔
      rule = .childOutsideParent ∨ rule = .childrenOutOfOrder := by
    intro rule
    cases rule <;> simp [Rule.severity]
  simp only [Report.warnings, Report.withSeverity, Report.hasRule, List.filter_eq_nil_iff,
    List.any_eq_false, decide_eq_true_eq, Diagnostic.severity, hwarning, not_or]
  constructor
  · intro h
    exact ⟨fun d hd => (h d hd).1, fun d hd => (h d hd).2⟩
  · rintro ⟨houtside, hearly⟩ d hd
    exact ⟨houtside d hd, hearly d hd⟩

theorem nodeShape_iff {fields : List (String × Json)} (hsource : c.source = none) :
    (checkType fields = [] ∧ checkData fields = [] ∧
      (c.checkNodePosition fields).findings = []) ↔
      Json.NodeShape c.options.requirePositions fields := by
  rw [checkType_eq_nil_iff, checkData_eq_nil_iff, checkNodePosition_eq_nil_iff]
  simp only [hsource, Option.not_mem_none, false_implies, implies_true, and_true]
  constructor
  · rintro ⟨htype, hdata, hplaced, hposition⟩
    exact ⟨htype, hdata, hplaced, hposition⟩
  · rintro ⟨htype, hdata, hplaced, hposition⟩
    exact ⟨htype, hdata, hplaced, hposition⟩

theorem free_error_iff_conforms (hsource : c.source = none) (tree : Json) :
    Free .error (c.checkNode tree).findings ↔ tree.Conforms c.options.requirePositions := by
  induction tree using Json.node_induction with
  | step tree ih =>
      by_cases hobject : ∃ fields, tree = .object fields
      · obtain ⟨fields, rfl⟩ := hobject
        have hchildren : ∀ items, Json.present? "children" fields = some (.array items) →
            ((∀ item ∈ items, Free .error (c.checkNode item).findings) ↔
              ∀ item ∈ items, item.Conforms c.options.requirePositions) := by
          intro items hitems
          rw [Json.childItems_present hitems] at ih
          exact forall₂_congr ih
        rw [free_error_checkNode, Json.conforms_object_iff, ← nodeShape_iff hsource, and_assoc,
          and_assoc, exists_congr fun items => and_congr_right (hchildren items)]
      · constructor
        · exact fun h => absurd (fields_of_free_error h) hobject
        · rintro (⟨-, -⟩ | ⟨-, -, -⟩)
          · exact absurd ⟨_, rfl⟩ hobject
          · exact absurd ⟨_, rfl⟩ hobject

/-- Checking without a document decides whether a value has the shape of a tree. -/
instance (required : Bool) (tree : Json) : Decidable (tree.Conforms required) :=
  decidable_of_iff
    (((Checker.mk { CheckOptions.default with requirePositions := required } none).check
      tree).errors = [])
    (errors_check_eq_nil_iff.trans (free_error_iff_conforms rfl tree))

example : (Json.object [("type", .string "list"), ("data", .null),
    ("children", .array [.object [("type", .string "item")]])]).Conforms false := by decide

theorem isConforming_iff (report : Report) :
    report.isConforming = true ↔
      report.errors = [] ∧ (report.warningsAsErrors = false ∨ report.warnings = []) := by
  simp [Report.isConforming]

/-- A report with no more findings, which weighs warnings no more, conforms if the other does. -/
theorem isConforming_of_subset {first second : Report}
    (hfindings : ∀ d ∈ first.diagnostics, d ∈ second.diagnostics)
    (hweight : first.warningsAsErrors = true → second.warningsAsErrors = true)
    (h : second.isConforming = true) : first.isConforming = true := by
  have hsub : ∀ severity, second.withSeverity severity = [] → first.withSeverity severity = [] := by
    intro severity hnone
    rw [Report.withSeverity, List.filter_eq_nil_iff] at hnone ⊢
    exact fun d hd => hnone d (hfindings d hd)
  rw [isConforming_iff] at h ⊢
  refine ⟨hsub .error h.1, ?_⟩
  cases hstrict : first.warningsAsErrors with
  | false => exact .inl rfl
  | true =>
      right
      rcases h.2 with hlax | hnone
      · rw [hweight hstrict] at hlax
        cases hlax
      · exact hsub .warning hnone

/-- The findings without a document are no errors just if the tree has the shape of one, and the
report conforms just if, besides, no warning counts as an error. -/
theorem unsourced_check_exact (options : CheckOptions) (tree : Json) :
    let report := (Checker.mk options none).check tree
    (report.errors = [] ↔ tree.Conforms options.requirePositions) ∧
      (report.isConforming = true ↔
        tree.Conforms options.requirePositions ∧
          (options.warningsAsErrors = false ∨
            report.hasRule .childOutsideParent = false ∧
              report.hasRule .childrenOutOfOrder = false)) := by
  intro report
  have herrors : report.errors = [] ↔ tree.Conforms options.requirePositions :=
    errors_check_eq_nil_iff.trans (free_error_iff_conforms rfl tree)
  refine ⟨herrors, ?_⟩
  rw [isConforming_iff, herrors, warnings_eq_nil_iff]
  rfl

end Checker

end TreeShape
