import TreeShape.Checker.Basic
import TreeShape.Proofs.Checker.Position
import TreeShape.Proofs.Shape.Conforms
/- What checking a node finds: its own faults, those of its children, and how the children stand to
each other, which are no errors. -/
namespace TreeShape

/-- None of the findings has a severity. -/
def Free (severity : Severity) (findings : List Finding) : Prop :=
  ∀ f ∈ findings, f.fault.rule.severity ≠ severity

theorem free_nil (severity : Severity) : Free severity [] := by
  intro f hf
  cases hf

theorem free_append {severity : Severity} {first second : List Finding} :
    Free severity (first ++ second) ↔ Free severity first ∧ Free severity second :=
  List.forall_mem_append

theorem free_under {severity : Severity} {findings : List Finding} (steps : Path) :
    Free severity (findings.map (Finding.under steps)) ↔ Free severity findings :=
  List.forall_mem_map

theorem free_error_iff_nil {findings : List Finding} (h : Severe findings) :
    Free .error findings ↔ findings = [] := by
  constructor
  · intro hfree
    exact List.eq_nil_iff_forall_not_mem.mpr fun f hf => hfree f hf (h f hf).1
  · rintro rfl
    exact free_nil .error

namespace Checker

variable {c : Checker} {parent previous : Option Position} {fields : List (String × Json)}

theorem checkChildrenOf_eq (c : Checker) (parent : Option Position)
    (fields : List (String × Json)) :
    c.checkChildrenOf parent fields =
      match Entries.get? "children" fields with
      | none => ⟨[], 0⟩
      | some v => c.checkChildren parent v := by
  induction fields with
  | nil => rfl
  | cons field rest ih =>
      obtain ⟨key, v⟩ := field
      rw [checkChildrenOf, Entries.get?]
      split
      · rfl
      · exact ih

theorem checkNode_object (c : Checker) (fields : List (String × Json)) :
    c.checkNode (.object fields) =
      { findings := checkType fields ++ checkData fields ++ (c.checkNodePosition fields).findings ++
          (c.checkChildrenOf (c.checkNodePosition fields).value fields).findings ++
          c.hybridFindings fields
        nodes := (c.checkChildrenOf (c.checkNodePosition fields).value fields).nodes + 1
        position := (c.checkNodePosition fields).value } := by
  rw [checkNode]

theorem checkNode_other {v : Json} (hv : ∀ fields, v ≠ .object fields) :
    c.checkNode v = { findings := [⟨[], .notANode v.kind⟩], nodes := 1, position := none } := by
  cases v with
  | object fields => exact absurd rfl (hv fields)
  | null => rfl
  | bool value => rfl
  | number value => rfl
  | string value => rfl
  | array items => rfl

theorem checkChildrenOf_absent (h : Json.present? "children" fields = none) :
    c.checkChildrenOf parent fields = ⟨[], 0⟩ := by
  rw [checkChildrenOf_eq]
  rcases Json.present?_eq_none_iff.mp h with h | h
  · rw [h]
  · rw [h]; rfl

theorem checkChildrenOf_list {items : List Json}
    (h : Json.present? "children" fields = some (.array items)) :
    c.checkChildrenOf parent fields = c.checkItems parent none 0 items := by
  rw [checkChildrenOf_eq, (Json.present?_eq_some_iff.mp h).1]; rfl

theorem checkChildrenOf_other {v : Json} (h : Json.present? "children" fields = some v)
    (hv : ∀ items, v ≠ .array items) :
    c.checkChildrenOf parent fields = ⟨[⟨[.key "children"], .invalidChildren v.kind⟩], 0⟩ := by
  obtain ⟨hget, hnull⟩ := Json.present?_eq_some_iff.mp h
  rw [checkChildrenOf_eq, hget]
  cases v with
  | null => exact absurd rfl hnull
  | array items => exact absurd rfl (hv items)
  | bool value => rfl
  | number value => rfl
  | string value => rfl
  | object fields => rfl

theorem checkType_severe (fields : List (String × Json)) : Severe (checkType fields) := by
  unfold checkType
  split
  · exact severe_single rfl (by simp)
  · split
    · exact severe_single rfl (by decide)
    · exact severe_nil
  · exact severe_single rfl (by decide)

theorem checkType_eq_nil_iff :
    checkType fields = [] ↔
      ∃ label, Entries.get? "type" fields = some (.string label) ∧ label ≠ "" := by
  unfold checkType
  split
  · simp_all
  · simp_all
  · simp_all

theorem checkData_severe (fields : List (String × Json)) : Severe (checkData fields) := by
  unfold checkData
  split
  · exact severe_nil
  · split
    · exact severe_single rfl (by decide)
    · exact severe_nil
  · exact severe_single rfl (by decide)

theorem checkData_eq_nil_iff :
    checkData fields = [] ↔ ∀ v, Json.present? "data" fields = some v →
      ∃ entries, v = .object entries ∧ Entries.get? "space" entries = none := by
  unfold checkData
  split
  · simp_all
  · rename_i entries heq
    cases hspace : Entries.get? "space" entries <;>
      simp_all [Entries.contains, reservedKey]
  · simp_all

theorem checkNodePosition_severe (c : Checker) (fields : List (String × Json)) :
    Severe (c.checkNodePosition fields).findings := by
  unfold checkNodePosition
  split
  · exact severe_under [.key "position"] (by decide) (checkPosition_severe c.source _)
  · simp only
    split
    · exact severe_single rfl (by simp)
    · exact severe_nil

theorem checkNodePosition_eq_nil_iff :
    (c.checkNodePosition fields).findings = [] ↔
      (c.options.requirePositions = true → Json.present? "position" fields ≠ none) ∧
        ∀ v, Json.present? "position" fields = some v →
          ∃ p, v.WritesPosition p ∧ p.Valid ∧ ∀ s ∈ c.source, s.Confirms p := by
  unfold checkNodePosition
  cases hposition : Json.present? "position" fields with
  | none => simp
  | some v => simp [checkPosition_findings_iff]

/-- How a child stands to others is found at the child itself, and is worth a warning. -/
theorem relationFindings_warn {child : Position} :
    ∀ f ∈ c.relationFindings parent previous child,
      f.path = [] ∧ f.fault.rule.severity = .warning := by
  intro f hf
  unfold relationFindings at hf
  rcases List.mem_append.mp hf with hf | hf
  · split at hf
    · split at hf
      · rw [List.mem_singleton.mp hf]
        exact ⟨rfl, rfl⟩
      · cases hf
    · cases hf
  · split at hf
    · split at hf
      · rw [List.mem_singleton.mp hf]
        exact ⟨rfl, rfl⟩
      · cases hf
    · cases hf

theorem relationFindings_eq_nil_iff {child : Position} :
    c.relationFindings parent previous child = [] ↔
      (c.options.checkContainment = true → ∀ p ∈ parent, p.encloses child = true) ∧
        (c.options.checkSiblingOrder = true → ∀ p ∈ previous, ¬ child.start < p.start) := by
  unfold relationFindings
  rw [List.append_eq_nil_iff]
  apply and_congr
  · cases parent with
    | none => simp
    | some p => simp
  · cases previous with
    | none => simp
    | some p => simp

theorem hybridFindings_hint :
    ∀ f ∈ c.hybridFindings fields, f.path = [] ∧ f.fault.rule.severity = .hint := by
  intro f hf
  unfold hybridFindings at hf
  split at hf
  · rw [List.mem_singleton.mp hf]
    exact ⟨rfl, rfl⟩
  · cases hf

theorem hybridFindings_congr {fields' : List (String × Json)}
    (hvalue : Entries.contains "value" fields = Entries.contains "value" fields')
    (hchildren : (Json.present? "children" fields).isSome =
      (Json.present? "children" fields').isSome) :
    c.hybridFindings fields = c.hybridFindings fields' := by
  rw [hybridFindings, hybridFindings, hvalue, hchildren]

theorem free_of_severity {severity other : Severity} {findings : List Finding}
    (h : ∀ f ∈ findings, f.path = [] ∧ f.fault.rule.severity = other) (hne : other ≠ severity) :
    Free severity findings := by
  intro f hf
  rw [(h f hf).2]
  exact hne

theorem checkItems_cons (c : Checker) (parent previous : Option Position) (index : Nat)
    (item : Json) (rest : List Json) :
    c.checkItems parent previous index (item :: rest) =
      { findings := ((c.checkNode item).findings ++
            (c.checkNode item).position.elim [] (c.relationFindings parent previous)).map
            (Finding.under [.key "children", .index index]) ++
          (c.checkItems parent ((c.checkNode item).position.or previous) (index + 1) rest).findings
        nodes := (c.checkNode item).nodes +
          (c.checkItems parent ((c.checkNode item).position.or previous) (index + 1) rest).nodes } := by
  rw [checkItems]
  cases (c.checkNode item).position with
  | none => rfl
  | some position => rfl

theorem free_error_checkItems (index : Nat) (items : List Json) :
    Free .error (c.checkItems parent previous index items).findings ↔
      ∀ item ∈ items, Free .error (c.checkNode item).findings := by
  induction items generalizing previous index with
  | nil => simp [checkItems, free_nil]
  | cons item rest ih =>
      have hrelation : Free .error
          ((c.checkNode item).position.elim [] (c.relationFindings parent previous)) := by
        cases (c.checkNode item).position with
        | none => exact free_nil _
        | some position => exact free_of_severity relationFindings_warn (by decide)
      rw [checkItems_cons]
      simp only [free_append, free_under, ih, List.forall_mem_cons, hrelation, and_true]

theorem free_error_checkChildrenOf :
    Free .error (c.checkChildrenOf parent fields).findings ↔
      Json.present? "children" fields = none ∨
        ∃ items, Json.present? "children" fields = some (.array items) ∧
          ∀ item ∈ items, Free .error (c.checkNode item).findings := by
  cases hchildren : Json.present? "children" fields with
  | none => simp [checkChildrenOf_absent hchildren, free_nil]
  | some v =>
      by_cases hlist : ∃ items, v = .array items
      · obtain ⟨items, rfl⟩ := hlist
        rw [checkChildrenOf_list hchildren, free_error_checkItems]
        simp
      · rw [checkChildrenOf_other hchildren fun items hv => hlist ⟨items, hv⟩]
        constructor
        · intro h
          exact absurd rfl (h _ List.mem_cons_self)
        · rintro (h | ⟨items, h, -⟩)
          · cases h
          · exact absurd ⟨items, Option.some.inj h⟩ hlist

theorem fields_of_free_error {v : Json} (h : Free .error (c.checkNode v).findings) :
    ∃ fields, v = .object fields := by
  apply Classical.byContradiction
  intro hnone
  rw [checkNode_other fun fields hv => hnone ⟨fields, hv⟩] at h
  exact h _ List.mem_cons_self rfl

/-- A node is free of errors just if each of its parts is, and each of its children. -/
theorem free_error_checkNode :
    Free .error (c.checkNode (.object fields)).findings ↔
      checkType fields = [] ∧ checkData fields = [] ∧ (c.checkNodePosition fields).findings = [] ∧
        (Json.present? "children" fields = none ∨
          ∃ items, Json.present? "children" fields = some (.array items) ∧
            ∀ item ∈ items, Free .error (c.checkNode item).findings) := by
  have hhybrid : Free .error (c.hybridFindings fields) :=
    free_of_severity hybridFindings_hint (by decide)
  rw [checkNode_object]
  simp only [free_append, free_error_checkChildrenOf, hhybrid, and_true,
    free_error_iff_nil (checkType_severe fields), free_error_iff_nil (checkData_severe fields),
    free_error_iff_nil (checkNodePosition_severe c fields), and_assoc]

theorem free_of_mem_checkItems {severity : Severity} {items : List Json} {index : Nat}
    (hfree : Free severity (c.checkItems parent previous index items).findings) :
    ∀ item ∈ items, Free severity (c.checkNode item).findings := by
  induction items generalizing previous index with
  | nil => simp
  | cons item rest ih =>
      rw [checkItems_cons, free_append, free_under, free_append] at hfree
      rw [List.forall_mem_cons]
      exact ⟨hfree.1.1, ih hfree.2⟩

theorem free_childItems {severity : Severity} {v : Json}
    (hfree : Free severity (c.checkNode v).findings) :
    Free severity (c.checkItems (c.checkNode v).position none 0 v.childItems).findings := by
  cases hitems : v.childItems with
  | nil => exact free_nil severity
  | cons item rest =>
      obtain ⟨fields, items, rfl, hget⟩ :=
        Json.exists_of_mem_childItems (hitems ▸ List.mem_cons_self (a := item) (l := rest))
      rw [Json.childItems_object hget] at hitems
      have hlist : Json.present? "children" fields = some (.array items) :=
        Json.present?_eq_some_iff.mpr ⟨hget, by simp⟩
      rw [checkNode_object, checkChildrenOf_list hlist, free_append, free_append, hitems] at hfree
      rw [checkNode_object]
      exact hfree.1.2

end Checker

end TreeShape
