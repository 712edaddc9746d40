import TreeShape.Proofs.Checker.Compare
import TreeShape.Proofs.Checker.Conforming
import TreeShape.Proofs.Checker.Regions
/- The options of a checker only choose among its findings: a rule that is left out is not reported,
and nothing else changes. So a tree that conforms under strict options conforms under laxer ones. -/
namespace TreeShape

namespace CheckOptions

/-- Whether a rule is checked; only four rules can be left out. -/
def checks (o : CheckOptions) : Rule → Bool
  | .missingPosition => o.requirePositions
  | .childrenOutOfOrder => o.checkSiblingOrder
  | .childOutsideParent => o.checkContainment
  | .hybridNode => o.reportHybridNodes
  | _ => true

/-- What is on in the options is on in the stricter ones. -/
structure Within (o stricter : CheckOptions) : Prop where
  requirePositions : o.requirePositions = true → stricter.requirePositions = true
  checkSiblingOrder : o.checkSiblingOrder = true → stricter.checkSiblingOrder = true
  checkContainment : o.checkContainment = true → stricter.checkContainment = true
  reportHybridNodes : o.reportHybridNodes = true → stricter.reportHybridNodes = true
  warningsAsErrors : o.warningsAsErrors = true → stricter.warningsAsErrors = true

theorem Within.checks {o stricter : CheckOptions} (h : o.Within stricter) {rule : Rule}
    (hrule : o.checks rule = true) : stricter.checks rule = true := by
  cases rule with
  | missingPosition => exact h.requirePositions hrule
  | childrenOutOfOrder => exact h.checkSiblingOrder hrule
  | childOutsideParent => exact h.checkContainment hrule
  | hybridNode => exact h.reportHybridNodes hrule
  | _ => rfl

theorem checks_shape (o : CheckOptions) : ∀ rule ∈ shapeRules, o.checks rule = true := by
  simp [shapeRules, checks]

theorem checks_position (o : CheckOptions) : ∀ rule ∈ positionRules, o.checks rule = true := by
  simp [positionRules, checks]

/-- The findings that are left when the other rules are left out. -/
def choose (o : CheckOptions) (findings : List Finding) : List Finding :=
  findings.filter fun f => o.checks f.fault.rule

variable {o : CheckOptions} {findings : List Finding}

theorem choose_append (first second : List Finding) :
    o.choose (first ++ second) = o.choose first ++ o.choose second :=
  List.filter_append first second

theorem choose_under (steps : Path) :
    o.choose (findings.map (Finding.under steps)) = (o.choose findings).map (Finding.under steps) := by
  rw [choose, List.filter_map]
  rfl

theorem choose_eq_self {rules : List Rule} (h : Breaks rules findings)
    (hrules : ∀ rule ∈ rules, o.checks rule = true) : o.choose findings = findings :=
  List.filter_eq_self.mpr fun f hf => hrules _ (h f hf)

/-- What is found under a condition is chosen if its rule is on. -/
theorem choose_guarded (o : CheckOptions) (fault : Fault) (condition : Prop)
    [Decidable condition] :
    (if o.checks fault.rule = true ∧ condition then [⟨[], fault⟩] else []) =
      o.choose (if true = true ∧ condition then [⟨[], fault⟩] else []) := by
  by_cases hcondition : condition
  · cases hrule : o.checks fault.rule <;> simp [choose, hcondition, hrule]
  · simp [choose, hcondition]

/-- One list of findings is chosen from another. -/
def Chooses (o : CheckOptions) (findings chosen : List Finding) : Prop := chosen = o.choose findings

theorem compositional_chooses (o : CheckOptions) : Compositional o.Chooses where
  nil := rfl
  append := by
    rintro _ _ _ _ rfl rfl
    exact (choose_append _ _).symm
  under := by
    rintro _ _ steps rfl
    exact (choose_under steps).symm

end CheckOptions

namespace Checker

/-- In every part of a node the options choose among what is found with every rule. -/
theorem compare_chooses (o : CheckOptions) (source : Option Source) (warningsAsErrors : Bool) :
    Compare o.Chooses ⟨.everyRule warningsAsErrors, source⟩ ⟨o, source⟩ where
  shape h := (CheckOptions.choose_eq_self h o.checks_shape).symm
  place fields := by
    unfold checkNodePosition
    split
    · rfl
    · rfl
  position fields := by
    unfold checkNodePosition
    split
    · exact (CheckOptions.choose_eq_self (breaks_under _ (checkPosition_breaks _ _))
        o.checks_position).symm
    · have hguarded := o.choose_guarded .missingPosition True
      simp only [and_true] at hguarded
      exact hguarded
  relation parent previous child := by
    unfold relationFindings
    simp only [CheckOptions.Chooses, CheckOptions.choose_append]
    congr 1
    · cases parent with
      | none => rfl
      | some parent => exact o.choose_guarded (.childOutsideParent child parent) _
    · cases previous with
      | none => rfl
      | some previous => exact o.choose_guarded (.childOutOfOrder child.start previous.start) _
  hybrid fields := o.choose_guarded .hybridNode _

/-- With some options a checker finds just what it finds with every rule, as far as those options ask
for it, in the same order and in as many nodes. What warnings weigh does not matter to this, and a
tree that conforms under stricter options conforms. -/
theorem options_choose_diagnostics (o : CheckOptions) (source : Option Source) (tree : Json) :
    let report (o : CheckOptions) := (Checker.mk o source).check tree
    (∀ w, (report o).diagnostics =
        (report (.everyRule w)).diagnostics.filter fun d => o.checks d.rule) ∧
      (∀ other, (report other).nodesChecked = (report o).nodesChecked) ∧
      (∀ w, (report { o with warningsAsErrors := w }).diagnostics = (report o).diagnostics) ∧
      ∀ stricter, o.Within stricter → (report stricter).isConforming = true →
        (report o).isConforming = true := by
  intro report
  have hchosen : ∀ o w, (report o).diagnostics =
      (report (.everyRule w)).diagnostics.filter fun d => o.checks d.rule := by
    intro o w
    have hfindings : _ = o.choose _ :=
      ((compare_chooses o source w).checkNode o.compositional_chooses tree).findings
    simp only [report, check, hfindings, CheckOptions.choose, List.filter_map]
    rfl
  have hnodes : ∀ o, (report (.everyRule true)).nodesChecked = (report o).nodesChecked := by
    intro o
    exact ((compare_chooses o source true).checkNode o.compositional_chooses tree).nodes
  refine ⟨hchosen o, ?_, ?_, ?_⟩
  · intro other
    rw [← hnodes other, hnodes o]
  · intro w
    rw [hchosen o true, hchosen { o with warningsAsErrors := w } true]
    rfl
  · intro stricter hwithin
    apply isConforming_of_subset ?_ hwithin.warningsAsErrors
    rw [hchosen o true, hchosen stricter true]
    intro d hd
    rw [List.mem_filter] at hd ⊢
    exact ⟨hd.1, hwithin.checks hd.2⟩

/-- Two nodes with nested positions pass under every option, and so by default. -/
theorem options_choose_diagnostics_default :
    let child := Json.object [("position", (Position.mk ⟨1, 2, 1⟩ ⟨2, 1, 3⟩ [1]).toJson),
      ("type", .string "text"), ("value", .null)]
    let tree := Json.object [("children", .array [child]),
      ("position", (Position.mk ⟨1, 1, 0⟩ ⟨2, 1, 3⟩ []).toJson), ("type", .string "root")]
    let strict := CheckOptions.everyRule true
    CheckOptions.default.Within strict ∧ ((Checker.mk strict none).check tree).isConforming = true ∧
      ((Checker.mk .default none).check tree).isConforming = true := by
  intro child tree strict
  have hwithin : CheckOptions.default.Within strict :=
    ⟨fun _ => rfl, fun _ => rfl, fun _ => rfl, fun _ => rfl, fun _ => rfl⟩
  have hstrict : ((Checker.mk strict none).check tree).isConforming = true := by decide
  obtain ⟨-, -, -, hlax⟩ := options_choose_diagnostics .default none tree
  exact ⟨hwithin, hstrict, hlax strict hwithin hstrict⟩

end Checker

end TreeShape
