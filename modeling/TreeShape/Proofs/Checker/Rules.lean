import TreeShape.Proofs.Checker.Node
/- Which rules each part of a check can break: those for the position of a node, and those for what a
node must be apart from it. -/
namespace TreeShape

/-- The findings break no other rules than these. -/
def Breaks (rules : List Rule) (findings : List Finding) : Prop :=
  ∀ f ∈ findings, f.fault.rule ∈ rules

variable {rules more : List Rule} {findings first second : List Finding}

theorem breaks_nil : Breaks rules [] := by
  intro f hf
  cases hf

theorem breaks_single (rule : Rule) {path : Path} {fault : Fault} (hfault : fault.rule = rule)
    (hrule : rule ∈ rules) : Breaks rules [⟨path, fault⟩] := by
  intro f hf
  rw [List.mem_singleton.mp hf, hfault]
  exact hrule

theorem breaks_append (h : Breaks rules first) (h' : Breaks rules second) :
    Breaks rules (first ++ second) :=
  List.forall_mem_append.mpr ⟨h, h'⟩

theorem breaks_under (steps : Path) (h : Breaks rules findings) :
    Breaks rules (findings.map (Finding.under steps)) :=
  List.forall_mem_map.mpr h

theorem Breaks.mono (h : Breaks rules findings) (hrules : ∀ rule ∈ rules, rule ∈ more) :
    Breaks more findings := fun f hf => hrules _ (h f hf)

/-- The rules for what a node must be apart from its position. -/
def shapeRules : List Rule :=
  [.notANode, .missingType, .emptyType, .invalidType, .invalidData, .reservedDataKey,
    .invalidChildren]

/-- The rules for the position of a node. -/
def positionRules : List Rule :=
  [.invalidPosition, .missingPoint, .invalidPoint, .pointOutOfRange, .startAfterEnd, .invalidIndent,
    .pointMismatch]

theorem checkCoordinate_breaks (fields : List (String × Json)) (name : String) (least : Nat) :
    Breaks positionRules (checkCoordinate fields name least).findings := by
  unfold checkCoordinate
  split
  · exact breaks_single .invalidPoint rfl (by decide)
  · split
    · split
      · exact breaks_nil
      · exact breaks_single .pointOutOfRange rfl (by decide)
    · exact breaks_single .invalidPoint rfl (by decide)
    · exact breaks_single .invalidPoint rfl (by decide)

/-- Only a mismatch comes from comparing a point with the document. -/
theorem sourceFindings_breaks (source : Option Source) (p : Point) :
    Breaks [.pointMismatch] (sourceFindings source p) := by
  unfold sourceFindings
  split
  · exact breaks_nil
  · split
    · exact breaks_nil
    · split
      · exact breaks_single .pointMismatch rfl List.mem_cons_self
      · exact breaks_single .pointMismatch rfl List.mem_cons_self

theorem checkPoint_breaks (source : Option Source) (name : String) (value : Option Json) :
    Breaks positionRules (checkPoint source name value).findings := by
  unfold checkPoint
  split
  · exact breaks_single .missingPoint rfl (by decide)
  · rename_i fields
    have hcoordinates := breaks_append (breaks_append (checkCoordinate_breaks fields "line" 1)
      (checkCoordinate_breaks fields "column" 1)) (checkCoordinate_breaks fields "offset" 0)
    simp only
    split
    · exact breaks_append hcoordinates ((sourceFindings_breaks source _).mono (by decide))
    · exact hcoordinates
  · exact breaks_single .invalidPoint rfl (by decide)

theorem checkColumns_breaks (index : Nat) (items : List Json) :
    Breaks [.invalidIndent] (checkColumns index items).findings := by
  induction items generalizing index with
  | nil => exact breaks_nil
  | cons item rest ih =>
      unfold checkColumns
      split
      · exact breaks_single .invalidIndent rfl List.mem_cons_self
      · exact ih (index + 1)

theorem checkIndent_breaks (indent : Option Json) :
    Breaks [.invalidIndent] (checkIndent indent).findings := by
  unfold checkIndent
  split
  · exact breaks_nil
  · exact checkColumns_breaks 0 _
  · split
    · exact breaks_nil
    · exact breaks_single .invalidIndent rfl List.mem_cons_self

theorem indentMismatches_breaks (source : Source) (index line : Nat) (indent : List Nat) :
    Breaks [.invalidIndent] (indentMismatches source index line indent) := by
  induction indent generalizing index line with
  | nil => exact breaks_nil
  | cons column rest ih =>
      unfold indentMismatches
      refine breaks_append ?_ (ih (index + 1) (line + 1))
      split
      · split
        · exact breaks_nil
        · exact breaks_single .invalidIndent rfl List.mem_cons_self
      · exact breaks_nil

theorem checkIndentLines_breaks (source : Option Source) (start stop : Point) (indent : List Nat) :
    Breaks [.invalidIndent] (checkIndentLines source start stop indent).findings := by
  unfold checkIndentLines
  split
  · exact breaks_nil
  · split
    · exact breaks_single .invalidIndent rfl List.mem_cons_self
    · split
      · exact breaks_nil
      · exact indentMismatches_breaks _ _ _ _

theorem checkPosition_breaks (source : Option Source) (v : Json) :
    Breaks positionRules (checkPosition source v).findings := by
  unfold checkPosition
  split
  · rename_i fields
    have hindent : ∀ rule ∈ [Rule.invalidIndent], rule ∈ positionRules := by decide
    have hparts := breaks_append (breaks_append
      (breaks_under [.key "start"]
        (checkPoint_breaks source "start" (Json.present? "start" fields)))
      (breaks_under [.key "end"] (checkPoint_breaks source "end" (Json.present? "end" fields))))
      (breaks_under [.key "indent"]
        ((checkIndent_breaks (Json.present? "indent" fields)).mono hindent))
    simp only
    split
    · split
      · exact breaks_append hparts (breaks_single .startAfterEnd rfl (by decide))
      · exact breaks_append hparts
          (breaks_under [.key "indent"] ((checkIndentLines_breaks _ _ _ _).mono hindent))
    · exact hparts
  · exact breaks_single .invalidPosition rfl (by decide)

namespace Checker

theorem checkType_breaks (fields : List (String × Json)) :
    Breaks shapeRules (checkType fields) := by
  unfold checkType
  split
  · exact breaks_single .missingType rfl (by decide)
  · split
    · exact breaks_single .emptyType rfl (by decide)
    · exact breaks_nil
  · exact breaks_single .invalidType rfl (by decide)

theorem checkData_breaks (fields : List (String × Json)) :
    Breaks shapeRules (checkData fields) := by
  unfold checkData
  split
  · exact breaks_nil
  · split
    · exact breaks_single .reservedDataKey rfl (by decide)
    · exact breaks_nil
  · exact breaks_single .invalidData rfl (by decide)

end Checker

end TreeShape
