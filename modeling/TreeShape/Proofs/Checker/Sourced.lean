import TreeShape.Proofs.Checker.Compare
import TreeShape.Proofs.Checker.Conforming
/- What a document adds to a check: points and columns that it does not confirm, and nothing else.
All that is found without it is found with it, in the same order. -/
namespace TreeShape

/-- The second list is the first with more findings in it, which break one of the rules. -/
inductive Extends (rules : List Rule) : List Finding → List Finding → Prop
  | nil : Extends rules [] []
  | keep {first second : List Finding} (f : Finding) : Extends rules first second →
      Extends rules (f :: first) (f :: second)
  | add {first second : List Finding} {f : Finding} : f.fault.rule ∈ rules →
      Extends rules first second → Extends rules first (f :: second)

namespace Extends

variable {rules : List Rule} {findings first second first' second' : List Finding}

theorem refl (rules : List Rule) (findings : List Finding) : Extends rules findings findings := by
  induction findings with
  | nil => exact .nil
  | cons f rest ih => exact .keep f ih

theorem of_breaks (h : Breaks rules findings) : Extends rules [] findings := by
  induction findings with
  | nil => exact .nil
  | cons f rest ih =>
      have hrest : Breaks rules rest := fun g hg => h g (List.mem_cons_of_mem f hg)
      exact .add (h f List.mem_cons_self) (ih hrest)

theorem append (h : Extends rules first first') (h' : Extends rules second second') :
    Extends rules (first ++ second) (first' ++ second') := by
  induction h with
  | nil => exact h'
  | keep f h ih => exact .keep f ih
  | add hf h ih => exact .add hf ih

theorem under (steps : Path) (h : Extends rules first second) :
    Extends rules (first.map (Finding.under steps)) (second.map (Finding.under steps)) := by
  induction h with
  | nil => exact .nil
  | keep f h ih => exact .keep _ ih
  | add hf h ih => exact .add hf ih

theorem compositional (rules : List Rule) : Compositional (Extends rules) where
  nil := .nil
  append := append
  under := under

theorem sublist (h : Extends rules first second) : first.Sublist second := by
  induction h with
  | nil => exact .slnil
  | keep f h ih => exact .cons_cons f ih
  | add hf h ih => exact .cons _ ih

/-- What is not in the first list breaks one of the rules. -/
theorem exists_perm (h : Extends rules first second) :
    ∃ added, second.Perm (first ++ added) ∧ Breaks rules added := by
  induction h with
  | nil => exact ⟨[], .nil, breaks_nil⟩
  | keep f h ih =>
      obtain ⟨added, hperm, hadded⟩ := ih
      exact ⟨added, hperm.cons f, hadded⟩
  | @add first second f hf h ih =>
      obtain ⟨added, hperm, hadded⟩ := ih
      exact ⟨f :: added, (hperm.cons f).trans List.perm_middle.symm,
        List.forall_mem_cons.mpr ⟨hf, hadded⟩⟩

end Extends

/-- The rules that only a document can break; an indent can also break its rule by itself. -/
def sourceRules : List Rule := [.pointMismatch, .invalidIndent]

/-- The same value is usable, and a document may add findings. -/
structure Checked.Extended {α : Type} (first second : Checked α) : Prop where
  value : first.value = second.value
  findings : Extends sourceRules first.findings second.findings

section Position

variable (source : Option Source)

/-- A point that the document does not confirm is used all the same. -/
theorem checkPoint_extended (name : String) (value : Option Json) :
    (checkPoint none name value).Extended (checkPoint source name value) := by
  unfold checkPoint
  split
  · exact ⟨rfl, .refl _ _⟩
  · simp only
    split
    · rename_i line column offset _ _ _
      have hadded : Breaks sourceRules (sourceFindings source ⟨line, column, offset⟩) :=
        (sourceFindings_breaks source ⟨line, column, offset⟩).mono (by decide)
      exact ⟨rfl, (Extends.refl _ _).append (.of_breaks hadded)⟩
    · exact ⟨rfl, .refl _ _⟩
  · exact ⟨rfl, .refl _ _⟩

/-- Columns that the document does not confirm are used all the same. -/
theorem checkIndentLines_extended (start stop : Point) (indent : List Nat) :
    (checkIndentLines none start stop indent).Extended
      (checkIndentLines source start stop indent) := by
  unfold checkIndentLines
  split
  · exact ⟨rfl, .refl _ _⟩
  · split
    · exact ⟨rfl, .refl _ _⟩
    · cases source with
      | none => exact ⟨rfl, .refl _ _⟩
      | some s =>
          have hadded : Breaks sourceRules (indentMismatches s 0 (start.line + 1) indent) :=
            (indentMismatches_breaks s 0 (start.line + 1) indent).mono (by decide)
          exact ⟨rfl, .of_breaks hadded⟩

theorem checkPosition_extended (v : Json) :
    (checkPosition none v).Extended (checkPosition source v) := by
  unfold checkPosition
  split
  · rename_i fields
    have hstart := checkPoint_extended source "start" (Json.present? "start" fields)
    have hstop := checkPoint_extended source "end" (Json.present? "end" fields)
    have hparts := ((hstart.findings.under [.key "start"]).append
      (hstop.findings.under [.key "end"])).append
      (.refl _ ((checkIndent (Json.present? "indent" fields)).findings.map
        (Finding.under [.key "indent"])))
    simp only [hstart.value, hstop.value]
    split
    · split
      · exact ⟨rfl, hparts.append (.refl _ _)⟩
      · rename_i start stop _ _ _
        have hlines := checkIndentLines_extended source start stop
          (checkIndent (Json.present? "indent" fields)).value
        refine ⟨?_, hparts.append (hlines.findings.under [.key "indent"])⟩
        simp only [hlines.value]
    · exact ⟨rfl, hparts⟩
  · exact ⟨rfl, .refl _ _⟩

end Position

namespace Checker

/-- A document adds findings in every part of a node, and changes no position. -/
theorem compare_extends (o : CheckOptions) (source : Option Source) :
    Compare (Extends sourceRules) ⟨o, none⟩ ⟨o, source⟩ where
  shape _ := .refl _ _
  place fields := by
    unfold checkNodePosition
    split
    · exact (checkPosition_extended source _).value
    · rfl
  position fields := by
    unfold checkNodePosition
    split
    · exact (checkPosition_extended source _).findings.under [.key "position"]
    · exact .refl _ _
  relation _ _ _ := .refl _ _
  hybrid _ := .refl _ _

/-- All that is found without a document is found with it, in the same order and in as many nodes.
What is added are points and columns that the document does not confirm, so that a tree which
conforms with the document conforms without it. -/
theorem source_adds_diagnostics (o : CheckOptions) (text : String) (tree : Json) :
    let c := Checker.mk o none
    let plain := c.check tree
    let sourced := (c.withSource text).check tree
    plain.diagnostics.Sublist sourced.diagnostics ∧
      (∃ added, sourced.diagnostics.Perm (plain.diagnostics ++ added) ∧
        ∀ d ∈ added, d.rule = .pointMismatch ∨ d.rule = .invalidIndent) ∧
      sourced.nodesChecked = plain.nodesChecked ∧
      (sourced.isConforming = true → plain.isConforming = true) := by
  intro c plain sourced
  have hrelated := (compare_extends o (some (.ofText text))).checkNode (Extends.compositional _) tree
  have hsublist : plain.diagnostics.Sublist sourced.diagnostics :=
    hrelated.findings.sublist.map Finding.diagnostic
  refine ⟨hsublist, ?_, hrelated.nodes.symm, ?_⟩
  · obtain ⟨added, hperm, hadded⟩ := hrelated.findings.exists_perm
    refine ⟨added.map Finding.diagnostic, ?_, ?_⟩
    · have hsame := hperm.map Finding.diagnostic
      rw [List.map_append] at hsame
      exact hsame
    · rw [List.forall_mem_map]
      intro f hf
      have hrule := hadded f hf
      simp only [sourceRules, List.mem_cons, List.not_mem_nil, or_false] at hrule
      exact hrule
  · have hplain : plain.warningsAsErrors = o.warningsAsErrors := rfl
    have hsourced : sourced.warningsAsErrors = o.warningsAsErrors := rfl
    exact isConforming_of_subset (fun d hd => hsublist.subset hd) (by rw [hplain, hsourced]; exact id)

/-- A node that takes up both lines of a document passes with the document, and so without it. -/
theorem source_adds_diagnostics_two_lines :
    let c := Checker.mk .default none
    let tree := Json.object [("position", (Position.mk ⟨1, 1, 0⟩ ⟨2, 4, 6⟩ [3]).toJson),
      ("type", .string "text")]
    ((c.withSource "a\r\n  b").check tree).isConforming = true ∧
      (c.check tree).isConforming = true := by
  intro c tree
  have hsourced : ((c.withSource "a\r\n  b").check tree).isConforming = true := by decide
  obtain ⟨-, -, -, hplain⟩ := source_adds_diagnostics .default "a\r\n  b" tree
  exact ⟨hsourced, hplain hsourced⟩

end Checker

end TreeShape
