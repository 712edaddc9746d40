import TreeShape.Proofs.Checker.Rules
/- Two checkers on one tree. If what they find in each part of a node is related and they see the same
positions, then what they find in a whole tree is related. -/
namespace TreeShape

/-- A relation that stays when findings are put together and when they are seen from further up. -/
structure Compositional (R : List Finding → List Finding → Prop) : Prop where
  nil : R [] []
  append {first second first' second' : List Finding} :
    R first first' → R second second' → R (first ++ second) (first' ++ second')
  under {findings findings' : List Finding} (steps : Path) : R findings findings' →
    R (findings.map (Finding.under steps)) (findings'.map (Finding.under steps))

namespace Checker

variable {R : List Finding → List Finding → Prop} {c c' : Checker}

/-- The findings are related, and as many nodes are counted. -/
structure Outcome.Related (R : List Finding → List Finding → Prop) (first second : Outcome) :
    Prop where
  findings : R first.findings second.findings
  nodes : first.nodes = second.nodes

/-- The outcomes are related, and the same position is usable. -/
structure NodeOutcome.Related (R : List Finding → List Finding → Prop) (first second : NodeOutcome) :
    Prop extends Outcome.Related R first.toOutcome second.toOutcome where
  position : first.position = second.position

/-- What two checkers find in each part of a node is related, and they see the same position. -/
structure Compare (R : List Finding → List Finding → Prop) (c c' : Checker) : Prop where
  shape {findings : List Finding} : Breaks shapeRules findings → R findings findings
  place (fields : List (String × Json)) :
    (c.checkNodePosition fields).value = (c'.checkNodePosition fields).value
  position (fields : List (String × Json)) :
    R (c.checkNodePosition fields).findings (c'.checkNodePosition fields).findings
  relation (parent previous : Option Position) (child : Position) :
    R (c.relationFindings parent previous child) (c'.relationFindings parent previous child)
  hybrid (fields : List (String × Json)) : R (c.hybridFindings fields) (c'.hybridFindings fields)

theorem Compare.checkItems (h : Compare R c c') (hR : Compositional R) {items : List Json}
    (hitems : ∀ item ∈ items, (c.checkNode item).Related R (c'.checkNode item))
    (parent previous : Option Position) (index : Nat) :
    (c.checkItems parent previous index items).Related R
      (c'.checkItems parent previous index items) := by
  -- Both checkers remember the same position from one item to the next.
  induction items generalizing previous index with
  | nil => exact ⟨hR.nil, rfl⟩
  | cons item rest ih =>
      rw [List.forall_mem_cons] at hitems
      obtain ⟨hitem, hrest⟩ := hitems
      have hlater := ih hrest ((c'.checkNode item).position.or previous) (index + 1)
      have hrelation : R ((c'.checkNode item).position.elim [] (c.relationFindings parent previous))
          ((c'.checkNode item).position.elim [] (c'.relationFindings parent previous)) := by
        cases (c'.checkNode item).position with
        | none => exact hR.nil
        | some position => exact h.relation parent previous position
      rw [checkItems_cons, checkItems_cons, hitem.position]
      constructor
      · exact hR.append (hR.under _ (hR.append hitem.findings hrelation)) hlater.findings
      · simp only [hitem.nodes, hlater.nodes]

theorem Compare.checkChildrenOf (h : Compare R c c') (hR : Compositional R)
    {fields : List (String × Json)}
    (hbelow : ∀ item ∈ (Json.object fields).childItems,
      (c.checkNode item).Related R (c'.checkNode item)) (parent : Option Position) :
    (c.checkChildrenOf parent fields).Related R (c'.checkChildrenOf parent fields) := by
  cases hchildren : Json.present? "children" fields with
  | none =>
      rw [checkChildrenOf_absent hchildren, checkChildrenOf_absent hchildren]
      exact ⟨hR.nil, rfl⟩
  | some v =>
      by_cases hlist : ∃ items, v = .array items
      · obtain ⟨items, rfl⟩ := hlist
        rw [Json.childItems_present hchildren] at hbelow
        rw [checkChildrenOf_list hchildren, checkChildrenOf_list hchildren]
        exact h.checkItems hR hbelow parent none 0
      · have hother : ∀ items, v ≠ .array items := fun items hv => hlist ⟨items, hv⟩
        rw [checkChildrenOf_other hchildren hother, checkChildrenOf_other hchildren hother]
        exact ⟨h.shape (breaks_single .invalidChildren rfl (by decide)), rfl⟩

/-- What is related in each part of a node is related in every tree. -/
theorem Compare.checkNode (h : Compare R c c') (hR : Compositional R) (v : Json) :
    (c.checkNode v).Related R (c'.checkNode v) := by
  induction v using Json.node_induction with
  | step v ih =>
      by_cases hobject : ∃ fields, v = .object fields
      · obtain ⟨fields, rfl⟩ := hobject
        have hbelow := h.checkChildrenOf hR ih (c'.checkNodePosition fields).value
        rw [checkNode_object, checkNode_object, h.place fields]
        refine ⟨⟨?_, ?_⟩, rfl⟩
        · exact hR.append (hR.append (hR.append (hR.append (h.shape (checkType_breaks fields))
            (h.shape (checkData_breaks fields))) (h.position fields)) hbelow.findings)
            (h.hybrid fields)
        · simp only [hbelow.nodes]
      · have hother : ∀ fields, v ≠ .object fields := fun fields hv => hobject ⟨fields, hv⟩
        rw [checkNode_other hother, checkNode_other hother]
        exact ⟨⟨h.shape (breaks_single .notANode rfl (by decide)), rfl⟩, rfl⟩

end Checker

end TreeShape
