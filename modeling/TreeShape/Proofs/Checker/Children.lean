import Mathlib.Algebra.GroupWithZero.Nat
import TreeShape.Proofs.Checker.Places
/- How a report on a node is put together: from what is found in the node without its children, from
the report on each child, and from how the children stand to the node and to each other. -/
namespace TreeShape

/-- The text of the path to a child of the root. -/
def childRoot (index : Nat) : String := "$.children[" ++ toString index ++ "]"

namespace Diagnostic

/-- The same finding in a larger tree, where the text of another path stands for the `$` of its
own. -/
def rootedAt (root : String) (d : Diagnostic) : Diagnostic :=
  { d with path := root ++ String.ofList d.path.toList.tail }

/-- Which rule is broken, and where. -/
def summary (d : Diagnostic) : Rule × String := (d.rule, d.path)

end Diagnostic

theorem text_nodePath_single (index : Nat) : Path.text (nodePath [index]) = childRoot index := by
  rw [← String.toList_inj]
  simp [Path.toList_text, nodePath, Step.toList_text_key, Step.toList_text_index, childRoot,
    Nat.toString_eq_repr]

/-- What is found in a child is found under the path to the child. -/
theorem Finding.diagnostic_under (index : Nat) (f : Finding) :
    (f.under (nodePath [index])).diagnostic = f.diagnostic.rootedAt (childRoot index) := by
  have hpath : Path.text (nodePath [index] ++ f.path) =
      childRoot index ++ String.ofList f.path.text.toList.tail := by
    rw [← text_nodePath_single, ← String.toList_inj]
    simp [Path.toList_text]
  rw [diagnostic, under, hpath]
  rfl

theorem Finding.diagnostics_under (index : Nat) (findings : List Finding) :
    (findings.map (Finding.under (nodePath [index]))).map Finding.diagnostic =
      (findings.map Finding.diagnostic).map (Diagnostic.rootedAt (childRoot index)) := by
  rw [List.map_map, List.map_map]
  exact List.map_congr_left fun f _ => diagnostic_under index f

namespace Json

variable {key other : String} {fields : List (String × Json)}

theorem present?_erase_self : present? key (Entries.erase key fields) = none :=
  present?_eq_none_iff.mpr (.inl (Entries.get?_erase_self key fields))

theorem present?_erase_of_ne (h : other ≠ key) :
    present? other (Entries.erase key fields) = present? other fields := by
  rw [present?, Entries.get?_erase_of_ne h, present?]

end Json

namespace Checker

/-- The position of the last item that has one. -/
def lastPosition (c : Checker) (items : List Json) : Option Position :=
  items.foldl (fun last item => (c.checkNode item).position.or last) none

theorem lastPosition_concat (c : Checker) (items : List Json) (item : Json) :
    c.lastPosition (items ++ [item]) = (c.checkNode item).position.or (c.lastPosition items) := by
  rw [lastPosition, List.foldl_append]
  rfl

/-- How an item stands to the node above it and to the items before it. -/
def relationAt (c : Checker) (parent : Option Position) (items : List Json) (index : Nat) :
    List Finding :=
  (items[index]?.bind fun item => (c.checkNode item).position).elim []
    (c.relationFindings parent (c.lastPosition (items.take index)))

/-- What is found in items: in each what is found in it alone, and how it stands to others. -/
theorem checkItems_findings (c : Checker) (parent : Option Position) (before rest : List Json) :
    (c.checkItems parent (c.lastPosition before) before.length rest).findings =
      (rest.zipIdx before.length).flatMap fun (item, index) =>
        ((c.checkNode item).findings ++ c.relationAt parent (before ++ rest) index).map
          (Finding.under (nodePath [index])) := by
  -- The items before are carried along, since they tell which position is remembered.
  induction rest generalizing before with
  | nil => rfl
  | cons item rest ih =>
      have hlater := ih (before ++ [item])
      rw [lastPosition_concat, List.length_append, List.append_assoc] at hlater
      have hrelation : c.relationAt parent (before ++ item :: rest) before.length =
          (c.checkNode item).position.elim []
            (c.relationFindings parent (c.lastPosition before)) := by
        simp [relationAt]
      rw [checkItems_cons, List.zipIdx_cons, List.flatMap_cons]
      simp only [hrelation]
      exact congrArg _ hlater

theorem checkItems_nodes (c : Checker) (parent previous : Option Position) (index : Nat)
    (items : List Json) :
    (c.checkItems parent previous index items).nodes =
      (items.map fun item => (c.checkNode item).nodes).sum := by
  induction items generalizing previous index with
  | nil => rfl
  | cons item rest ih => rw [checkItems_cons, List.map_cons, List.sum_cons, ih]

/-- A child is found outside of its parent at most once, and then before its sibling at most once. -/
theorem relationFindings_sublist (c : Checker) (parent previous : Option Position)
    (child : Position) :
    ((c.relationFindings parent previous child).map fun f => (f.fault.rule, f.path)).Sublist
      [(.childOutsideParent, []), (.childrenOutOfOrder, [])] := by
  change List.Sublist _ ([(Rule.childOutsideParent, [])] ++ [(Rule.childrenOutOfOrder, [])])
  unfold relationFindings
  rw [List.map_append]
  apply List.Sublist.append
  · split
    · split
      · exact .refl _
      · exact List.nil_sublist _
    · exact List.nil_sublist _
  · split
    · split
      · exact .refl _
      · exact List.nil_sublist _
    · exact List.nil_sublist _

theorem relationAt_sublist (c : Checker) (parent : Option Position) (items : List Json)
    (index : Nat) :
    ((c.relationAt parent items index).map fun f => (f.fault.rule, f.path)).Sublist
      [(.childOutsideParent, []), (.childrenOutOfOrder, [])] := by
  unfold relationAt
  cases items[index]?.bind fun item => (c.checkNode item).position with
  | none => exact List.nil_sublist _
  | some position => exact relationFindings_sublist c parent _ position

/-- How an item stands to others is reported at the item. -/
theorem relationAt_summary (c : Checker) (parent : Option Position) (items : List Json)
    (index : Nat) :
    ((((c.relationAt parent items index).map (Finding.under (nodePath [index]))).map
      Finding.diagnostic).map Diagnostic.summary).Sublist
        [(.childOutsideParent, childRoot index), (.childrenOutOfOrder, childRoot index)] := by
  have hhere := (relationAt_sublist c parent items index).map
    fun found => (found.1, Path.text (nodePath [index] ++ found.2))
  simp only [List.map_map, List.map_cons, List.map_nil, List.append_nil,
    text_nodePath_single] at hhere ⊢
  exact hhere

/-- That a node is odd is reported at most once, at the node. -/
theorem hybridFindings_summary (c : Checker) (fields : List (String × Json)) :
    (((c.hybridFindings fields).map Finding.diagnostic).map Diagnostic.summary).Sublist
      [(.hybridNode, "$")] := by
  unfold hybridFindings
  split
  · exact .refl _
  · exact List.nil_sublist _

/-- Without its children a node has its other findings, and it is not odd. -/
theorem checkNode_erase (c : Checker) (fields : List (String × Json)) :
    (c.checkNode (.object (Entries.erase "children" fields))).findings =
      checkType fields ++ checkData fields ++ (c.checkNodePosition fields).findings := by
  have hother : ∀ key ≠ "children", Json.present? key (Entries.erase "children" fields) =
      Json.present? key fields := fun key hkey => Json.present?_erase_of_ne hkey
  have htype : Entries.get? "type" (Entries.erase "children" fields) = Entries.get? "type" fields :=
    Entries.get?_erase_of_ne (by decide) fields
  rw [checkNode_object, checkChildrenOf_absent Json.present?_erase_self]
  simp only [checkType, checkData, checkNodePosition, hybridFindings, Json.present?_erase_self, htype,
    hother "data" (by decide), hother "position" (by decide)]
  simp

/-- What is found in a node without its children is an error, and no hint. -/
theorem not_hybrid_of_mem_own {c : Checker} {fields : List (String × Json)} {f : Finding}
    (hf : f ∈ checkType fields ++ checkData fields ++ (c.checkNodePosition fields).findings) :
    f.fault.rule ≠ .hybridNode := by
  have hsevere := severe_append (severe_append (checkType_severe fields) (checkData_severe fields))
    (checkNodePosition_severe c fields)
  have herror := (hsevere f hf).1
  intro hrule
  rw [hrule] at herror
  cases herror

/-- What is reported on a node with a list of children is what is reported on it without them, and
then, child by child, what is reported on the child alone and at most a warning on where it lies and
one on its place among the others; at last it may be odd to have a value as well. -/
theorem check_composed (c : Checker) (fields : List (String × Json)) (items : List Json)
    (hchildren : Entries.get? "children" fields = some (.array items)) :
    let whole := c.check (.object fields)
    let own := c.check (.object (Entries.erase "children" fields))
    ∃ (related : Nat → List Diagnostic) (hybrid : List Diagnostic),
      whole.diagnostics = own.diagnostics ++
          (items.zipIdx.flatMap fun (item, index) =>
            (c.check item).diagnostics.map (Diagnostic.rootedAt (childRoot index)) ++
              related index) ++ hybrid ∧
        (∀ index, ((related index).map Diagnostic.summary).Sublist
          [(.childOutsideParent, childRoot index), (.childrenOutOfOrder, childRoot index)]) ∧
        (hybrid.map Diagnostic.summary).Sublist [(.hybridNode, "$")] ∧
        (∀ d ∈ own.diagnostics, d.rule ≠ .hybridNode) ∧
        whole.nodesChecked = 1 + (items.map fun item => (c.check item).nodesChecked).sum := by
  intro whole own
  have hlist : Json.present? "children" fields = some (.array items) :=
    Json.present?_eq_some_iff.mpr ⟨hchildren, by simp⟩
  have hown : own.diagnostics = (checkType fields ++ checkData fields ++
      (c.checkNodePosition fields).findings).map Finding.diagnostic := by
    rw [← checkNode_erase]
    rfl
  have hitems : (c.checkItems (c.checkNodePosition fields).value none 0 items).findings =
      items.zipIdx.flatMap fun (item, index) => ((c.checkNode item).findings ++
        c.relationAt (c.checkNodePosition fields).value items index).map
          (Finding.under (nodePath [index])) :=
    checkItems_findings c (c.checkNodePosition fields).value [] items
  refine ⟨fun index => ((c.relationAt (c.checkNodePosition fields).value items index).map
    (Finding.under (nodePath [index]))).map Finding.diagnostic,
    (c.hybridFindings fields).map Finding.diagnostic, ?_, ?_, ?_, ?_, ?_⟩
  · simp only [whole, check, checkNode_object, checkChildrenOf_list hlist, hitems, hown,
      List.map_append, List.map_flatMap, Finding.diagnostics_under]
  · exact relationAt_summary c (c.checkNodePosition fields).value items
  · exact hybridFindings_summary c fields
  · rw [hown, List.forall_mem_map]
    intro f hf
    exact not_hybrid_of_mem_own hf
  · change (c.checkNode (.object fields)).nodes = _
    rw [checkNode_object, checkChildrenOf_list hlist, checkItems_nodes, Nat.add_comm]
    rfl

/-- A node with a value has a child that is no node and a child with an empty type. -/
theorem check_composed_two_children :
    let items := [Json.nat 5, .object [("type", .string "")]]
    let fields := [("children", Json.array items), ("type", .string "root"), ("value", .null)]
    let report := default.check (.object fields)
    Entries.get? "children" fields = some (.array items) ∧ report.nodesChecked = 3 ∧
      ∃ (related : Nat → List Diagnostic) (hybrid : List Diagnostic),
        report.diagnostics =
          ⟨.notANode, "$.children[0]", "expected a node object, found a number"⟩ :: related 0 ++
            ⟨.emptyType, "$.children[1].type", "`type` must be a non-empty label"⟩ :: related 1 ++
            hybrid := by
  intro items fields report
  have hchildren : Entries.get? "children" fields = some (.array items) := by rfl
  obtain ⟨related, hybrid, hreport, -, -, -, hnodes⟩ :=
    check_composed default fields items hchildren
  refine ⟨hchildren, hnodes, related, hybrid, ?_⟩
  have hown : (default.check (.object (Entries.erase "children" fields))).diagnostics = [] := by
    decide
  have hfirst : (default.check (.nat 5)).diagnostics.map (Diagnostic.rootedAt (childRoot 0)) =
      [⟨.notANode, "$.children[0]", "expected a node object, found a number"⟩] := by decide
  have hsecond : (default.check (.object [("type", .string "")])).diagnostics.map
      (Diagnostic.rootedAt (childRoot 1)) =
        [⟨.emptyType, "$.children[1].type", "`type` must be a non-empty label"⟩] := by decide
  simpa [items, report, hown, hfirst, hsecond] using hreport

end Checker

end TreeShape
