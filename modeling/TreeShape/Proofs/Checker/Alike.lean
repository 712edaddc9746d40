import TreeShape.Proofs.Checker.Conforming
import TreeShape.Proofs.Checker.Rules
import TreeShape.Proofs.Node.Decode
/- Two values that write the same node are checked alike, whatever is checked: as many nodes are
counted and the same rules are broken in the same order. So a tree may be checked before or after it
is decoded. -/
namespace TreeShape

/-- The rules that findings break, in order. -/
def rulesOf (findings : List Finding) : List Rule := findings.map (·.fault.rule)

theorem rulesOf_append (first second : List Finding) :
    rulesOf (first ++ second) = rulesOf first ++ rulesOf second :=
  List.map_append

theorem rulesOf_under (steps : Path) (findings : List Finding) :
    rulesOf (findings.map (Finding.under steps)) = rulesOf findings := by
  rw [rulesOf, List.map_map]
  rfl

/-- The same value is usable and the same rules are broken. -/
structure Checked.Alike {α : Type} (first second : Checked α) : Prop where
  value : first.value = second.value
  rules : rulesOf first.findings = rulesOf second.findings

section Position

variable {fields : List (String × Json)} {v w : Json} {name : String} {least n : Nat} {p : Point}

theorem checkCoordinate_of_holds (h : Json.Holds name fields n) :
    checkCoordinate fields name least =
      if least ≤ n then ⟨some n, []⟩
      else ⟨none, [⟨[.key name], .coordinateTooSmall name least n⟩]⟩ := by
  unfold checkCoordinate
  rw [h.1]
  simp only [Json.word?_eq_some_iff.mpr ⟨rfl, h.2⟩]

theorem checkPoint_congr (source : Option Source) (name : String) (hv : v.WritesPoint p)
    (hw : w.WritesPoint p) :
    checkPoint source name (some v) = checkPoint source name (some w) := by
  obtain ⟨fields, rfl, hline, hcolumn, hoffset⟩ := hv
  obtain ⟨fields', rfl, hline', hcolumn', hoffset'⟩ := hw
  simp only [checkPoint, checkCoordinate_of_holds hline, checkCoordinate_of_holds hline',
    checkCoordinate_of_holds hcolumn, checkCoordinate_of_holds hcolumn',
    checkCoordinate_of_holds hoffset, checkCoordinate_of_holds hoffset']

/-- A column that is not counted from one is the one fault of an indent, however it is written. -/
theorem checkIndent_alike {indent indent' : Option Json} {columns : List Nat}
    (h : Json.WritesIndent indent columns) (h' : Json.WritesIndent indent' columns) :
    (checkIndent indent).Alike (checkIndent indent') := by
  -- A list and a single column are at fault at different places: only the rules are the same.
  by_cases hcolumns : ∀ column ∈ columns, 1 ≤ column
  · rw [checkIndent_of_hasIndent ⟨h, hcolumns⟩, checkIndent_of_hasIndent ⟨h', hcolumns⟩]
    exact ⟨rfl, rfl⟩
  · have hdropped : ∀ {indent}, Json.WritesIndent indent columns →
        (checkIndent indent).value = [] ∧ rulesOf (checkIndent indent).findings = [.invalidIndent] := by
      intro indent h
      rcases checkIndent_cases indent with ⟨read, ⟨hread, hall⟩, -⟩ | ⟨-, f, heq⟩
      · exact absurd (h.unique hread ▸ hall) hcolumns
      · have hrule := List.mem_singleton.mp
          (checkIndent_breaks indent f (by rw [heq]; exact List.mem_cons_self))
        rw [heq]
        exact ⟨rfl, by simp [rulesOf, hrule]⟩
    obtain ⟨hvalue, hrules⟩ := hdropped h
    obtain ⟨hvalue', hrules'⟩ := hdropped h'
    exact ⟨by rw [hvalue, hvalue'], by rw [hrules, hrules']⟩

theorem checkPosition_alike (source : Option Source) {p : Position} (hv : v.WritesPosition p)
    (hw : w.WritesPosition p) : (checkPosition source v).Alike (checkPosition source w) := by
  obtain ⟨fields, rfl, hv⟩ := hv
  obtain ⟨fields', rfl, hw⟩ := hw
  obtain ⟨start, hstart, hstartPoint⟩ := hv.start
  obtain ⟨start', hstart', hstartPoint'⟩ := hw.start
  obtain ⟨stop, hstop, hstopPoint⟩ := hv.stop
  obtain ⟨stop', hstop', hstopPoint'⟩ := hw.stop
  have hindent := checkIndent_alike hv.indent hw.indent
  simp only [checkPosition, hstart, hstart', hstop, hstop',
    checkPoint_congr source "start" hstartPoint hstartPoint',
    checkPoint_congr source "end" hstopPoint hstopPoint', hindent.value]
  split
  · split
    · refine ⟨rfl, ?_⟩
      simp only [rulesOf_append, rulesOf_under, hindent.rules]
    · refine ⟨rfl, ?_⟩
      simp only [rulesOf_append, rulesOf_under, hindent.rules]
  · refine ⟨rfl, ?_⟩
    simp only [rulesOf_append, rulesOf_under, hindent.rules]

end Position

namespace Checker

variable {c : Checker} {v w : Json} {n : Node}

/-- As many nodes are counted and the same rules are broken. -/
structure Outcome.Alike (first second : Outcome) : Prop where
  rules : rulesOf first.findings = rulesOf second.findings
  nodes : first.nodes = second.nodes

/-- The outcomes are alike, and the same position is usable. -/
structure NodeOutcome.Alike (first second : NodeOutcome) : Prop
    extends Outcome.Alike first.toOutcome second.toOutcome where
  position : first.position = second.position

section Parts

variable {fields fields' : List (String × Json)}

theorem checkType_congr (h : Json.HoldsNode fields n) (h' : Json.HoldsNode fields' n) :
    checkType fields = checkType fields' := by
  rw [checkType, checkType, h.type, h'.type]

theorem checkData_congr (h : Json.HoldsNode fields n) (h' : Json.HoldsNode fields' n) :
    checkData fields = checkData fields' := by
  rw [checkData, checkData, h.data, h'.data]

theorem checkNodePosition_alike (c : Checker) (h : Json.HoldsNode fields n)
    (h' : Json.HoldsNode fields' n) :
    (c.checkNodePosition fields).Alike (c.checkNodePosition fields') := by
  cases hposition : n.position with
  | none =>
      have hnone := eq_none_of_rel (hposition ▸ h.position)
      have hnone' := eq_none_of_rel (hposition ▸ h'.position)
      simp only [checkNodePosition, hnone, hnone']
      exact ⟨rfl, rfl⟩
  | some p =>
      obtain ⟨q, hq, hwrites⟩ := exists_of_rel_right h.position hposition
      obtain ⟨q', hq', hwrites'⟩ := exists_of_rel_right h'.position hposition
      have halike := checkPosition_alike c.source hwrites hwrites'
      simp only [checkNodePosition, hq, hq']
      refine ⟨halike.value, ?_⟩
      simp only [rulesOf_under, halike.rules]

theorem contains_value_congr (h : Json.HoldsNode fields n) (h' : Json.HoldsNode fields' n) :
    Entries.contains "value" fields = Entries.contains "value" fields' := by
  rw [Entries.contains, Entries.contains, h.value, h'.value]

end Parts

theorem checkItems_alike {items items' : List Json}
    (h : List.Forall₂ (fun v w => (c.checkNode v).Alike (c.checkNode w)) items items')
    (parent previous : Option Position) (index : Nat) :
    (c.checkItems parent previous index items).Alike (c.checkItems parent previous index items') := by
  -- The region before an item is the same on both sides, since the positions of items agree.
  induction h generalizing previous index with
  | nil => exact ⟨rfl, rfl⟩
  | @cons item item' rest rest' hhead htail ih =>
      have hlater := ih ((c.checkNode item').position.or previous) (index + 1)
      rw [checkItems_cons, checkItems_cons, hhead.position]
      constructor
      · simp only [rulesOf_append, rulesOf_under, hhead.rules, hlater.rules]
      · simp only [hhead.nodes, hlater.nodes]

theorem checkNode_object_alike {fields fields' : List (String × Json)}
    (h : Json.HoldsNode fields n) (h' : Json.HoldsNode fields' n)
    (hchildren : (Json.present? "children" fields).isSome =
      (Json.present? "children" fields').isSome)
    (hbelow : ∀ parent,
      (c.checkChildrenOf parent fields).Alike (c.checkChildrenOf parent fields')) :
    (c.checkNode (.object fields)).Alike (c.checkNode (.object fields')) := by
  have hposition := checkNodePosition_alike c h h'
  have hbelow := hbelow (c.checkNodePosition fields').value
  rw [checkNode_object, checkNode_object, hposition.value]
  refine ⟨⟨?_, ?_⟩, rfl⟩
  · simp only [rulesOf_append, checkType_congr h h', checkData_congr h h', hposition.rules,
      hbelow.rules, hybridFindings_congr (contains_value_congr h h') hchildren]
  · simp only [hbelow.nodes]

/-- What is found in a value depends on the node that it writes. -/
theorem checkNode_alike (c : Checker) (hv : v.WritesNode n) (hw : w.WritesNode n) :
    (c.checkNode v).Alike (c.checkNode w) := by
  induction hv generalizing w with
  | leaf h hnone hchildren =>
      cases hw with
      | leaf h' hnone' hchildren' =>
          refine checkNode_object_alike h h' (by rw [hnone, hnone']) fun parent => ?_
          rw [checkChildrenOf_absent hnone, checkChildrenOf_absent hnone']
          exact ⟨rfl, rfl⟩
      | parent h' hitems' hchildren' hlength' hall' =>
          rw [hchildren] at hchildren'
          cases hchildren'
  | @parent fields n items list h hitems hchildren hlength hall ih =>
      cases hw with
      | leaf h' hnone' hchildren' =>
          rw [hchildren] at hchildren'
          cases hchildren'
      | @parent fields' _ items' list' h' hitems' hchildren' hlength' hall' =>
          cases Option.some.inj (hchildren.symm.trans hchildren')
          have hitem : List.Forall₂ (fun v n => ∀ w : Json, w.WritesNode n →
              (c.checkNode v).Alike (c.checkNode w)) items list :=
            List.forall₂_iff_zip.mpr ⟨hlength, fun hmem w hw => ih _ _ hmem hw⟩
          have hitem' : List.Forall₂ Json.WritesNode items' list :=
            List.forall₂_iff_zip.mpr ⟨hlength', fun hmem => hall' _ _ hmem⟩
          have halike := forall₂_of_common hitem hitem' fun v n w hv hw => hv w hw
          refine checkNode_object_alike h h' (by rw [hitems, hitems']; rfl) fun parent => ?_
          rw [checkChildrenOf_list hitems, checkChildrenOf_list hitems']
          exact checkItems_alike halike parent none 0

theorem rules_check (c : Checker) (v : Json) :
    (c.check v).diagnostics.map (·.rule) = rulesOf (c.checkNode v).findings := by
  rw [check, List.map_map]
  rfl

/-- The verdict of a report depends on the rules that are broken. -/
theorem isConforming_congr {first second : Report}
    (hrules : first.diagnostics.map (·.rule) = second.diagnostics.map (·.rule))
    (hweight : first.warningsAsErrors = second.warningsAsErrors) :
    first.isConforming = second.isConforming := by
  have hempty : ∀ severity,
      (first.withSeverity severity).isEmpty = (second.withSeverity severity).isEmpty := by
    intro severity
    have hfilter := congrArg (List.filter fun rule => rule.severity = severity) hrules
    rw [List.filter_map, List.filter_map] at hfilter
    have hfound := congrArg List.isEmpty hfilter
    rw [List.isEmpty_map, List.isEmpty_map] at hfound
    exact hfound
  simp only [Report.isConforming, Report.errors, Report.warnings, hempty, hweight]

/-- A tree may be checked before or after it is decoded, as long as no list stands for a position or
a point: as many nodes are counted, the same rules are broken in the same order, and the verdict is
the same. -/
theorem checkTree_decoded (c : Checker) (v : Json) (n : Node) (hn : Node.decode v = .ok n)
    (hv : ∀ q, v.Reaches q → q.WrittenOut) :
    (c.check v).nodesChecked = (c.checkTree n).nodesChecked ∧
      (c.check v).diagnostics.map (·.rule) = (c.checkTree n).diagnostics.map (·.rule) ∧
      (c.check v).isConforming = (c.checkTree n).isConforming := by
  have hwrites := Node.writesNode_of_decode hn hv
  have hagain : n.toJson.WritesNode n := by
    refine Node.writesNode_toJson fun m hm => ⟨Node.partsApart_of_decode hn m hm, ?_⟩
    exact Node.fits_of_writesNode hwrites m hm
  have halike := checkNode_alike c hwrites hagain
  have hrules : (c.check v).diagnostics.map (·.rule) = (c.checkTree n).diagnostics.map (·.rule) := by
    rw [checkTree, rules_check, rules_check, halike.rules]
  exact ⟨halike.nodes, hrules, isConforming_congr hrules rfl⟩

/-- The child of a node without a position has a single column that is not counted from one, and a
value that is null. -/
theorem checkTree_decoded_single_column :
    let c := (Checker.mk ⟨true, true, true, true, true⟩ none).withSource "a\n  b"
    let q := Json.object [("end", (Point.mk 2 4 5).toJson), ("indent", .nat 0), ("note", .null),
      ("start", (Point.mk 1 1 0).toJson)]
    let child := Json.object [("position", q), ("type", .string "text"), ("value", .null)]
    let v := Json.object [("children", .array [child]), ("data", .null), ("lang", .string "en"),
      ("position", .null), ("type", .string "root")]
    let n := (Node.parent "root" [(Node.literal "text" .null).placedAt
      ⟨⟨1, 1, 0⟩, ⟨2, 4, 5⟩, [0]⟩]).withField "lang" (.string "en")
    Node.decode v = .ok n ∧ (∀ q, v.Reaches q → q.WrittenOut) ∧
      (c.checkTree n).diagnostics.map (·.rule) = [.missingPosition, .invalidIndent] ∧
      (c.checkTree n).isConforming = false := by
  intro c q child v n
  have hn : Node.decode v = .ok n := by rfl
  have hq : q.WrittenOut :=
    ⟨by simp [q], by simp [q, Point.toJson, Json.step?, Entries.get?],
      by simp [q, Point.toJson, Json.step?, Entries.get?]⟩
  have hreached : ∀ q, v.Reaches q → q.WrittenOut := by
    intro r hr
    have heq : r = q := by
      simpa [v, child, Json.reaches_object_iff, Json.childItems, Json.present?, Entries.get?,
        eq_comm] using hr
    rw [heq]
    exact hq
  obtain ⟨-, hrules, hconforming⟩ := checkTree_decoded c v n hn hreached
  refine ⟨hn, hreached, ?_, ?_⟩
  · rw [← hrules]
    decide
  · rw [← hconforming]
    decide

end Checker

end TreeShape
