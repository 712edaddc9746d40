import TreeShape.Proofs.Checker.Conforming
import TreeShape.Proofs.Node.Addressed
import TreeShape.Proofs.Position.Faults
/- The errors in a typed tree are those of its nodes in document order, so that the first of them
belongs to the node at which validating the tree fails, and the fault found there is reported. -/
namespace TreeShape

/-- The finding is an error. -/
def Finding.isError (f : Finding) : Bool := f.fault.rule.severity = .error

section Errors

variable {findings : List Finding}

theorem filter_isError_of_severe (h : Severe findings) :
    findings.filter Finding.isError = findings :=
  List.filter_eq_self.mpr fun f hf => decide_eq_true (h f hf).1

theorem filter_isError_of_free (h : Free .error findings) :
    findings.filter Finding.isError = [] :=
  List.filter_eq_nil_iff.mpr fun f hf herror => h f hf (of_decide_eq_true herror)

theorem filter_isError_under (steps : Path) :
    (findings.map (Finding.under steps)).filter Finding.isError =
      (findings.filter Finding.isError).map (Finding.under steps) := by
  rw [List.filter_map]
  rfl

end Errors

namespace Checker

/-- What is found in a node by itself. -/
def ownFindings (c : Checker) : Json → List Finding
  | .object fields => checkType fields ++ checkData fields ++ (c.checkNodePosition fields).findings
  | _ => []

theorem ownFindings_severe (c : Checker) (fields : List (String × Json)) :
    Severe (c.ownFindings (.object fields)) :=
  severe_append (severe_append (checkType_severe fields) (checkData_severe fields))
    (checkNodePosition_severe c fields)

/-- What is found in a node of a tree by itself, seen from the root of the tree. -/
def findingsAt (c : Checker) (place : List Nat × Node) : List Finding :=
  (c.ownFindings place.2.toJson).map (Finding.under (nodePath place.1))

/-- What is found in a node by itself is found at its type, its data or its position. -/
theorem ownFindings_place {c : Checker} {v : Json} {f : Finding} (hf : f ∈ c.ownFindings v) :
    f.path = [] ∨ ∃ key ∈ ["type", "data", "position"], ∃ rest, f.path = .key key :: rest := by
  unfold ownFindings at hf
  split at hf
  · rename_i fields
    rw [List.mem_append, List.mem_append] at hf
    rcases hf with (hf | hf) | hf
    · unfold checkType at hf
      split at hf
      · rw [List.mem_singleton.mp hf]
        exact .inl rfl
      · split at hf
        · rw [List.mem_singleton.mp hf]
          exact .inr ⟨"type", by simp, [], rfl⟩
        · cases hf
      · rw [List.mem_singleton.mp hf]
        exact .inr ⟨"type", by simp, [], rfl⟩
    · unfold checkData at hf
      split at hf
      · cases hf
      · split at hf
        · rw [List.mem_singleton.mp hf]
          exact .inr ⟨"data", by simp, _, rfl⟩
        · cases hf
      · rw [List.mem_singleton.mp hf]
        exact .inr ⟨"data", by simp, [], rfl⟩
    · unfold checkNodePosition at hf
      split at hf
      · obtain ⟨g, -, rfl⟩ := List.mem_map.mp hf
        exact .inr ⟨"position", by simp, _, rfl⟩
      · simp only at hf
        split at hf
        · rw [List.mem_singleton.mp hf]
          exact .inl rfl
        · cases hf
  · cases hf

variable {c : Checker} {parent previous : Option Position}

theorem errors_checkItems {list : List Node}
    (h : ∀ n ∈ list, (c.checkNode n.toJson).findings.filter Finding.isError =
      n.addressed.flatMap c.findingsAt) (index : Nat) :
    (c.checkItems parent previous index (list.map Node.toJson)).findings.filter Finding.isError =
      (Node.addressedFrom index list).flatMap c.findingsAt := by
  induction list generalizing previous index with
  | nil => rfl
  | cons n rest ih =>
      rw [List.forall_mem_cons] at h
      have hrelation : ((c.checkNode n.toJson).position.elim []
          (c.relationFindings parent previous)).filter Finding.isError = [] := by
        cases (c.checkNode n.toJson).position with
        | none => rfl
        | some position =>
            exact filter_isError_of_free (free_of_severity relationFindings_warn (by decide))
      rw [List.map_cons, checkItems_cons, List.filter_append, filter_isError_under,
        List.filter_append, hrelation, List.append_nil, h.1, ih h.2, Node.addressedFrom,
        List.flatMap_append, List.flatMap_map, List.map_flatMap]
      congr 1
      apply List.flatMap_congr
      intro place _
      rw [findingsAt, findingsAt, List.map_map, nodePath_cons]
      rfl

/-- The errors in a typed tree are those of its nodes, in document order. -/
theorem errors_checkNode (c : Checker) {n : Node} (hn : ∀ m ∈ n.nodes, m.PartsApart) :
    (c.checkNode n.toJson).findings.filter Finding.isError = n.addressed.flatMap c.findingsAt := by
  induction n using Node.child_induction with
  | step n ih =>
      have hbelow : ∀ child ∈ n.childList,
          (c.checkNode child.toJson).findings.filter Finding.isError =
            child.addressed.flatMap c.findingsAt := by
        intro child hchild
        exact ih child hchild fun m hm => hn m (Node.mem_nodes_of_child hchild hm)
      obtain ⟨fields, hjson, hparts⟩ := (hn n n.self_mem_nodes).exists_parts
      have hown : (checkType fields ++ checkData fields ++
          (c.checkNodePosition fields).findings).filter Finding.isError = c.ownFindings n.toJson := by
        rw [hjson]
        exact filter_isError_of_severe (ownFindings_severe c fields)
      have hhybrid : (c.hybridFindings fields).filter Finding.isError = [] :=
        filter_isError_of_free (free_of_severity hybridFindings_hint (by decide))
      have hchildren : (c.checkChildrenOf (c.checkNodePosition fields).value fields).findings.filter
          Finding.isError = (Node.addressedFrom 0 n.childList).flatMap c.findingsAt := by
        cases hlist : n.children with
        | none =>
            rw [checkChildrenOf_absent (by rw [hparts.present_children, hlist]; rfl), Node.childList,
              hlist]
            rfl
        | some list =>
            rw [Node.childList, hlist] at hbelow ⊢
            rw [checkChildrenOf_list (by rw [hparts.present_children, hlist]; rfl)]
            exact errors_checkItems hbelow 0
      have hself : c.findingsAt ([], n) = c.ownFindings n.toJson := List.map_id _
      rw [Node.addressed_eq, List.flatMap_cons, hself, ← hown, hjson, checkNode_object,
        List.filter_append, List.filter_append, hchildren, hhybrid, List.append_nil]

end Checker

namespace Node

/-- The rule that is broken by that of which an error tells, and the place in the node. -/
inductive Offends (n : Node) : ShapeError → Rule → Path → Prop
  | type : n.type = "" → Offends n .emptyType .emptyType [.key "type"]
  | data {d : Data} : n.data = some d → d.contains reservedKey = true →
      Offends n (.reservedDataKey reservedKey) .reservedDataKey [.key "data", .key reservedKey]
  | position {p : Position} {e : ShapeError} {rule : Rule} {place : Path} :
      n.position = some p → p.Offends e rule place → Offends n e rule (.key "position" :: place)

variable {n : Node} {e : ShapeError} {rule : Rule} {place : Path}

theorem offends_of_validate (h : SyntaxNode.validate n = .error e) :
    ∃ rule place, n.Offends e rule place := by
  obtain ⟨type, data, position, children, value, fields⟩ := n
  simp only [SyntaxNode.validate, SyntaxNode.type, SyntaxNode.data, SyntaxNode.position] at h
  have hplaced : ∀ p, position = some p → p.validate = .error e →
      ∃ rule place, Offends ⟨type, data, position, children, value, fields⟩ e rule place := by
    intro p hp herror
    obtain ⟨rule, place, hoffends⟩ := Position.offends_of_validate herror
    exact ⟨rule, _, .position hp hoffends⟩
  split at h
  · rename_i hempty
    cases h
    exact ⟨_, _, .type (by simpa using hempty)⟩
  · cases data with
    | none =>
        cases position with
        | none => cases h
        | some p => exact hplaced p rfl h
    | some d =>
        by_cases hreserved : d.contains reservedKey = true
        · simp only [Data.validate, if_pos hreserved] at h
          cases h
          exact ⟨_, _, .data rfl hreserved⟩
        · simp only [Data.validate, if_neg hreserved] at h
          cases position with
          | none => cases h
          | some p => exact hplaced p rfl h

/-- A fault of a node is among what is found in the node by itself. -/
theorem exists_mem_ownFindings (c : Checker) (hn : n.PartsApart) (hfits : n.Fits)
    (h : n.Offends e rule place) :
    ∃ f ∈ c.ownFindings n.toJson, f.fault.rule = rule ∧ f.path = place := by
  obtain ⟨fields, hjson, hparts⟩ := hn.exists_parts
  rw [hjson, Checker.ownFindings]
  cases h with
  | type hempty =>
      refine ⟨⟨[.key "type"], .emptyType⟩, ?_, rfl, rfl⟩
      have htype : Checker.checkType fields = [⟨[.key "type"], .emptyType⟩] := by
        simp only [Checker.checkType, hparts.type, hempty]
        rfl
      rw [htype]
      simp
  | @data d hdata hreserved =>
      refine ⟨⟨[.key "data", .key reservedKey], .reservedDataKey⟩, ?_, rfl, rfl⟩
      have hfound : Checker.checkData fields =
          [⟨[.key "data", .key reservedKey], .reservedDataKey⟩] := by
        have hpresent : Json.present? "data" fields = some (.object d.entries) := by
          rw [hparts.present_data, hdata]
          rfl
        simp only [Checker.checkData, hpresent]
        exact if_pos hreserved
      rw [hfound]
      simp
  | @position p e rule place hposition hoffends =>
      have hpresent : Json.present? "position" fields = some p.toJson := by
        rw [hparts.present_position, hposition]
        rfl
      obtain ⟨parts, hobject, hholds⟩ := Position.writes_toJson (hfits p hposition)
      have hindent : Json.present? "indent" parts = some p.indentJson := by
        cases hobject
        rfl
      obtain ⟨f, hf, hrule, hpath⟩ := exists_mem_checkPosition c.source hholds hindent hoffends
      refine ⟨f.under [.key "position"], ?_, hrule, congrArg (_ :: ·) hpath⟩
      rw [Checker.checkNodePosition, hpresent, hobject]
      exact List.mem_append_right _ (List.mem_map_of_mem hf)

/-- Nothing is found by default in a node that is valid by itself. -/
theorem ownFindings_of_valid (hn : n.PartsApart) (hfits : n.Fits)
    (h : SyntaxNode.validate n = .ok ()) : Checker.default.ownFindings n.toJson = [] := by
  obtain ⟨fields, hjson, hparts⟩ := hn.exists_parts
  have hshape : Json.NodeShape Checker.default.options.requirePositions fields :=
    (hparts.holdsNode hfits).shape_iff.mpr h
  obtain ⟨htype, hdata, hposition⟩ := (Checker.nodeShape_iff rfl).mpr hshape
  rw [hjson, Checker.ownFindings, htype, hdata, hposition]
  rfl

end Node

namespace Checker

theorem errors_checkTree (n : Node) :
    (default.checkTree n).errors =
      ((default.checkNode n.toJson).findings.filter Finding.isError).map Finding.diagnostic := by
  simp only [checkTree, check, Report.errors, Report.withSeverity, List.filter_map]
  rfl

/-- Validating a typed tree fails at its first node in document order that is not valid, and to that
node belongs the first error that the checker reports. What is wrong with the node is reported at
its place in the node. The coordinates of the tree are words, and its fields, as decoding leaves
them, have no key of a part. -/
theorem first_fault_reported (n : Node) (hn : ∀ m ∈ n.nodes, m.PartsApart ∧ m.Fits)
    (e : ShapeError) (he : n.validateTree = .error e) :
    ∃ before address m after, n.addressed = before ++ (address, m) :: after ∧
      (∀ place ∈ before, SyntaxNode.validate place.2 = .ok ()) ∧
      SyntaxNode.validate m = .error e ∧
      n.toJson.get? (nodePath address) = some m.toJson ∧
      (∃ (d : Diagnostic) (more : Path), (default.checkTree n).errors.head? = some d ∧
        d.path = Path.text (nodePath address ++ more) ∧
          (more = [] ∨ ∃ key ∈ ["type", "data", "position"], ∃ rest, more = .key key :: rest)) ∧
      ∃ rule place, m.Offends e rule place ∧ ∃ d ∈ (default.checkTree n).diagnostics,
        d.rule = rule ∧ d.path = Path.text (nodePath address ++ place) := by
  obtain ⟨before, address, m, after, haddressed, hbefore, hm⟩ := Node.exists_first_fault he
  have hmem : ∀ place ∈ n.addressed, place.2.PartsApart ∧ place.2.Fits :=
    fun place hplace => hn place.2 (Node.mem_nodes_of_addressed hplace)
  have hhere : (address, m) ∈ n.addressed := by
    rw [haddressed]
    simp
  have hparts : ∀ m ∈ n.nodes, m.PartsApart := fun m hm => (hn m hm).1
  obtain ⟨rule, place, hoffends⟩ := Node.offends_of_validate hm
  obtain ⟨f, hf, hrule, hpath⟩ :=
    Node.exists_mem_ownFindings default (hmem _ hhere).1 (hmem _ hhere).2 hoffends
  have hsilent : before.flatMap default.findingsAt = [] := by
    rw [List.flatMap_eq_nil_iff]
    intro place hplace
    have hvalid := hmem place (by rw [haddressed]; exact List.mem_append_left _ hplace)
    rw [findingsAt, Node.ownFindings_of_valid hvalid.1 hvalid.2 (hbefore place hplace), List.map_nil]
  have herrors := errors_checkNode default hparts
  rw [haddressed, List.flatMap_append, hsilent, List.nil_append, List.flatMap_cons,
    findingsAt] at herrors
  refine ⟨before, address, m, after, haddressed, hbefore, hm,
    Node.get?_of_mem_addressed hparts hhere, ?_, rule, place, hoffends, ?_⟩
  · cases hown : default.ownFindings m.toJson with
    | nil =>
        rw [hown] at hf
        cases hf
    | cons first others =>
        have hplace := ownFindings_place (show first ∈ default.ownFindings m.toJson by simp [hown])
        rw [hown] at herrors
        refine ⟨(first.under (nodePath address)).diagnostic, first.path, ?_, rfl, hplace⟩
        rw [errors_checkTree, herrors]
        rfl
  · have hfound : f.under (nodePath address) ∈ (default.checkNode n.toJson).findings := by
      apply List.mem_of_mem_filter (p := Finding.isError)
      rw [herrors]
      exact List.mem_append_left _ (List.mem_map_of_mem hf)
    refine ⟨_, List.mem_map_of_mem hfound, hrule, ?_⟩
    rw [← hpath]
    rfl

/-- A list stops before it starts, in a column that there is not, and its indent and its item are
faulty too. -/
theorem first_fault_reported_column :
    let n := Node.parent "root"
      [.literal "note" .null, (Node.parent "list" [.new ""]).placedAt ⟨⟨2, 1, 3⟩, ⟨1, 0, 0⟩, [0]⟩]
    (∀ m ∈ n.nodes, m.PartsApart ∧ m.Fits) ∧ n.validateTree = .error (.invalidColumn 0) ∧
      ∃ d ∈ (default.checkTree n).diagnostics, d.rule = .pointOutOfRange ∧
        d.path = "$.children[1].position.end.column" := by
  intro n
  have hn : ∀ m ∈ n.nodes, m.PartsApart ∧ m.Fits := by decide
  have he : n.validateTree = .error (.invalidColumn 0) := by rfl
  obtain ⟨before, address, m, after, haddressed, -, hm, -, -, rule, place, hoffends, d, hd, hrule,
    hpath⟩ := first_fault_reported n hn _ he
  refine ⟨hn, he, d, hd, ?_⟩
  have hhere : (address, m) ∈ n.addressed := by
    rw [haddressed]
    simp
  have hlist : address = [1] ∧ m.position = some ⟨⟨2, 1, 3⟩, ⟨1, 0, 0⟩, [0]⟩ := by
    have hplaces : n.addressed = [([], n), ([0], .literal "note" .null),
      ([1], (Node.parent "list" [.new ""]).placedAt ⟨⟨2, 1, 3⟩, ⟨1, 0, 0⟩, [0]⟩),
      ([1, 0], .new "")] := by rfl
    rw [hplaces] at hhere
    simp only [List.mem_cons, Prod.mk.injEq, List.not_mem_nil, or_false] at hhere
    rcases hhere with ⟨rfl, rfl⟩ | ⟨rfl, rfl⟩ | ⟨rfl, rfl⟩ | ⟨rfl, rfl⟩
    · cases hm
    · cases hm
    · exact ⟨rfl, rfl⟩
    · cases hm
  obtain ⟨rfl, hposition⟩ := hlist
  cases hoffends with
  | position hp hplace =>
      cases hp.symm.trans hposition
      cases hplace with
      | start hpoint => cases hpoint
      | stop _ hpoint =>
          cases hpoint with
          | column _ _ => exact ⟨hrule, hpath⟩

end Checker

end TreeShape
