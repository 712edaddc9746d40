import TreeShape.Proofs.Checker.Conforming
import TreeShape.Proofs.Node.Decode
import TreeShape.TreeFile
import TreeShape.Yaml.Document
/- The untyped check and typed loading accept the same trees, except for positions and points that
are written as lists, which are only loaded, and for null indents, which only pass the check. -/
namespace TreeShape

/-- A tree is loaded from a text just if it is decoded from the value in the text, and is valid. -/
theorem TreeFormat.parseNode_eq_ok_iff {format : TreeFormat} {readYaml : YamlReader} {text : String}
    {n : Node} :
    format.parseNode readYaml text = .ok n ↔
      ∃ v, format.parseTree readYaml text = .ok v ∧ Node.decode v = .ok n ∧
        n.validateTree = .ok () := by
  simp only [parseNode, bind_eq_ok_iff, mapError_eq_ok_iff]
  constructor
  · rintro ⟨v, hv, n, hn, u, hvalid, ⟨⟩⟩
    exact ⟨v, hv, hn, hvalid⟩
  · rintro ⟨v, hv, hn, hvalid⟩
    exact ⟨v, hv, n, hn, (), hvalid, rfl⟩

/-- Parsing a text once tells both what is loaded from it and what holds of the value in it. -/
theorem TreeFormat.exists_parseNode_of_any {format : TreeFormat} {readYaml : YamlReader}
    {text : String} {P : Json → Prop} [DecidablePred P]
    (h : (format.parseTree readYaml text).toOption.any fun v =>
      P v ∧ (Node.decode v).toOption.any fun n => n.validateTree = .ok ()) :
    ∃ n v, format.parseNode readYaml text = .ok n ∧ format.parseTree readYaml text = .ok v ∧
      P v := by
  obtain ⟨v, hv, h⟩ := exists_ok_of_any h
  obtain ⟨hP, hloaded⟩ := of_decide_eq_true h
  obtain ⟨n, hn, hvalid⟩ := exists_ok_of_any hloaded
  exact ⟨n, v, parseNode_eq_ok_iff.mpr ⟨v, hv, hn, of_decide_eq_true hvalid⟩, hv, hP⟩

namespace Checker

variable {v : Json} {n : Node}

theorem errors_default_eq_nil_iff : (default.check v).errors = [] ↔ v.Conforms false :=
  errors_check_eq_nil_iff.trans (free_error_iff_conforms rfl v)

/-- What passes the check is loaded as a valid tree, unless an indent is null. -/
theorem exists_valid_of_accepted (hv : (default.check v).errors = [])
    (hnull : ∀ q, v.Reaches q → q.step? (.key "indent") ≠ some .null) :
    ∃ n, Node.decode v = .ok n ∧ n.validateTree = .ok () := by
  have hshape := errors_default_eq_nil_iff.mp hv
  obtain ⟨n, hn⟩ := Node.exists_decode_of_conforms hshape hnull
  have hwrites : v.WritesNode n := by
    refine Node.writesNode_of_decode hn fun q hq => ?_
    obtain ⟨p, hp, -⟩ := hshape.writes_of_reaches hq
    exact hp.writtenOut
  exact ⟨n, hn, hwrites.conforms_iff.mp hshape⟩

/-- What is loaded as a valid tree passes the check, unless a position or a point is a list. -/
theorem accepted_of_valid (hn : Node.decode v = .ok n) (hvalid : n.validateTree = .ok ())
    (hv : ∀ q, v.Reaches q → q.WrittenOut) : (default.check v).errors = [] :=
  errors_default_eq_nil_iff.mpr ((Node.writesNode_of_decode hn hv).conforms_iff.mpr hvalid)

/-- What passes the check is loaded just if no position that it reaches has a null for an indent. -/
theorem accepted_decodes_iff (v : Json) (hv : (default.check v).errors = []) :
    (∃ n, Node.decode v = .ok n ∧ n.validateTree = .ok ()) ↔
      ∀ q, v.Reaches q → q.step? (.key "indent") ≠ some .null := by
  constructor
  · rintro ⟨n, hn, -⟩ q hq
    exact Node.indent_of_decode hn hq
  · exact exists_valid_of_accepted hv

/-- The one position of a tree has a single column for its second line. -/
theorem accepted_decodes_iff_single_column :
    let q := Json.object [("end", (Point.mk 2 4 5).toJson), ("indent", .nat 3), ("note", .null),
      ("start", (Point.mk 1 1 0).toJson)]
    let v := Json.object [("children", .array [.object [("position", q), ("type", .string "text")]]),
      ("data", .null), ("type", .string "root")]
    (default.check v).errors = [] ∧ ∃ n, Node.decode v = .ok n ∧ n.validateTree = .ok () := by
  intro q v
  have haccepted : (default.check v).errors = [] := by decide
  refine ⟨haccepted, (accepted_decodes_iff v haccepted).mpr ?_⟩
  simp [v, q, Json.reaches_object_iff, Json.childItems, Json.present?, Entries.get?, Json.step?,
    Json.nat]

/-- An indent that is null passes the check, and yet the tree is not loaded. -/
theorem null_indent_accepted_not_loaded :
    let v := Json.object [("position", .object [("end", (Point.mk 1 2 1).toJson), ("indent", .null),
      ("start", (Point.mk 1 1 0).toJson)]), ("type", .string "text")]
    (default.check v).errors = [] ∧ ¬ ∃ n, Node.decode v = .ok n ∧ n.validateTree = .ok () := by
  intro v
  refine ⟨by decide, ?_⟩
  rintro ⟨n, hn, -⟩
  have hnull : Node.decode v = .error .noIndent := by rfl
  rw [hnull] at hn
  cases hn

/-- What is loaded passes the check just if neither a position that it reaches nor a point of one is
a list, whatever reads the texts in YAML. -/
theorem loaded_accepted_iff (format : TreeFormat) (readYaml : YamlReader) (text : String) (n : Node)
    (hn : format.parseNode readYaml text = .ok n) :
    ∃ v, format.parseTree readYaml text = .ok v ∧
      ((default.check v).errors = [] ↔ ∀ q, v.Reaches q → q.WrittenOut) := by
  obtain ⟨v, hv, hdecode, hvalid⟩ := TreeFormat.parseNode_eq_ok_iff.mp hn
  refine ⟨v, hv, ?_⟩
  constructor
  · intro haccepted q hq
    obtain ⟨p, hp, -⟩ := (errors_default_eq_nil_iff.mp haccepted).writes_of_reaches hq
    exact hp.writtenOut
  · exact accepted_of_valid hdecode hvalid

/-- A tree of two nodes is loaded from a text in blocks, with a directive, tags and a key after a
question mark, and passes the check. -/
theorem loaded_accepted_iff_blocks :
    let text := "%YAML 1.1\n---\ntype: !!str root\n? children\n: - type: text\n    position:\n" ++
      "      start:\n        line: 1\n        column: 1\n        offset: 0\n" ++
      "      end:\n        line: !!int \"1\"\n        column: 2\n        offset: 1\n"
    ∃ n v, TreeFormat.yaml.parseNode Yaml.ofText? text = .ok n ∧
      TreeFormat.yaml.parseTree Yaml.ofText? text = .ok v ∧
      (default.check v).errors = [] ∧ ∀ q, v.Reaches q → q.WrittenOut := by
  intro text
  have hread : (TreeFormat.yaml.parseTree Yaml.ofText? text).toOption.any fun v =>
      (default.check v).errors = [] ∧
        (Node.decode v).toOption.any fun n => n.validateTree = .ok () := by
    decide +kernel
  obtain ⟨n, v, hn, hv, haccepted⟩ := TreeFormat.exists_parseNode_of_any hread
  obtain ⟨w, hw, hiff⟩ := loaded_accepted_iff .yaml Yaml.ofText? text n hn
  cases Except.ok.inj (hv.symm.trans hw)
  exact ⟨n, v, hn, hv, haccepted, hiff.mp haccepted⟩

/-- Points that are lists are loaded, and yet they do not pass the check. -/
theorem listed_points_loaded_not_accepted :
    let text := "type: text\nposition:\n  start: [1, 1, 0]\n  end: [1, 2, 1]\n"
    ∃ n v, TreeFormat.yaml.parseNode Yaml.ofText? text = .ok n ∧
      TreeFormat.yaml.parseTree Yaml.ofText? text = .ok v ∧ (default.check v).errors ≠ [] := by
  intro text
  have hread : (TreeFormat.yaml.parseTree Yaml.ofText? text).toOption.any fun v =>
      (default.check v).errors ≠ [] ∧
        (Node.decode v).toOption.any fun n => n.validateTree = .ok () := by
    decide +kernel
  exact TreeFormat.exists_parseNode_of_any hread

/-- Where positions and points are no lists and indents are not null, a value passes the check just
if it is loaded as a valid tree. -/
theorem accepted_iff_decodes (v : Json)
    (hv : ∀ q, v.Reaches q → q.WrittenOut ∧ q.step? (.key "indent") ≠ some .null) :
    (default.check v).errors = [] ↔ ∃ n, Node.decode v = .ok n ∧ n.validateTree = .ok () := by
  constructor
  · intro haccepted
    exact exists_valid_of_accepted haccepted fun q hq => (hv q hq).2
  · rintro ⟨n, hn, hvalid⟩
    exact accepted_of_valid hn hvalid fun q hq => (hv q hq).1

/-- The second node of a tree has a point without an offset, which neither reading takes. -/
theorem accepted_iff_decodes_missing_offset :
    let start := Json.object [("column", .nat 1), ("line", .nat 1)]
    let q := Json.object [("end", (Point.mk 1 2 1).toJson), ("start", start)]
    let v := Json.object [("children", .array [.object [("position", q), ("type", .string "text")]]),
      ("position", .null), ("type", .string "root")]
    (∀ q, v.Reaches q → q.WrittenOut ∧ q.step? (.key "indent") ≠ some .null) ∧
      ¬ ∃ n, Node.decode v = .ok n ∧ n.validateTree = .ok () := by
  intro start q v
  have hq : q.WrittenOut :=
    ⟨by simp [q], by simp [q, start, Json.step?, Entries.get?],
      by simp [q, Point.toJson, Json.step?, Entries.get?]⟩
  have hreached : ∀ q, v.Reaches q → q.WrittenOut ∧ q.step? (.key "indent") ≠ some .null := by
    intro r hr
    have heq : r = q := by
      simpa [v, Json.reaches_object_iff, Json.childItems, Json.present?, Entries.get?, eq_comm]
        using hr
    rw [heq]
    exact ⟨hq, by simp [q, Json.step?, Entries.get?]⟩
  refine ⟨hreached, ?_⟩
  rw [← accepted_iff_decodes v hreached]
  decide

end Checker

end TreeShape
