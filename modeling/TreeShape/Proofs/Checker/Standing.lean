import TreeShape.Proofs.Checker.Places
/- Where findings stand: at a value of the tree that was checked. A missing point has none, and neither
has the column of an indent that is written without a list. -/
namespace TreeShape

namespace Json

theorem get?_key (name : String) (fields : List (String × Json)) :
    (object fields).get? [.key name] = Entries.get? name fields := by
  simp [get?, step?]

theorem get?_index (index : Nat) (items : List Json) :
    (array items).get? [.index index] = items[index]? := by
  simp [get?, step?]

theorem get?_present {name : String} {fields : List (String × Json)} {v : Json}
    (h : present? name fields = some v) : (object fields).get? [.key name] = some v := by
  rw [get?_key, (present?_eq_some_iff.mp h).1]

end Json

/-- A finding stands at a value of the tree. Only a missing point has none, and neither has the first
item of an indent that is a single column, which is where a document objects to it. -/
inductive Stands (source : Option Source) (v : Json) : Finding → Prop
  | value {path : Path} {fault : Fault} {w : Json} : v.get? path = some w →
      fault.rule ≠ .missingPoint → Stands source v ⟨path, fault⟩
  | missing {place : Path} {fields : List (String × Json)} {name : String} :
      v.get? place = some (.object fields) → name = "start" ∨ name = "end" →
      Json.present? name fields = none → Stands source v ⟨place ++ [.key name], .missingPoint name⟩
  | column {place : Path} {fault : Fault} {column : Nat} : source.isSome →
      v.get? (place ++ [.key "indent"]) = some (.nat column) → fault.rule = .invalidIndent →
      Stands source v ⟨place ++ [.key "indent", .index 0], fault⟩

/-- All findings stand in the value. -/
def AllStand (source : Option Source) (v : Json) (findings : List Finding) : Prop :=
  ∀ f ∈ findings, Stands source v f

variable {source : Option Source} {v w : Json} {findings first second : List Finding}

theorem Stands.under {steps : Path} {f : Finding} (hsteps : v.get? steps = some w)
    (h : Stands source w f) : Stands source v (f.under steps) := by
  have hbelow : ∀ path, v.get? (steps ++ path) = w.get? path := by
    intro path
    rw [Json.get?_append, hsteps, Option.bind_some]
  cases h with
  | value hvalue hrule => exact .value ((hbelow _).trans hvalue) hrule
  | @missing place fields name hplace hname hnone =>
      rw [Finding.under, ← List.append_assoc]
      exact .missing ((hbelow place).trans hplace) hname hnone
  | @column place fault column hsource hplace hrule =>
      rw [← hbelow, ← List.append_assoc] at hplace
      rw [Finding.under, ← List.append_assoc]
      exact .column hsource hplace hrule

theorem allStand_nil : AllStand source v [] := by
  intro f hf
  cases hf

theorem allStand_single {f : Finding} (h : Stands source v f) : AllStand source v [f] :=
  List.forall_mem_singleton.mpr h

theorem allStand_append (h : AllStand source v first) (h' : AllStand source v second) :
    AllStand source v (first ++ second) :=
  List.forall_mem_append.mpr ⟨h, h'⟩

theorem allStand_under {steps : Path} (hsteps : v.get? steps = some w)
    (h : AllStand source w findings) : AllStand source v (findings.map (Finding.under steps)) :=
  List.forall_mem_map.mpr fun f hf => (h f hf).under hsteps

/-- A finding at the root stands there. -/
theorem Stands.here {fault : Fault} (h : fault.rule ≠ .missingPoint) : Stands source v ⟨[], fault⟩ :=
  .value rfl h

section Position

variable {fields : List (String × Json)} {name : String}

theorem checkCoordinate_stand (fields : List (String × Json)) (name : String) (least : Nat) :
    AllStand source (.object fields) (checkCoordinate fields name least).findings := by
  unfold checkCoordinate
  split
  · exact allStand_single (.here nofun)
  · rename_i value hvalue
    have hthere := (Json.get?_key name fields).trans hvalue
    split
    · split
      · exact allStand_nil
      · exact allStand_single (.value hthere nofun)
    · exact allStand_single (.value hthere nofun)
    · exact allStand_single (.value hthere nofun)

theorem sourceFindings_stand (p : Point) : AllStand source v (sourceFindings source p) := by
  unfold sourceFindings
  split
  · exact allStand_nil
  · split
    · exact allStand_nil
    · split
      · exact allStand_single (.here nofun)
      · exact allStand_single (.here nofun)

/-- What is found at a point is found in its position, where the point may be missing. -/
theorem checkPoint_stand (hname : name = "start" ∨ name = "end") :
    AllStand source (.object fields)
      ((checkPoint source name (Json.present? name fields)).findings.map
        (Finding.under [.key name])) := by
  cases hpoint : Json.present? name fields with
  | none =>
      have hmissing : Stands source (.object fields) ⟨[] ++ [.key name], .missingPoint name⟩ :=
        .missing rfl hname hpoint
      exact allStand_single hmissing
  | some v =>
      apply allStand_under (Json.get?_present hpoint)
      unfold checkPoint
      split
      · rename_i h
        cases h
      · rename_i inner h
        cases h
        have hcoordinates : AllStand source (.object inner) _ := allStand_append
          (allStand_append (checkCoordinate_stand inner "line" 1)
            (checkCoordinate_stand inner "column" 1)) (checkCoordinate_stand inner "offset" 0)
        simp only
        split
        · exact allStand_append hcoordinates (sourceFindings_stand _)
        · exact hcoordinates
      · exact allStand_single (.here nofun)

theorem checkColumns_stand (before items : List Json) :
    AllStand source (.array (before ++ items)) (checkColumns before.length items).findings := by
  induction items generalizing before with
  | nil => exact allStand_nil
  | cons item rest ih =>
      unfold checkColumns
      split
      · have hthere : (Json.array (before ++ item :: rest)).get? [.index before.length] =
            some item := by
          rw [Json.get?_index, List.getElem?_append_right (Nat.le_refl _), Nat.sub_self]
          rfl
        exact allStand_single (.value hthere nofun)
      · have hlater := ih (before ++ [item])
        rw [List.append_assoc, List.length_append] at hlater
        exact hlater

theorem checkIndent_stand (v : Json) : AllStand source v (checkIndent (some v)).findings := by
  unfold checkIndent
  split
  · exact allStand_nil
  · rename_i items h
    cases h
    exact checkColumns_stand [] items
  · rename_i other _ h
    cases h
    split
    · exact allStand_nil
    · exact allStand_single (.here nofun)

theorem indent_stand (source : Option Source) (fields : List (String × Json)) :
    AllStand source (.object fields)
      ((checkIndent (Json.present? "indent" fields)).findings.map (Finding.under [.key "indent"])) := by
  cases hindent : Json.present? "indent" fields with
  | none => exact allStand_nil
  | some v => exact allStand_under (Json.get?_present hindent) (checkIndent_stand v)

theorem mem_indentMismatches {s : Source} {index line : Nat} {columns : List Nat} {f : Finding}
    (hf : f ∈ indentMismatches s index line columns) :
    f.fault.rule = .invalidIndent ∧
      ∃ i column, columns[i]? = some column ∧ f.path = [.index (index + i)] := by
  induction columns generalizing index line with
  | nil => cases hf
  | cons column rest ih =>
      unfold indentMismatches at hf
      rcases List.mem_append.mp hf with hhere | hlater
      · split at hhere
        · split at hhere
          · cases hhere
          · rw [List.mem_singleton.mp hhere]
            exact ⟨rfl, 0, column, rfl, rfl⟩
        · cases hhere
      · obtain ⟨hrule, i, later, hcolumn, hpath⟩ := ih hlater
        refine ⟨hrule, i + 1, later, hcolumn, ?_⟩
        rw [hpath, Nat.add_assoc, Nat.add_comm 1]

/-- What comparing columns with lines can find: that they are too few or too many, or a column to
which a document objects. -/
theorem mem_checkIndentLines {start stop : Point} {columns : List Nat} {f : Finding}
    (hf : f ∈ (checkIndentLines source start stop columns).findings) :
    columns ≠ [] ∧ f.fault.rule = .invalidIndent ∧ (f.path = [] ∨
      source.isSome ∧ ∃ i column, columns[i]? = some column ∧ f.path = [.index i]) := by
  unfold checkIndentLines at hf
  split at hf
  · cases hf
  · rename_i hsome
    have hne : columns ≠ [] := fun hnil => hsome (by rw [hnil]; rfl)
    refine ⟨hne, ?_⟩
    split at hf
    · rw [List.mem_singleton.mp hf]
      exact ⟨rfl, .inl rfl⟩
    · split at hf
      · cases hf
      · obtain ⟨hrule, i, column, hcolumn, hpath⟩ := mem_indentMismatches hf
        rw [Nat.zero_add] at hpath
        exact ⟨hrule, .inr ⟨rfl, i, column, hcolumn, hpath⟩⟩

/-- A column is written as an item of the indent, or as the whole indent. -/
theorem Json.WritesIndent.get?_index {columns : List Nat} {index column : Nat}
    (h : Json.WritesIndent (some v) columns) (hcolumn : columns[index]? = some column) :
    v.get? [.index index] = some (.nat column) ∨ index = 0 ∧ v = .nat column := by
  unfold Json.WritesIndent at h
  split at h
  · rename_i heq
    cases heq
  · rename_i items heq
    cases heq
    left
    rw [get?_index, h.1, List.getElem?_map, hcolumn]
    rfl
  · rename_i heq
    cases heq
    obtain ⟨only, rfl, -, rfl⟩ := h
    right
    cases index with
    | zero => exact ⟨rfl, by rw [Option.some.inj hcolumn]⟩
    | succ index => cases hcolumn

/-- What is found when the columns of an indent are compared with lines stands in the indent, unless
it is a single column. -/
theorem indentLines_stand (source : Option Source) (start stop : Point) {columns : List Nat}
    (hcolumns : Json.WritesIndent (Json.present? "indent" fields) columns) :
    AllStand source (.object fields)
      ((checkIndentLines source start stop columns).findings.map (Finding.under [.key "indent"])) := by
  rw [AllStand, List.forall_mem_map]
  intro f hf
  obtain ⟨hne, hrule, hpath⟩ := mem_checkIndentLines hf
  obtain ⟨path, fault⟩ := f
  have hother : fault.rule ≠ .missingPoint := by
    rw [show fault.rule = .invalidIndent from hrule]
    decide
  cases hindent : Json.present? "indent" fields with
  | none =>
      rw [hindent] at hcolumns
      exact absurd hcolumns hne
  | some v =>
      rw [hindent] at hcolumns
      have hthere := Json.get?_present hindent
      rcases hpath with hroot | ⟨hsource, i, column, hcolumn, hitem⟩
      · cases hroot
        exact .value hthere hother
      · cases hitem
        rcases hcolumns.get?_index hcolumn with hvalue | ⟨rfl, rfl⟩
        · have hstands : Stands source v ⟨[.index i], fault⟩ := .value hvalue hother
          exact hstands.under hthere
        · have hstands : Stands source (.object fields) ⟨[] ++ [.key "indent", .index 0], fault⟩ :=
            .column hsource hthere hrule
          exact hstands

theorem checkPosition_stand (source : Option Source) (v : Json) :
    AllStand source v (checkPosition source v).findings := by
  unfold checkPosition
  split
  · rename_i fields
    have hparts : AllStand source (.object fields) _ := allStand_append
      (allStand_append (checkPoint_stand (.inl rfl)) (checkPoint_stand (.inr rfl)))
      (indent_stand source fields)
    simp only
    split
    · split
      · exact allStand_append hparts (allStand_single (.here nofun))
      · refine allStand_append hparts ?_
        -- Of an indent that is not usable no columns are left to compare.
        rcases checkIndent_cases (Json.present? "indent" fields) with ⟨columns, hcolumns, heq⟩ | ⟨-, f, heq⟩
        · rw [heq]
          exact indentLines_stand source _ _ hcolumns.1
        · rw [heq]
          exact allStand_nil
    · exact hparts
  · exact allStand_single (.here nofun)

end Position

namespace Checker

variable {c : Checker} {parent previous : Option Position} {fields : List (String × Json)}

theorem checkType_stand (source : Option Source) (fields : List (String × Json)) :
    AllStand source (.object fields) (checkType fields) := by
  unfold checkType
  split
  · exact allStand_single (.here nofun)
  · rename_i label htype
    split
    · exact allStand_single (.value ((Json.get?_key "type" fields).trans htype) nofun)
    · exact allStand_nil
  · rename_i value _ htype
    exact allStand_single (.value ((Json.get?_key "type" fields).trans htype) nofun)

theorem checkData_stand (source : Option Source) (fields : List (String × Json)) :
    AllStand source (.object fields) (checkData fields) := by
  unfold checkData
  split
  · exact allStand_nil
  · rename_i entries hdata
    split
    · rename_i hreserved
      obtain ⟨value, hvalue⟩ := Option.isSome_iff_exists.mp hreserved
      have hthere : (Json.object fields).get? [.key "data", .key reservedKey] = some value := by
        have hbelow := Json.get?_append (.object fields) [.key "data"] [.key reservedKey]
        rw [Json.get?_present hdata, Option.bind_some, Json.get?_key, hvalue] at hbelow
        exact hbelow
      exact allStand_single (.value hthere nofun)
    · exact allStand_nil
  · rename_i value _ hdata
    exact allStand_single (.value (Json.get?_present hdata) nofun)

theorem checkNodePosition_stand (c : Checker) (fields : List (String × Json)) :
    AllStand c.source (.object fields) (c.checkNodePosition fields).findings := by
  unfold checkNodePosition
  split
  · rename_i v hposition
    exact allStand_under (Json.get?_present hposition) (checkPosition_stand c.source v)
  · simp only
    split
    · exact allStand_single (.here nofun)
    · exact allStand_nil

/-- What is found at a node, and is no error, stands at the node. -/
theorem allStand_here {severity : Severity} {v : Json} {findings : List Finding}
    (h : ∀ f ∈ findings, f.path = [] ∧ f.fault.rule.severity = severity) (hmild : severity ≠ .error) :
    AllStand source v findings := by
  intro f hf
  obtain ⟨hpath, hseverity⟩ := h f hf
  obtain ⟨path, fault⟩ := f
  cases hpath
  refine .here ?_
  intro hrule
  rw [show fault.rule = .missingPoint from hrule] at hseverity
  exact hmild hseverity.symm

theorem checkItems_stand {v : Json} {items : List Json}
    (hitems : ∀ item ∈ items, AllStand c.source item (c.checkNode item).findings) (index : Nat)
    (hplaces : ∀ i item, items[i]? = some item →
      v.get? [.key "children", .index (index + i)] = some item) :
    AllStand c.source v (c.checkItems parent previous index items).findings := by
  induction items generalizing previous index with
  | nil => exact allStand_nil
  | cons item rest ih =>
      rw [List.forall_mem_cons] at hitems
      have hrelation : AllStand c.source item
          ((c.checkNode item).position.elim [] (c.relationFindings parent previous)) := by
        cases (c.checkNode item).position with
        | none => exact allStand_nil
        | some position => exact allStand_here relationFindings_warn (by decide)
      rw [checkItems_cons]
      refine allStand_append
        (allStand_under (hplaces 0 item rfl) (allStand_append hitems.1 hrelation))
        (ih hitems.2 (index + 1) ?_)
      intro i later hlater
      rw [Nat.add_assoc, Nat.add_comm 1]
      exact hplaces (i + 1) later hlater

theorem checkChildrenOf_stand
    (h : ∀ item ∈ (Json.object fields).childItems,
      AllStand c.source item (c.checkNode item).findings) :
    AllStand c.source (.object fields) (c.checkChildrenOf parent fields).findings := by
  cases hchildren : Json.present? "children" fields with
  | none => rw [checkChildrenOf_absent hchildren]; exact allStand_nil
  | some v =>
      by_cases hlist : ∃ items, v = .array items
      · obtain ⟨items, rfl⟩ := hlist
        have hbelow := Json.childItems_present hchildren
        rw [hbelow] at h
        rw [checkChildrenOf_list hchildren]
        refine checkItems_stand h 0 ?_
        intro i item hitem
        rw [Nat.zero_add, Json.get?_child, hbelow, hitem]
        rfl
      · rw [checkChildrenOf_other hchildren fun items hv => hlist ⟨items, hv⟩]
        exact allStand_single (.value (Json.get?_present hchildren) nofun)

theorem checkNode_stand (c : Checker) (v : Json) : AllStand c.source v (c.checkNode v).findings := by
  induction v using Json.node_induction with
  | step v ih =>
      by_cases hobject : ∃ fields, v = .object fields
      · obtain ⟨fields, rfl⟩ := hobject
        rw [checkNode_object]
        exact allStand_append (allStand_append (allStand_append (allStand_append
          (checkType_stand c.source fields) (checkData_stand c.source fields))
          (checkNodePosition_stand c fields)) (checkChildrenOf_stand ih))
          (allStand_here hybridFindings_hint (by decide))
      · rw [checkNode_other fun fields hv => hobject ⟨fields, hv⟩]
        exact allStand_single (.here nofun)

end Checker

namespace Json

/-- The path leads to a point that an object does not have, or has as null. -/
def LacksPoint (v : Json) (path : Path) : Prop :=
  ∃ place fields name, path = place ++ [.key name] ∧ (name = "start" ∨ name = "end") ∧
    v.get? place = some (.object fields) ∧
    (Entries.get? name fields = none ∨ Entries.get? name fields = some .null)

/-- The path leads to the first item of an indent that has no items, but is a single column. -/
def PastColumn (v : Json) (path : Path) : Prop :=
  ∃ place column, path = place ++ [.key "indent", .index 0] ∧
    v.get? (place ++ [.key "indent"]) = some (.nat column)

end Json

namespace Checker

/-- The path of each diagnostic leads to a value of the tree, unless the diagnostic says that a point
is missing there; or unless a document does not confirm an indent that is a single column, which is
reported as the first item of a list. -/
theorem diagnostic_place (c : Checker) (tree : Json) (d : Diagnostic)
    (hd : d ∈ (c.check tree).diagnostics) :
    ∃ path : Path, path.Spells d.path ∧
      (d.rule = .missingPoint ∧ tree.LacksPoint path ∨
        d.rule ≠ .missingPoint ∧ (∃ v, tree.get? path = some v) ∨
        d.rule = .invalidIndent ∧ c.source.isSome ∧ tree.PastColumn path) := by
  obtain ⟨f, hf, rfl⟩ := List.mem_map.mp hd
  refine ⟨f.path, ⟨checkNode_plainPaths c tree f hf, rfl⟩, ?_⟩
  cases checkNode_stand c tree f hf with
  | value hvalue hrule => exact .inr (.inl ⟨hrule, _, hvalue⟩)
  | missing hplace hname hnone =>
      exact .inl ⟨rfl, _, _, _, rfl, hname, hplace, Json.present?_eq_none_iff.mp hnone⟩
  | column hsource hplace hrule => exact .inr (.inr ⟨hrule, hsource, _, _, rfl, hplace⟩)

/-- The position of a child has no end. -/
theorem diagnostic_place_missing_end :
    let position := Json.object [("indent", .nat 2), ("start", (Point.mk 1 1 0).toJson)]
    let child := Json.object [("position", position), ("type", .string "text")]
    let tree := Json.object [("children", .array [child]), ("type", .string "root")]
    let d := Diagnostic.mk .missingPoint "$.children[0].position.end" "position has no `end` point"
    d ∈ ((default.withSource "a\nbc").check tree).diagnostics ∧
      tree.LacksPoint [.key "children", .index 0, .key "position", .key "end"] := by
  intro position child tree d
  have hd : d ∈ ((default.withSource "a\nbc").check tree).diagnostics := by decide
  obtain ⟨path, hpath, hplace⟩ := diagnostic_place _ tree d hd
  cases hpath.unique
    (show Path.Spells [.key "children", .index 0, .key "position", .key "end"] d.path from
      ⟨by decide, by decide⟩)
  rcases hplace with ⟨-, hlacks⟩ | ⟨hrule, -⟩ | ⟨hrule, -⟩
  · exact ⟨hd, hlacks⟩
  · exact absurd rfl hrule
  · cases hrule

/-- A single column that the document does not confirm is reported at a place that is not there. -/
theorem single_column_without_place :
    let position := Json.object [("end", (Point.mk 2 2 3).toJson), ("indent", .nat 3),
      ("start", (Point.mk 1 1 0).toJson)]
    let tree := Json.object [("position", position), ("type", .string "text")]
    ∃ d ∈ ((default.withSource "a\nbc").check tree).diagnostics, d.rule ≠ .missingPoint ∧
      ∀ path : Path, path.Spells d.path → tree.get? path = none := by
  intro position tree
  refine ⟨⟨.invalidIndent, "$.position.indent[0]",
    "indent column 3 does not match the source, where line 2 starts at column 1"⟩, by decide,
    by decide, ?_⟩
  intro path hpath
  cases hpath.unique
    (show Path.Spells [.key "position", .key "indent", .index 0] "$.position.indent[0]" from
      ⟨by decide, by decide⟩)
  rfl

end Checker

end TreeShape
