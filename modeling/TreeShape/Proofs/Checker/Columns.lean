import TreeShape.Proofs.Checker.Places
/- What is reported of the entries of an indent that are no columns: the first one, and none of those
after it. -/
namespace TreeShape

namespace Json

/-- The value is a column: a whole number, counted from one, that fits a word. -/
def IsColumn (v : Json) : Prop := ∃ n, v = .nat n ∧ n < wordLimit ∧ 1 ≤ n

/-- The entries of a list before an index are columns. -/
def ColumnsBefore (items : List Json) (index : Nat) : Prop :=
  ∀ i < index, ∀ item, items[i]? = some item → item.IsColumn

theorem columnsBefore_zero (items : List Json) : ColumnsBefore items 0 := by
  intro i hi
  exact absurd hi (Nat.not_lt_zero i)

theorem columnsBefore_succ_iff {item : Json} {rest : List Json} {index : Nat} :
    ColumnsBefore (item :: rest) (index + 1) ↔ item.IsColumn ∧ ColumnsBefore rest index := by
  constructor
  · intro h
    refine ⟨h 0 (Nat.succ_pos index) item rfl, ?_⟩
    intro i hi later hlater
    exact h (i + 1) (Nat.succ_lt_succ hi) later hlater
  · rintro ⟨hitem, hrest⟩ i hi later hlater
    cases i with
    | zero =>
        cases hlater
        exact hitem
    | succ i => exact hrest i (Nat.lt_of_succ_lt_succ hi) later hlater

end Json

theorem column?_eq_none_iff {v : Json} : column? v = none ↔ ¬ v.IsColumn := by
  rw [Option.eq_none_iff_forall_ne_some, Json.IsColumn, not_exists]
  exact forall_congr' fun n => not_congr column?_eq_some_iff

/-- Reading columns finds the first entry that is none, and nothing else. -/
theorem mem_checkColumns_iff {items : List Json} {start : Nat} {f : Finding} :
    f ∈ (checkColumns start items).findings ↔
      ∃ i item, items[i]? = some item ∧ ¬ item.IsColumn ∧ Json.ColumnsBefore items i ∧
        f = ⟨[.index (start + i)], .notAColumn item⟩ := by
  induction items generalizing start with
  | nil => simp [checkColumns]
  | cons first rest ih =>
      unfold checkColumns
      cases hfirst : column? first with
      | none =>
          have hbad := column?_eq_none_iff.mp hfirst
          rw [List.mem_singleton]
          constructor
          · rintro rfl
            exact ⟨0, first, rfl, hbad, Json.columnsBefore_zero _, rfl⟩
          · rintro ⟨i, item, hitem, -, hbefore, rfl⟩
            cases i with
            | zero =>
                cases hitem
                rfl
            | succ i => exact absurd (Json.columnsBefore_succ_iff.mp hbefore).1 hbad
      | some column =>
          have hgood : first.IsColumn := ⟨column, column?_eq_some_iff.mp hfirst⟩
          rw [ih]
          constructor
          · rintro ⟨i, item, hitem, hbad, hbefore, rfl⟩
            refine ⟨i + 1, item, hitem, hbad, Json.columnsBefore_succ_iff.mpr ⟨hgood, hbefore⟩, ?_⟩
            rw [Nat.add_assoc, Nat.add_comm 1]
          · rintro ⟨i, item, hitem, hbad, hbefore, rfl⟩
            cases i with
            | zero =>
                cases hitem
                exact absurd hgood hbad
            | succ i =>
                refine ⟨i, item, hitem, hbad, (Json.columnsBefore_succ_iff.mp hbefore).2, ?_⟩
                rw [Nat.add_assoc, Nat.add_comm 1]

section Position

variable {source : Option Source} {parts : List (String × Json)} {items : List Json} {item : Json}
  {index : Nat}

/-- An entry that is no column leaves nothing to compare with the lines of a document. -/
theorem checkIndent_of_not_column (hitem : items[index]? = some item) (hbad : ¬ item.IsColumn) :
    (checkIndent (some (.array items))).value = [] := by
  rcases checkIndent_cases (some (.array items)) with ⟨columns, hcolumns, -⟩ | ⟨-, f, heq⟩
  · exfalso
    obtain ⟨⟨hwrites, hfits⟩, hpos⟩ := hcolumns
    rw [hwrites] at hitem
    obtain ⟨column, hcolumn, rfl⟩ := List.mem_map.mp (List.mem_of_getElem? hitem)
    exact hbad ⟨column, rfl, hfits column hcolumn, hpos column hcolumn⟩
  · rw [heq]

/-- An entry after another that is no column is passed over. -/
theorem silent_later_column (hindent : Json.present? "indent" parts = some (.array items))
    (hitem : items[index]? = some item) (hbad : ¬ item.IsColumn)
    (hlater : ¬ Json.ColumnsBefore items index) :
    Silent [.key "indent", .index index] (checkPosition source (.object parts)).findings := by
  have hpoint : ∀ (name : String) (findings : List Finding), name ≠ "indent" →
      Silent [.key "indent", .index index] (findings.map (Finding.under [.key name])) := by
    intro name findings hname
    exact silent_under_of_apart (by simp [List.cons_prefix_cons, Ne.symm hname])
  have hcolumns : Silent [.key "indent", .index index]
      ((checkIndent (some (.array items))).findings.map (Finding.under [.key "indent"])) := by
    refine (silent_under [.index index] [.key "indent"] _).mpr ?_
    intro f hf
    obtain ⟨i, other, hother, hotherBad, hbefore, rfl⟩ := mem_checkColumns_iff.mp hf
    rw [Nat.zero_add, List.cons_prefix_cons, Step.index.injEq]
    rintro ⟨rfl, -⟩
    exact hlater hbefore
  have hparts := fun first second => silent_append.mpr ⟨silent_append.mpr
    ⟨hpoint "start" first (by decide), hpoint "end" second (by decide)⟩, hcolumns⟩
  simp only [checkPosition, hindent, checkIndent_of_not_column hitem hbad]
  split
  · split
    · exact silent_append.mpr ⟨hparts _ _, silent_single (by simp)⟩
    · exact silent_append.mpr ⟨hparts _ _, silent_nil _⟩
  · exact hparts _ _

end Position

namespace Checker

/-- Of the entries of an indent that are no columns, the first is reported, and no other. -/
theorem unusable_column_reported_iff (c : Checker) {tree entry : Json} {address : List Nat}
    {fields parts : List (String × Json)} {items : List Json} {index : Nat}
    (hnode : tree.get? (nodePath address) = some (.object fields))
    (hposition : Json.present? "position" fields = some (.object parts))
    (hindent : Json.present? "indent" parts = some (.array items))
    (hentry : items[index]? = some entry) (hbad : ¬ entry.IsColumn) :
    let place := nodePath address ++ [.key "position", .key "indent", .index index]
    let found := Diagnostic.mk .invalidIndent (Path.text place) (Fault.notAColumn entry).message
    (found ∈ (c.check tree).diagnostics ↔ Json.ColumnsBefore items index) ∧
      ((∃ d ∈ (c.check tree).diagnostics, d.path = Path.text place) ↔
        Json.ColumnsBefore items index) := by
  intro place found
  have hfirst : Json.ColumnsBefore items index → found ∈ (c.check tree).diagnostics := by
    intro hbefore
    have hcolumn : ⟨[.index index], .notAColumn entry⟩ ∈
        (checkIndent (Json.present? "indent" parts)).findings := by
      rw [hindent]
      exact mem_checkColumns_iff.mpr ⟨index, entry, hentry, hbad, hbefore, by rw [Nat.zero_add]⟩
    have hfound := mem_checkNode_of_node (c := c) hnode
      (mem_checkNode_of_position hposition (mem_checkPosition_of_indent hcolumn))
    exact List.mem_map_of_mem hfound
  have hlater : (∃ d ∈ (c.check tree).diagnostics, d.path = Path.text place) →
      Json.ColumnsBefore items index := by
    rintro ⟨d, hd, hpath⟩
    apply Classical.byContradiction
    intro hnot
    have hplain : ∀ step ∈ place, step.Plain := List.forall_mem_append.mpr
      ⟨plain_of_mem_nodePath address, by simp [Step.Plain, startsStep]⟩
    have hsilent : Silent place (c.checkNode tree).findings :=
      (silent_nodePath (by simp) hnode).mpr ((silent_below_position hposition).mpr
        (silent_later_column hindent hentry hbad hnot))
    exact (silent_iff_diagnostics hplain).mpr hsilent d hd ⟨[], by rw [List.append_nil, hpath]⟩
  exact ⟨⟨fun h => hlater ⟨found, h, rfl⟩, hfirst⟩, ⟨hlater, fun h => ⟨found, hfirst h, rfl⟩⟩⟩

/-- The second and the third column of a child are a text and zero, and the document ends early. -/
theorem unusable_column_reported_iff_text :
    let position := Json.object [("end", (Point.mk 4 1 9).toJson),
      ("indent", .array [.nat 1, .string "1", .nat 0]), ("start", (Point.mk 1 1 0).toJson)]
    let tree := Json.object [("children", .array [.object [("position", position)]])]
    let found := (Checker.default.withSource "a\nb").check tree
    Diagnostic.mk .invalidIndent "$.children[0].position.indent[1]"
        "indent entries must be columns of 1 or greater, found \"1\"" ∈ found.diagnostics ∧
      ∀ d ∈ found.diagnostics, d.path ≠ "$.children[0].position.indent[2]" := by
  intro position tree found
  have hnode : tree.get? (nodePath [0]) = some (.object [("position", position)]) := by rfl
  have hposition : Json.present? "position" [("position", position)] = some position := by rfl
  have hfirst : ¬ (Json.string "1").IsColumn := column?_eq_none_iff.mp (by rfl)
  have hsecond : ¬ (Json.nat 0).IsColumn := column?_eq_none_iff.mp (by rfl)
  have hbefore : Json.ColumnsBefore [.nat 1, .string "1", .nat 0] 1 :=
    Json.columnsBefore_succ_iff.mpr ⟨⟨1, rfl, by decide, by decide⟩, Json.columnsBefore_zero _⟩
  refine ⟨?_, ?_⟩
  · exact (unusable_column_reported_iff _ hnode hposition rfl
      (show [Json.nat 1, .string "1", .nat 0][1]? = some (.string "1") from rfl) hfirst).1.mpr hbefore
  · intro d hd hpath
    have hall := (unusable_column_reported_iff _ hnode hposition rfl
      (show [Json.nat 1, .string "1", .nat 0][2]? = some (.nat 0) from rfl) hsecond).2.mp
      ⟨d, hd, hpath⟩
    exact hfirst (hall 1 (by decide) _ rfl)

/-- Of two entries that are no columns only the first is reported. -/
theorem second_unusable_column_not_reported :
    let position := Json.object [("end", (Point.mk 3 1 2).toJson),
      ("indent", .array [.nat 0, .nat 0]), ("start", (Point.mk 1 1 0).toJson)]
    let tree := Json.object [("position", position), ("type", .string "text")]
    ¬ (Json.nat 0).IsColumn ∧ ∀ d ∈ (default.check tree).diagnostics,
      ¬ ".indent[1]".toList <:+ d.path.toList := by
  intro position tree
  exact ⟨column?_eq_none_iff.mp (by rfl), by decide⟩

end Checker

end TreeShape
