import TreeShape.Proofs.Checker.Node
import TreeShape.Proofs.Shape.Node
import TreeShape.Proofs.Shape.Similar
/- A report tells what the contract of a tree asks for and nothing else: similar trees get the same
report, word for word. -/
namespace TreeShape

section Position

variable {v w : Json}

theorem checkPosition_other (source : Option Source) (hv : v.kind ≠ .object) :
    checkPosition source v = ⟨none, [⟨[], .invalidPosition v.kind⟩]⟩ := by
  cases v with
  | object fields => exact absurd rfl hv
  | null => rfl
  | bool value => rfl
  | number value => rfl
  | string value => rfl
  | array items => rfl

theorem checkPosition_similar (source : Option Source) (h : v.SimilarPosition w) :
    checkPosition source v = checkPosition source w := by
  cases h with
  | parts hstart hstop hindent => simp only [checkPosition, hstart, hstop, hindent]
  | other hkind =>
      rw [checkPosition_other source hkind.other, checkPosition_other source hkind.symm.other,
        hkind.same]

end Position

namespace Checker

variable {c : Checker} {v w : Json}

section Parts

variable {fields fields' : List (String × Json)}

theorem checkType_named {label : String} (h : Entries.get? "type" fields = some (.string label))
    (hlabel : label ≠ "") : checkType fields = [] :=
  checkType_eq_nil_iff.mpr ⟨label, h, hlabel⟩

theorem checkType_other (h : Entries.get? "type" fields = some v) (hv : v.kind ≠ .string) :
    checkType fields = [⟨[.key "type"], .invalidType v.kind⟩] := by
  rw [checkType, h]
  cases v with
  | string value => exact absurd rfl hv
  | null => rfl
  | bool value => rfl
  | number value => rfl
  | array items => rfl
  | object fields => rfl

theorem checkData_other (h : Json.present? "data" fields = some v) (hv : v.kind ≠ .object) :
    checkData fields = [⟨[.key "data"], .invalidData v.kind⟩] := by
  rw [checkData, h]
  cases v with
  | object fields => exact absurd rfl hv
  | null => rfl
  | bool value => rfl
  | number value => rfl
  | string value => rfl
  | array items => rfl

theorem checkType_similar (h : Json.SimilarParts fields fields') :
    checkType fields = checkType fields' := by
  rcases cases_of_rel h.type with ⟨hnone, hnone'⟩ | ⟨v, w, htype, htype', hlabel⟩
  · rw [checkType, checkType, hnone, hnone']
  · cases hlabel with
    | empty => rw [checkType, checkType, htype, htype']
    | named hne hne' => rw [checkType_named htype hne, checkType_named htype' hne']
    | other hkind =>
        rw [checkType_other htype hkind.other, checkType_other htype' hkind.symm.other, hkind.same]

theorem checkData_similar (h : Json.SimilarParts fields fields') :
    checkData fields = checkData fields' := by
  rcases cases_of_rel h.data with ⟨hnone, hnone'⟩ | ⟨v, w, hdata, hdata', hentries⟩
  · rw [checkData, checkData, hnone, hnone']
  · cases hentries with
    | entries hreserved => simp only [checkData, hdata, hdata', hreserved]
    | other hkind =>
        rw [checkData_other hdata hkind.other, checkData_other hdata' hkind.symm.other, hkind.same]

theorem checkNodePosition_similar (c : Checker) (h : Json.SimilarParts fields fields') :
    c.checkNodePosition fields = c.checkNodePosition fields' := by
  rcases cases_of_rel h.position with ⟨hnone, hnone'⟩ | ⟨v, w, hposition, hposition', hparts⟩
  · simp only [checkNodePosition, hnone, hnone']
  · simp only [checkNodePosition, hposition, hposition', checkPosition_similar c.source hparts]

theorem checkNode_object_similar (c : Checker) (h : Json.SimilarParts fields fields')
    (hchildren : (Json.present? "children" fields).isSome =
      (Json.present? "children" fields').isSome)
    (hbelow : ∀ parent, c.checkChildrenOf parent fields = c.checkChildrenOf parent fields') :
    c.checkNode (.object fields) = c.checkNode (.object fields') := by
  rw [checkNode_object, checkNode_object, checkType_similar h, checkData_similar h,
    checkNodePosition_similar c h, hbelow, hybridFindings_congr h.value hchildren]

end Parts

theorem checkItems_congr {items items' : List Json}
    (h : List.Forall₂ (fun v w => c.checkNode v = c.checkNode w) items items')
    (parent previous : Option Position) (index : Nat) :
    c.checkItems parent previous index items = c.checkItems parent previous index items' := by
  induction h generalizing previous index with
  | nil => rfl
  | cons hhead htail ih => rw [checkItems_cons, checkItems_cons, hhead, ih]

/-- What is found in a tree depends on what similar trees share. -/
theorem checkNode_similar (c : Checker) (h : v.Similar w) : c.checkNode v = c.checkNode w := by
  induction h with
  | other hkind =>
      rw [checkNode_other hkind.ne_object, checkNode_other hkind.symm.ne_object, hkind.same]
  | leaf hparts hnone hnone' =>
      refine checkNode_object_similar c hparts (by rw [hnone, hnone']) fun parent => ?_
      rw [checkChildrenOf_absent hnone, checkChildrenOf_absent hnone']
  | unlisted hparts hchildren hchildren' hkind =>
      refine checkNode_object_similar c hparts (by rw [hchildren, hchildren']; rfl) fun parent => ?_
      rw [checkChildrenOf_other hchildren hkind.ne_array,
        checkChildrenOf_other hchildren' hkind.symm.ne_array, hkind.same]
  | parent hparts hitems hitems' hlength hall ih =>
      refine checkNode_object_similar c hparts (by rw [hitems, hitems']; rfl) fun parent => ?_
      rw [checkChildrenOf_list hitems, checkChildrenOf_list hitems']
      refine checkItems_congr ?_ parent none 0
      exact List.forall₂_iff_zip.mpr ⟨hlength, fun hmem => ih _ _ hmem⟩

/-- Similar trees get the same report, whatever is checked and against whatever source. Labels,
what data and values hold, nulls that stand for absent parts and fields that no node has do not show
in it. -/
theorem check_similar (c : Checker) (v w : Json) (h : v.Similar w) : c.check v = c.check w := by
  rw [check, check, checkNode_similar c h]

/-- The trees differ in labels, data, value, nulls and fields; in both the last child starts before
the first, and an item is no node. -/
theorem check_similar_two_children :
    let c := (Checker.mk ⟨true, true, true, true, true⟩ none).withSource "a\n  b"
    let start := (Point.mk 1 1 0).toJson
    let stop := (Point.mk 2 4 5).toJson
    let first := Json.object [("position", .object [("end", stop), ("start", stop)]),
      ("type", .string "text")]
    let first' := Json.object [("children", .null), ("data", .null), ("lang", .string "en"),
      ("position", .object [("end", stop), ("indent", .null), ("start", stop)]),
      ("type", .string "code")]
    let last := Json.object [("position", .object [("end", stop), ("start", start)]),
      ("type", .null)]
    let last' := Json.object [("data", .null),
      ("position", .object [("end", stop), ("note", .null), ("start", start)]), ("type", .null)]
    let v := Json.object [("children", .array [first, .string "text", last]),
      ("data", .object [("note", .nat 1)]),
      ("position", .object [("end", stop), ("start", start)]), ("type", .string "root"),
      ("value", .nat 1)]
    let w := Json.object [("children", .array [first', .string "code", last']),
      ("data", .object []), ("position", .object [("end", stop), ("start", start)]),
      ("type", .string "block"), ("value", .null)]
    v.Similar w ∧ c.check v = c.check w ∧
      (c.check w).diagnostics.map (·.rule) =
        [.notANode, .invalidType, .childrenOutOfOrder, .hybridNode] := by
  intro c start stop first first' last last' v w
  have hfirst : first.Similar first' :=
    .leaf ⟨.some (.named (by decide) (by decide)), .none, .some (.parts rfl rfl rfl), rfl⟩ rfl rfl
  have hlast : last.Similar last' :=
    .leaf ⟨.some (.other ⟨by decide, rfl⟩), .none, .some (.parts rfl rfl rfl), rfl⟩ rfl rfl
  have hitems : List.Forall₂ Json.Similar [first, .string "text", last]
      [first', .string "code", last'] :=
    .cons hfirst (.cons (.other ⟨by decide, rfl⟩) (.cons hlast .nil))
  have hsimilar : v.Similar w :=
    .parent ⟨.some (.named (by decide) (by decide)), .some (.entries rfl),
      .some (.parts rfl rfl rfl), rfl⟩ rfl rfl rfl
      fun _ _ hmem => (List.forall₂_iff_zip.mp hitems).2 hmem
  refine ⟨hsimilar, check_similar c v w hsimilar, ?_⟩
  rw [← check_similar c v w hsimilar]
  decide

end Checker

end TreeShape
