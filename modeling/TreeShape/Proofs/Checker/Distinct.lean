import TreeShape.Proofs.Checker.Concerned
import TreeShape.Proofs.Checker.Standing
/- Nothing is found twice: of the findings in a tree no two agree in rule, place and message. Parts
of a value are told apart by their keys, and what is found at the value itself by rule and message. -/
namespace TreeShape

/-- What a report tells of a finding. -/
def Finding.told (f : Finding) : Rule × Path × String := (f.fault.rule, f.path, f.fault.message)

/-- No two of the findings tell the same. -/
def Distinct (findings : List Finding) : Prop := findings.Pairwise fun f g => f.told ≠ g.told

/-- Nothing that the first findings tell is told by the second. -/
def Apart (first second : List Finding) : Prop := ∀ f ∈ first, ∀ g ∈ second, f.told ≠ g.told

section

variable {first second findings : List Finding} {steps : Path}

theorem distinct_nil : Distinct [] := .nil

theorem distinct_single (f : Finding) : Distinct [f] := List.pairwise_singleton _ f

theorem distinct_append (h : Distinct first) (h' : Distinct second) (hapart : Apart first second) :
    Distinct (first ++ second) :=
  List.pairwise_append.mpr ⟨h, h', hapart⟩

theorem distinct_under (steps : Path) (h : Distinct findings) :
    Distinct (findings.map (Finding.under steps)) := by
  rw [Distinct, List.pairwise_map]
  refine h.imp ?_
  intro f g hne hsame
  apply hne
  simpa only [Finding.told, Finding.under, Prod.mk.injEq, List.append_cancel_left_eq] using hsame

/-- What is found below some steps is not found elsewhere. -/
theorem apart_of_silent (h : Silent steps second) :
    Apart (first.map (Finding.under steps)) second := by
  rw [Apart, List.forall_mem_map]
  intro f _ g hg hsame
  apply h g hg
  rw [← show (f.under steps).path = g.path from congrArg (·.2.1) hsame]
  exact List.prefix_append steps f.path

end

/-- Where in a value something is found: below a key, or at the value itself as a certain fault. -/
inductive Spot where
  | inside (key : String)
  | here (fault : Fault)

namespace Spot

def Holds : Spot → Finding → Prop
  | inside key, f => ∃ rest, f.path = .key key :: rest
  | here fault, f => f = ⟨[], fault⟩

/-- Nothing is found at both spots. -/
def Unlike : Spot → Spot → Prop
  | inside key, inside other => key ≠ other
  | here fault, here other => fault.rule ≠ other.rule ∨ fault.message ≠ other.message
  | _, _ => True

instance (spot other : Spot) : Decidable (spot.Unlike other) :=
  match spot, other with
  | inside _, inside _ => inferInstanceAs (Decidable (_ ≠ _))
  | here _, here _ => inferInstanceAs (Decidable (_ ∨ _))
  | inside _, here _ => inferInstanceAs (Decidable True)
  | here _, inside _ => inferInstanceAs (Decidable True)

theorem Unlike.told_ne {spot other : Spot} {f g : Finding} (h : spot.Unlike other)
    (hf : spot.Holds f) (hg : other.Holds g) : f.told ≠ g.told := by
  intro hsame
  have hpath : f.path = g.path := congrArg (·.2.1) hsame
  cases spot with
  | inside key =>
      obtain ⟨rest, hf⟩ := hf
      rw [hpath] at hf
      cases other with
      | inside key' =>
          obtain ⟨rest', hg⟩ := hg
          cases hf.symm.trans hg
          exact h rfl
      | here fault =>
          cases hg
          cases hf
  | here fault =>
      cases hf
      cases other with
      | inside key =>
          obtain ⟨rest, hg⟩ := hg
          cases hpath.trans hg
      | here fault' =>
          cases hg
          rcases h with hrule | hmessage
          · exact hrule (congrArg (·.1) hsame)
          · exact hmessage (congrArg (·.2.2) hsame)

end Spot

/-- The findings are at some spots, and no two tell the same. -/
structure FoundAt (spots : List Spot) (findings : List Finding) : Prop where
  covered : ∀ f ∈ findings, ∃ spot ∈ spots, spot.Holds f
  distinct : Distinct findings

theorem FoundAt.append {spots others : List Spot} {first second : List Finding}
    (h : FoundAt spots first) (h' : FoundAt others second)
    (hunlike : ∀ spot ∈ spots, ∀ other ∈ others, spot.Unlike other) :
    FoundAt (spots ++ others) (first ++ second) := by
  constructor
  · rw [List.forall_mem_append]
    constructor
    · intro f hf
      obtain ⟨spot, hspot, hholds⟩ := h.covered f hf
      exact ⟨spot, List.mem_append_left _ hspot, hholds⟩
    · intro f hf
      obtain ⟨spot, hspot, hholds⟩ := h'.covered f hf
      exact ⟨spot, List.mem_append_right _ hspot, hholds⟩
  · refine distinct_append h.distinct h'.distinct ?_
    intro f hf g hg
    obtain ⟨spot, hspot, hholds⟩ := h.covered f hf
    obtain ⟨other, hother, hholds'⟩ := h'.covered g hg
    exact (hunlike spot hspot other hother).told_ne hholds hholds'

theorem FoundAt.mono {spots more : List Spot} {findings : List Finding} (h : FoundAt spots findings)
    (hmore : ∀ spot ∈ spots, spot ∈ more) : FoundAt more findings := by
  refine ⟨?_, h.distinct⟩
  intro f hf
  obtain ⟨spot, hspot, hholds⟩ := h.covered f hf
  exact ⟨spot, hmore spot hspot, hholds⟩

theorem foundAt_nil (spots : List Spot) : FoundAt spots [] := ⟨by simp, distinct_nil⟩

theorem foundAt_single {spots : List Spot} {spot : Spot} {f : Finding} (hspot : spot ∈ spots)
    (hholds : spot.Holds f) : FoundAt spots [f] := by
  refine ⟨?_, distinct_single f⟩
  rw [List.forall_mem_singleton]
  exact ⟨spot, hspot, hholds⟩

theorem foundAt_inside {spots : List Spot} {key : String} (h : .inside key ∈ spots) (rest : Path)
    (fault : Fault) : FoundAt spots [⟨.key key :: rest, fault⟩] :=
  foundAt_single h ⟨rest, rfl⟩

theorem foundAt_here {spots : List Spot} {fault : Fault} (h : .here fault ∈ spots) :
    FoundAt spots [⟨[], fault⟩] :=
  foundAt_single h rfl

theorem foundAt_under (key : String) {findings : List Finding} (h : Distinct findings) :
    FoundAt [.inside key] (findings.map (Finding.under [.key key])) := by
  refine ⟨?_, distinct_under [.key key] h⟩
  rw [List.forall_mem_map]
  intro f _
  exact ⟨.inside key, List.mem_singleton_self _, f.path, rfl⟩

theorem checkCoordinate_foundAt (fields : List (String × Json)) (name : String) (least : Nat) :
    FoundAt [.inside name, .here (.missingCoordinate name)]
      (checkCoordinate fields name least).findings := by
  have hinside : ∀ fault, FoundAt [.inside name, .here (.missingCoordinate name)]
      [⟨[.key name], fault⟩] := foundAt_inside List.mem_cons_self []
  unfold checkCoordinate
  split
  · exact foundAt_here (by simp)
  · split
    · split
      · exact foundAt_nil _
      · exact hinside _
    · exact hinside _
    · exact hinside _

theorem sourceFindings_distinct (source : Option Source) (p : Point) :
    Distinct (sourceFindings source p) := by
  unfold sourceFindings
  split
  · exact distinct_nil
  · split
    · exact distinct_nil
    · split
      · exact distinct_single _
      · exact distinct_single _

theorem checkPoint_distinct (source : Option Source) (name : String) (value : Option Json) :
    Distinct (checkPoint source name value).findings := by
  unfold checkPoint
  split
  · exact distinct_single _
  · rename_i fields
    simp only
    split
    · rename_i line column offset hline hcolumn hoffset
      rw [checkCoordinate_findings_iff.mpr ⟨_, hline⟩, checkCoordinate_findings_iff.mpr ⟨_, hcolumn⟩,
        checkCoordinate_findings_iff.mpr ⟨_, hoffset⟩]
      exact sourceFindings_distinct source _
    · -- Coordinates that are not there are told apart by the messages alone.
      have hcoordinates := ((checkCoordinate_foundAt fields "line" 1).append
        (checkCoordinate_foundAt fields "column" 1) (by decide)).append
        (checkCoordinate_foundAt fields "offset" 0) (by decide)
      exact hcoordinates.distinct
  · exact distinct_single _

theorem indentMismatches_distinct (source : Source) (index line : Nat) (columns : List Nat) :
    Distinct (indentMismatches source index line columns) := by
  induction columns generalizing index line with
  | nil => exact distinct_nil
  | cons column rest ih =>
      unfold indentMismatches
      split
      · split
        · exact ih (index + 1) (line + 1)
        · refine List.pairwise_cons.mpr ⟨?_, ih (index + 1) (line + 1)⟩
          intro g hg hsame
          obtain ⟨-, i, column, -, hpath⟩ := mem_indentMismatches hg
          have hindex : [Step.index index] = [.index (index + 1 + i)] :=
            (congrArg (·.2.1) hsame).trans hpath
          simp at hindex
          omega
      · exact ih (index + 1) (line + 1)

theorem checkIndentLines_distinct (source : Option Source) (start stop : Point)
    (columns : List Nat) : Distinct (checkIndentLines source start stop columns).findings := by
  unfold checkIndentLines
  split
  · exact distinct_nil
  · split
    · exact distinct_single _
    · split
      · exact distinct_nil
      · exact indentMismatches_distinct _ _ _ _

theorem checkIndent_distinct (indent : Option Json) : Distinct (checkIndent indent).findings := by
  rcases checkIndent_cases indent with ⟨columns, -, heq⟩ | ⟨-, f, heq⟩
  · rw [heq]
    exact distinct_nil
  · rw [heq]
    exact distinct_single f

theorem checkPosition_distinct (source : Option Source) (v : Json) :
    Distinct (checkPosition source v).findings := by
  unfold checkPosition
  split
  · rename_i fields
    have hends := (foundAt_under "start"
      (checkPoint_distinct source "start" (Json.present? "start" fields))).append
      (foundAt_under "end" (checkPoint_distinct source "end" (Json.present? "end" fields)))
      (by decide)
    have hparts := hends.append (foundAt_under "indent"
      (checkIndent_distinct (Json.present? "indent" fields))) (by decide)
    simp only
    split
    · split
      · rename_i start stop _ _ _
        have horder : FoundAt [.here (.startAfterEnd start stop)]
            [⟨[], .startAfterEnd start stop⟩] := foundAt_here (List.mem_singleton_self _)
        exact (hparts.append horder (by simp [Spot.Unlike])).distinct
      · rename_i start stop _ _ _
        -- An indent that is not usable leaves no columns to compare with lines.
        rcases checkIndent_cases (Json.present? "indent" fields) with ⟨columns, -, heq⟩ | ⟨-, f, heq⟩
        · simp only [heq, List.map_nil, List.append_nil]
          exact (hends.append (foundAt_under "indent"
            (checkIndentLines_distinct source start stop columns)) (by decide)).distinct
        · have hnone : (checkIndentLines source start stop []).findings = [] := rfl
          simp only [heq, hnone, List.map_nil, List.append_nil]
          rw [heq] at hparts
          exact hparts.distinct
    · exact hparts.distinct
  · exact distinct_single _

namespace Checker

variable {c : Checker} {parent previous : Option Position} {fields : List (String × Json)}

theorem checkType_foundAt (fields : List (String × Json)) :
    FoundAt [.here .missingType, .inside "type"] (checkType fields) := by
  unfold checkType
  split
  · exact foundAt_here (by simp)
  · split
    · exact foundAt_inside (by simp) [] _
    · exact foundAt_nil _
  · exact foundAt_inside (by simp) [] _

theorem checkData_foundAt (fields : List (String × Json)) :
    FoundAt [.inside "data"] (checkData fields) := by
  unfold checkData
  split
  · exact foundAt_nil _
  · split
    · exact foundAt_inside (by simp) [.key reservedKey] _
    · exact foundAt_nil _
  · exact foundAt_inside (by simp) [] _

theorem checkNodePosition_foundAt (c : Checker) (fields : List (String × Json)) :
    FoundAt [.inside "position", .here .missingPosition] (c.checkNodePosition fields).findings := by
  unfold checkNodePosition
  split
  · exact (foundAt_under "position" (checkPosition_distinct c.source _)).mono (by simp)
  · simp only
    split
    · exact foundAt_here (by simp)
    · exact foundAt_nil _

theorem hybridFindings_foundAt (c : Checker) (fields : List (String × Json)) :
    FoundAt [.here .hybridNode] (c.hybridFindings fields) := by
  unfold hybridFindings
  split
  · exact foundAt_here (by simp)
  · exact foundAt_nil _

theorem relationFindings_distinct (c : Checker) (parent previous : Option Position)
    (child : Position) : Distinct (c.relationFindings parent previous child) := by
  have hpairs : ((c.relationFindings parent previous child).map fun f =>
      (f.fault.rule, f.path)).Nodup :=
    (relationFindings_sublist c parent previous child).nodup (by decide)
  rw [List.Nodup, List.pairwise_map] at hpairs
  refine hpairs.imp ?_
  intro f g hne hsame
  exact hne (congrArg (fun told => (told.1, told.2.1)) hsame)

theorem path_of_mem_checkChildrenOf {f : Finding}
    (hf : f ∈ (c.checkChildrenOf parent fields).findings) :
    ∃ rest, f.path = .key "children" :: rest := by
  rw [checkChildrenOf_findings, List.mem_append] at hf
  rcases hf with hlist | hitem
  · unfold listFindings at hlist
    split at hlist
    · cases hlist
    · cases hlist
    · rw [List.mem_singleton.mp hlist]
      exact ⟨[], rfl⟩
  · obtain ⟨index, g, -, rfl⟩ := mem_checkItems_iff.mp hitem
    exact ⟨.index index :: g.path, rfl⟩

/-- What checking a node finds at the node itself is no warning: warnings tell how a node stands to
others, and come from checking its parent. -/
theorem not_warning_of_root {v : Json} {f : Finding} (hf : f ∈ (c.checkNode v).findings)
    (hroot : f.path = []) : f.fault.rule.severity ≠ .warning := by
  rcases mem_checkNode_iff.mp hf with hnode | ⟨index, g, -, rfl⟩
  · exact free_warning_nodeFindings c v f hnode
  · cases hroot

theorem checkItems_distinct {items : List Json}
    (h : ∀ item ∈ items, Distinct (c.checkNode item).findings) (index : Nat) :
    Distinct (c.checkItems parent previous index items).findings := by
  induction items generalizing previous index with
  | nil => exact distinct_nil
  | cons item rest ih =>
      rw [List.forall_mem_cons] at h
      have hitem : Distinct ((c.checkNode item).findings ++
          (c.checkNode item).position.elim [] (c.relationFindings parent previous)) := by
        cases (c.checkNode item).position with
        | none =>
            rw [Option.elim_none, List.append_nil]
            exact h.1
        | some position =>
            refine distinct_append h.1 (relationFindings_distinct c parent previous position) ?_
            intro f hf g hg hsame
            obtain ⟨hroot, hwarning⟩ := relationFindings_warn g hg
            have hpath : f.path = g.path := congrArg (·.2.1) hsame
            have hrule : f.fault.rule = g.fault.rule := congrArg (·.1) hsame
            exact not_warning_of_root hf (hpath.trans hroot) (hrule ▸ hwarning)
      rw [checkItems_cons]
      exact distinct_append (distinct_under _ hitem) (ih h.2 _)
        (apart_of_silent (silent_checkItems_of_lt (Nat.lt_succ_self index) rest))

theorem checkChildrenOf_foundAt
    (h : ∀ item ∈ (Json.object fields).childItems, Distinct (c.checkNode item).findings) :
    FoundAt [.inside "children"] (c.checkChildrenOf parent fields).findings := by
  refine ⟨fun f hf => ⟨_, List.mem_singleton_self _, path_of_mem_checkChildrenOf hf⟩, ?_⟩
  cases hchildren : Json.present? "children" fields with
  | none => rw [checkChildrenOf_absent hchildren]; exact distinct_nil
  | some v =>
      by_cases hlist : ∃ items, v = .array items
      · obtain ⟨items, rfl⟩ := hlist
        rw [Json.childItems_present hchildren] at h
        rw [checkChildrenOf_list hchildren]
        exact checkItems_distinct h 0
      · rw [checkChildrenOf_other hchildren fun items hv => hlist ⟨items, hv⟩]
        exact distinct_single _

/-- However deep a tree is, no two findings in it tell the same. -/
theorem checkNode_distinct (c : Checker) (v : Json) : Distinct (c.checkNode v).findings := by
  induction v using Json.node_induction with
  | step v ih =>
      by_cases hobject : ∃ fields, v = .object fields
      · obtain ⟨fields, rfl⟩ := hobject
        rw [checkNode_object]
        have hown := ((checkType_foundAt fields).append (checkData_foundAt fields)
          (by decide)).append (checkNodePosition_foundAt c fields) (by decide)
        exact ((hown.append (checkChildrenOf_foundAt ih) (by decide)).append
          (hybridFindings_foundAt c fields) (by decide)).distinct
      · rw [checkNode_other fun fields hv => hobject ⟨fields, hv⟩]
        exact distinct_single _

/-- A report has no diagnostic twice. -/
theorem nodup_diagnostics (c : Checker) (tree : Json) : (c.check tree).diagnostics.Nodup := by
  rw [check, List.Nodup, List.pairwise_map]
  refine (checkNode_distinct c tree).imp_of_mem ?_
  intro f g hf hg hne hsame
  apply hne
  have hpath : f.path = g.path := by
    refine Path.Spells.unique ⟨checkNode_plainPaths c tree f hf, rfl⟩
      ⟨checkNode_plainPaths c tree g hg, ?_⟩
    exact (congrArg Diagnostic.path hsame).symm
  have hrule : f.fault.rule = g.fault.rule := congrArg Diagnostic.rule hsame
  have hmessage : f.fault.message = g.fault.message := congrArg Diagnostic.message hsame
  rw [Finding.told, hpath, hrule, hmessage, Finding.told]

/-- No diagnostic is in a report twice. Each concerns a node of the tree, and those that concern
different nodes have different paths. -/
theorem diagnostics_distinct (c : Checker) (tree : Json) :
    (c.check tree).diagnostics.Nodup ∧
      (∀ d, d ∈ (c.check tree).diagnostics ↔ ∃ address, c.ReportsAt tree address d) ∧
      (∀ address d, c.ReportsAt tree address d → ∃ node, tree.get? (nodePath address) = some node) ∧
      ∀ address other d d', c.ReportsAt tree address d → c.ReportsAt tree other d' →
        address ≠ other → d.path ≠ d'.path := by
  refine ⟨nodup_diagnostics c tree, fun d => mem_diagnostics_iff, ?_, ?_⟩
  · rintro address d ⟨f, hf, -⟩
    exact hf.exists_node
  · rintro address other d d' ⟨f, hf, rfl⟩ ⟨g, hg, rfl⟩ hne hsame
    exact hne (hf.address_eq hg.plain hg.not_prefix hsame).1

/-- A child starts before its sibling, and both of them and their parent lack a type. -/
theorem diagnostics_distinct_early_child :
    let point := fun line column offset => (Point.mk line column offset).toJson
    let node := fun start stop => Json.object
      [("position", .object [("end", stop), ("start", start)])]
    let tree := Json.object [("children", .array [node (point 2 1 3) (point 2 2 4),
      node (point 1 1 0) (point 1 2 1)])]
    let early := Diagnostic.mk .childrenOutOfOrder "$.children[1]"
      "child starts at 1:1, before its previous sibling at 2:1"
    default.ReportsAt tree [1] early ∧
      ∀ d, default.ReportsAt tree [0] d ∨ default.ReportsAt tree [] d → d.path ≠ early.path := by
  intro point node tree early
  have hconcerns : default.Concerns tree [1] ⟨[], .childOutOfOrder ⟨1, 1, 0⟩ ⟨2, 1, 3⟩⟩ := by
    refine .relation (mem_relationAt_iff.mpr
      ⟨node (point 1 1 0) (point 1 2 1), ⟨⟨1, 1, 0⟩, ⟨1, 2, 1⟩, []⟩, rfl, by rfl, ?_⟩)
    exact List.mem_singleton.mpr (by rfl)
  have hreport : default.ReportsAt tree [1] early := ⟨_, hconcerns, by rfl⟩
  refine ⟨hreport, ?_⟩
  rintro d (hother | hparent)
  · exact (diagnostics_distinct default tree).2.2.2 [0] [1] d early hother hreport (by decide)
  · exact (diagnostics_distinct default tree).2.2.2 [] [1] d early hparent hreport (by decide)

end Checker

end TreeShape
