import TreeShape.Proofs.Checker.Node
/- Where the findings in a tree stand: at plain paths, which a report spells out. What is found below
a node comes from checking that node, and what is found at its position from checking the position. -/
namespace TreeShape

/-- All findings have plain paths. -/
def PlainPaths (findings : List Finding) : Prop := ∀ f ∈ findings, ∀ step ∈ f.path, step.Plain

theorem plainPaths_nil : PlainPaths [] := by
  intro f hf
  cases hf

theorem plainPaths_append {first second : List Finding} :
    PlainPaths (first ++ second) ↔ PlainPaths first ∧ PlainPaths second :=
  List.forall_mem_append

theorem plainPaths_under {findings : List Finding} {steps : Path}
    (hsteps : ∀ step ∈ steps, step.Plain) (h : PlainPaths findings) :
    PlainPaths (findings.map (Finding.under steps)) :=
  List.forall_mem_map.mpr fun f hf => List.forall_mem_append.mpr ⟨hsteps, h f hf⟩

theorem plainPaths_here {findings : List Finding} (h : ∀ f ∈ findings, f.path = []) :
    PlainPaths findings := by
  intro f hf step hstep
  rw [h f hf] at hstep
  cases hstep

theorem Severe.plainPaths {findings : List Finding} (h : Severe findings) :
    PlainPaths findings := fun f hf => (h f hf).2

namespace Checker

variable {c : Checker} {parent previous : Option Position} {fields : List (String × Json)}

theorem checkItems_plainPaths {items : List Json}
    (h : ∀ item ∈ items, PlainPaths (c.checkNode item).findings) (index : Nat) :
    PlainPaths (c.checkItems parent previous index items).findings := by
  induction items generalizing previous index with
  | nil => exact plainPaths_nil
  | cons item rest ih =>
      rw [List.forall_mem_cons] at h
      have hrelation : PlainPaths
          ((c.checkNode item).position.elim [] (c.relationFindings parent previous)) := by
        cases (c.checkNode item).position with
        | none => exact plainPaths_nil
        | some position => exact plainPaths_here fun f hf => (relationFindings_warn f hf).1
      rw [checkItems_cons]
      refine plainPaths_append.mpr
        ⟨plainPaths_under ?_ (plainPaths_append.mpr ⟨h.1, hrelation⟩), ih h.2 _⟩
      rw [List.forall_mem_cons, List.forall_mem_singleton]
      exact ⟨by decide, trivial⟩

theorem checkChildrenOf_plainPaths
    (h : ∀ item ∈ (Json.object fields).childItems, PlainPaths (c.checkNode item).findings) :
    PlainPaths (c.checkChildrenOf parent fields).findings := by
  cases hchildren : Json.present? "children" fields with
  | none => rw [checkChildrenOf_absent hchildren]; exact plainPaths_nil
  | some v =>
      by_cases hlist : ∃ items, v = .array items
      · obtain ⟨items, rfl⟩ := hlist
        rw [Json.childItems_present hchildren] at h
        rw [checkChildrenOf_list hchildren]
        exact checkItems_plainPaths h 0
      · rw [checkChildrenOf_other hchildren fun items hv => hlist ⟨items, hv⟩]
        exact (severe_single rfl (by decide)).plainPaths

theorem checkNode_plainPaths (c : Checker) (v : Json) : PlainPaths (c.checkNode v).findings := by
  induction v using Json.node_induction with
  | step v ih =>
      by_cases hobject : ∃ fields, v = .object fields
      · obtain ⟨fields, rfl⟩ := hobject
        rw [checkNode_object]
        simp only [plainPaths_append]
        exact ⟨⟨⟨⟨(checkType_severe fields).plainPaths, (checkData_severe fields).plainPaths⟩,
          (checkNodePosition_severe c fields).plainPaths⟩, checkChildrenOf_plainPaths ih⟩,
          plainPaths_here fun f hf => (hybridFindings_hint f hf).1⟩
      · rw [checkNode_other fun fields hv => hobject ⟨fields, hv⟩]
        exact (severe_single rfl (by simp)).plainPaths

end Checker

/-- The path to the node that child indices lead to. -/
def nodePath (address : List Nat) : Path :=
  address.flatMap fun index => [.key "children", .index index]

theorem nodePath_cons (index : Nat) (rest : List Nat) :
    nodePath (index :: rest) = .key "children" :: .index index :: nodePath rest := by
  rw [nodePath, List.flatMap_cons]
  rfl

theorem plain_of_mem_nodePath (address : List Nat) : ∀ step ∈ nodePath address, step.Plain := by
  induction address with
  | nil => simp [nodePath]
  | cons index rest ih =>
      rw [nodePath_cons, List.forall_mem_cons, List.forall_mem_cons]
      exact ⟨by decide, trivial, ih⟩

/-- The finding stands at a place or below it. -/
def Diagnostic.Within (place : Path) (d : Diagnostic) : Prop :=
  ∃ more : Path, d.path = Path.text (place ++ more)

/-- No finding stands at a place or below it. -/
def Silent (place : Path) (findings : List Finding) : Prop :=
  ∀ f ∈ findings, ¬ place <+: f.path

theorem silent_nil (place : Path) : Silent place [] := by
  intro f hf
  cases hf

theorem silent_single {place path : Path} {fault : Fault} (h : ¬ place <+: path) :
    Silent place [⟨path, fault⟩] := by
  intro f hf
  rw [List.mem_singleton.mp hf]
  exact h

theorem silent_root_iff {findings : List Finding} : Silent [] findings ↔ findings = [] := by
  rw [List.eq_nil_iff_forall_not_mem]
  constructor
  · exact fun h f hf => h f hf List.nil_prefix
  · exact fun h f hf => absurd hf (h f)

theorem silent_append {place : Path} {first second : List Finding} :
    Silent place (first ++ second) ↔ Silent place first ∧ Silent place second :=
  List.forall_mem_append

theorem silent_under (place steps : Path) (findings : List Finding) :
    Silent (steps ++ place) (findings.map (Finding.under steps)) ↔ Silent place findings := by
  rw [Silent, List.forall_mem_map]
  exact forall₂_congr fun f hf => not_congr (List.prefix_append_right_inj steps)

/-- What is found along other steps is not found here. -/
theorem silent_under_of_apart {place steps : Path} {findings : List Finding}
    (h : ∀ more, ¬ place <+: steps ++ more) : Silent place (findings.map (Finding.under steps)) := by
  rw [Silent, List.forall_mem_map]
  exact fun f hf => h f.path

theorem silent_here {place : Path} {findings : List Finding} (hplace : place ≠ [])
    (h : ∀ f ∈ findings, f.path = []) : Silent place findings := by
  intro f hf
  rw [h f hf, List.prefix_nil]
  exact hplace

namespace Checker

variable {c : Checker} {parent previous : Option Position} {fields : List (String × Json)}
  {step : Step} {place : Path}

theorem silent_checkType (h : step ≠ .key "type") : Silent (step :: place) (checkType fields) := by
  unfold checkType
  split
  · exact silent_single (by simp)
  · split
    · exact silent_single (by simp [List.cons_prefix_cons, h])
    · exact silent_nil _
  · exact silent_single (by simp [List.cons_prefix_cons, h])

theorem silent_checkData (h : step ≠ .key "data") : Silent (step :: place) (checkData fields) := by
  unfold checkData
  split
  · exact silent_nil _
  · split
    · exact silent_single (by simp [List.cons_prefix_cons, h])
    · exact silent_nil _
  · exact silent_single (by simp [List.cons_prefix_cons, h])

theorem silent_checkNodePosition (h : step ≠ .key "position") :
    Silent (step :: place) (c.checkNodePosition fields).findings := by
  unfold checkNodePosition
  split
  · exact silent_under_of_apart (by simp [List.cons_prefix_cons, h])
  · simp only
    split
    · exact silent_single (by simp)
    · exact silent_nil _

theorem silent_hybridFindings : Silent (step :: place) (c.hybridFindings fields) :=
  silent_here (by simp) fun f hf => (hybridFindings_hint f hf).1

theorem silent_children_of_ne {i j : Nat} {findings : List Finding} (h : i ≠ j) :
    Silent (.key "children" :: .index i :: place)
      (findings.map (Finding.under [.key "children", .index j])) :=
  silent_under_of_apart (by simp [List.cons_prefix_cons, h])

theorem silent_checkItems_of_lt {i index : Nat} (h : i < index) (items : List Json) :
    Silent (.key "children" :: .index i :: place)
      (c.checkItems parent previous index items).findings := by
  induction items generalizing previous index with
  | nil => exact silent_nil _
  | cons item rest ih =>
      rw [checkItems_cons]
      exact silent_append.mpr ⟨silent_children_of_ne (Nat.ne_of_lt h), ih (Nat.lt_succ_of_lt h)⟩

/-- What is found below a child in a list of children is what checking the child finds. -/
theorem silent_checkItems (previous : Option Position) (index : Nat) (hplace : place ≠ []) {i : Nat}
    {items : List Json} {item : Json} (hitem : items[i]? = some item) :
    Silent (.key "children" :: .index (index + i) :: place)
        (c.checkItems parent previous index items).findings ↔
      Silent place (c.checkNode item).findings := by
  -- The findings of the items before have other indices, and so have those of the items after.
  induction items generalizing previous index i with
  | nil => cases hitem
  | cons first rest ih =>
      rw [checkItems_cons, silent_append]
      cases i with
      | zero =>
          cases hitem
          have hrelation : Silent place
              ((c.checkNode item).position.elim [] (c.relationFindings parent previous)) := by
            cases (c.checkNode item).position with
            | none => exact silent_nil _
            | some position => exact silent_here hplace fun f hf => (relationFindings_warn f hf).1
          have hhere := silent_under place [.key "children", .index index]
            ((c.checkNode item).findings ++
              (c.checkNode item).position.elim [] (c.relationFindings parent previous))
          rw [silent_append] at hhere
          constructor
          · exact fun h => (hhere.mp h.1).1
          · exact fun h => ⟨hhere.mpr ⟨h, hrelation⟩, silent_checkItems_of_lt (by omega) rest⟩
      | succ i =>
          rw [List.getElem?_cons_succ] at hitem
          have hlater := ih ((c.checkNode first).position.or previous) (index + 1) hitem
          rw [Nat.add_right_comm, Nat.add_assoc] at hlater
          rw [hlater]
          constructor
          · exact fun h => h.2
          · exact fun h => ⟨silent_children_of_ne (by omega), h⟩

theorem silent_child (hplace : place ≠ []) {v item : Json} {i : Nat}
    (hitem : v.childItems[i]? = some item) :
    Silent (.key "children" :: .index i :: place) (c.checkNode v).findings ↔
      Silent place (c.checkNode item).findings := by
  obtain ⟨fields, items, rfl, hitems⟩ := Json.exists_of_mem_childItems (List.mem_of_getElem? hitem)
  rw [Json.childItems_object hitems] at hitem
  have hlist : Json.present? "children" fields = some (.array items) :=
    Json.present?_eq_some_iff.mpr ⟨hitems, by simp⟩
  have hbelow : Silent (.key "children" :: .index i :: place)
      (c.checkItems (c.checkNodePosition fields).value none 0 items).findings ↔
        Silent place (c.checkNode item).findings := by
    rw [← silent_checkItems none 0 hplace hitem, Nat.zero_add]
  rw [checkNode_object, checkChildrenOf_list hlist]
  simp only [silent_append, hbelow, silent_hybridFindings, and_true]
  constructor
  · exact fun h => h.2
  · exact fun h => ⟨⟨⟨silent_checkType (by decide), silent_checkData (by decide)⟩,
      silent_checkNodePosition (by decide)⟩, h⟩

/-- What is found below a node, however deep, is what checking the node finds. -/
theorem silent_nodePath (hplace : place ≠ []) {tree node : Json} {address : List Nat}
    (hnode : tree.get? (nodePath address) = some node) :
    Silent (nodePath address ++ place) (c.checkNode tree).findings ↔
      Silent place (c.checkNode node).findings := by
  induction address generalizing tree with
  | nil =>
      cases hnode
      exact Iff.rfl
  | cons i rest ih =>
      rw [nodePath_cons, Json.get?_child] at hnode
      obtain ⟨item, hitem, hnode⟩ := Option.bind_eq_some_iff.mp hnode
      have hbelow : nodePath rest ++ place ≠ [] := by simp [hplace]
      rw [nodePath_cons, List.cons_append, List.cons_append, silent_child hbelow hitem, ih hnode]

theorem silent_checkItems_of_ne (h : step ≠ .key "children") (items : List Json) (index : Nat) :
    Silent (step :: place) (c.checkItems parent previous index items).findings := by
  induction items generalizing previous index with
  | nil => exact silent_nil _
  | cons item rest ih =>
      rw [checkItems_cons]
      exact silent_append.mpr
        ⟨silent_under_of_apart (by simp [List.cons_prefix_cons, h]), ih (index + 1)⟩

theorem silent_checkChildrenOf (h : step ≠ .key "children") :
    Silent (step :: place) (c.checkChildrenOf parent fields).findings := by
  cases hchildren : Json.present? "children" fields with
  | none => rw [checkChildrenOf_absent hchildren]; exact silent_nil _
  | some v =>
      by_cases hlist : ∃ items, v = .array items
      · obtain ⟨items, rfl⟩ := hlist
        rw [checkChildrenOf_list hchildren]
        exact silent_checkItems_of_ne h items 0
      · rw [checkChildrenOf_other hchildren fun items hv => hlist ⟨items, hv⟩]
        exact silent_single (by simp [List.cons_prefix_cons, h])

/-- What is found below the position of a node is what checking the position finds. -/
theorem silent_below_position {v : Json} (hposition : Json.present? "position" fields = some v) :
    Silent (.key "position" :: place) (c.checkNode (.object fields)).findings ↔
      Silent place (checkPosition c.source v).findings := by
  have hparts : (c.checkNodePosition fields).findings =
      (checkPosition c.source v).findings.map (Finding.under [.key "position"]) := by
    rw [checkNodePosition, hposition]
  have hhere := silent_under place [.key "position"] (checkPosition c.source v).findings
  rw [List.singleton_append] at hhere
  rw [checkNode_object]
  simp only [silent_append, hparts, hhere, silent_hybridFindings, and_true]
  constructor
  · exact fun h => h.1.2
  · exact fun h => ⟨⟨⟨silent_checkType (by decide), silent_checkData (by decide)⟩, h⟩,
      silent_checkChildrenOf (by decide)⟩

/-- What is found at the position of a node is what checking the position finds. -/
theorem silent_position {v : Json} (hposition : Json.present? "position" fields = some v) :
    Silent [.key "position"] (c.checkNode (.object fields)).findings ↔
      (checkPosition c.source v).findings = [] := by
  rw [silent_below_position hposition, silent_root_iff]

theorem mem_checkItems_of_child (parent previous : Option Position) (index : Nat) {i : Nat}
    {items : List Json} {item : Json} {f : Finding} (hitem : items[i]? = some item)
    (hf : f ∈ (c.checkNode item).findings) :
    f.under [.key "children", .index (index + i)] ∈
      (c.checkItems parent previous index items).findings := by
  induction items generalizing previous index i with
  | nil => cases hitem
  | cons first rest ih =>
      rw [checkItems_cons]
      cases i with
      | zero =>
          cases hitem
          exact List.mem_append_left _ (List.mem_map_of_mem (List.mem_append_left _ hf))
      | succ i =>
          have hlater := ih ((c.checkNode first).position.or previous) (index + 1) hitem
          rw [Nat.add_right_comm, Nat.add_assoc] at hlater
          exact List.mem_append_right _ hlater

theorem mem_checkNode_of_child {v item : Json} {i : Nat} {f : Finding}
    (hitem : v.childItems[i]? = some item) (hf : f ∈ (c.checkNode item).findings) :
    f.under [.key "children", .index i] ∈ (c.checkNode v).findings := by
  obtain ⟨fields, items, rfl, hitems⟩ := Json.exists_of_mem_childItems (List.mem_of_getElem? hitem)
  rw [Json.childItems_object hitems] at hitem
  have hlist : Json.present? "children" fields = some (.array items) :=
    Json.present?_eq_some_iff.mpr ⟨hitems, by simp⟩
  have hbelow := mem_checkItems_of_child (c.checkNodePosition fields).value none 0 hitem hf
  rw [Nat.zero_add] at hbelow
  rw [checkNode_object, checkChildrenOf_list hlist]
  exact List.mem_append_left _ (List.mem_append_right _ hbelow)

/-- What is found in a node is found in every tree that the node belongs to. -/
theorem mem_checkNode_of_node {tree node : Json} {address : List Nat} {f : Finding}
    (hnode : tree.get? (nodePath address) = some node) (hf : f ∈ (c.checkNode node).findings) :
    f.under (nodePath address) ∈ (c.checkNode tree).findings := by
  induction address generalizing tree with
  | nil =>
      cases hnode
      exact hf
  | cons i rest ih =>
      rw [nodePath_cons, Json.get?_child] at hnode
      obtain ⟨item, hitem, hnode⟩ := Option.bind_eq_some_iff.mp hnode
      rw [nodePath_cons]
      exact mem_checkNode_of_child hitem (ih hnode)

/-- What is found at the position of a node is found in the node. -/
theorem mem_checkNode_of_position {v : Json} {f : Finding}
    (hposition : Json.present? "position" fields = some v)
    (hf : f ∈ (checkPosition c.source v).findings) :
    f.under [.key "position"] ∈ (c.checkNode (.object fields)).findings := by
  have hhere : f.under [.key "position"] ∈ (c.checkNodePosition fields).findings := by
    rw [checkNodePosition, hposition]
    exact List.mem_map_of_mem hf
  rw [checkNode_object]
  exact List.mem_append_left _ (List.mem_append_left _ (List.mem_append_right _ hhere))

/-- What is not found in a tree is not found in any node of it. -/
theorem free_nodePath {severity : Severity} {tree node : Json} {address : List Nat}
    (hnode : tree.get? (nodePath address) = some node)
    (hfree : Free severity (c.checkNode tree).findings) :
    Free severity (c.checkNode node).findings := by
  induction address generalizing tree with
  | nil =>
      cases hnode
      exact hfree
  | cons i rest ih =>
      rw [nodePath_cons, Json.get?_child] at hnode
      obtain ⟨item, hitem, hnode⟩ := Option.bind_eq_some_iff.mp hnode
      exact ih hnode
        (free_of_mem_checkItems (free_childItems hfree) item (List.mem_of_getElem? hitem))

theorem silent_iff_diagnostics {tree : Json} (hplace : ∀ step ∈ place, step.Plain) :
    (∀ d ∈ (c.check tree).diagnostics, ¬ d.Within place) ↔
      Silent place (c.checkNode tree).findings := by
  rw [check, List.forall_mem_map]
  apply forall₂_congr
  intro f hf
  exact not_congr (Path.isPrefix_iff_text hplace (checkNode_plainPaths c tree f hf)).symm

end Checker

end TreeShape
