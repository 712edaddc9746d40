import TreeShape.Proofs.Checker.Children
/- Which node a finding concerns: the node in which it is found, and if it tells how a node stands
to its parent or to the siblings before it, that node. Everything that is found concerns one node,
and its place tells which. -/
namespace TreeShape

theorem nodePath_append (address more : List Nat) :
    nodePath (address ++ more) = nodePath address ++ nodePath more :=
  List.flatMap_append

/-- Paths that lead to nodes and then into no child of them lead to the same node only if they are
the same. -/
theorem eq_of_nodePath_append {address other : List Nat} {path path' : Path}
    (hpath : ∀ index, ¬ nodePath [index] <+: path) (hpath' : ∀ index, ¬ nodePath [index] <+: path')
    (h : nodePath address ++ path = nodePath other ++ path') : address = other := by
  induction address generalizing other with
  | nil =>
      cases other with
      | nil => rfl
      | cons index rest =>
          rw [nodePath_cons, show nodePath [] ++ path = path from rfl] at h
          exact absurd ⟨_, h.symm⟩ (hpath index)
  | cons index rest ih =>
      cases other with
      | nil =>
          rw [nodePath_cons, show nodePath [] ++ path' = path' from rfl] at h
          exact absurd ⟨_, h⟩ (hpath' index)
      | cons index' rest' =>
          rw [nodePath_cons, nodePath_cons, List.cons_append, List.cons_append, List.cons_append,
            List.cons_append] at h
          injection h with _ h
          injection h with hindex h
          cases hindex
          rw [ih h]

namespace Checker

/-- What is found in the list of children of a node by itself, whatever the children are. -/
def listFindings (fields : List (String × Json)) : List Finding :=
  match Json.present? "children" fields with
  | none => []
  | some (.array _) => []
  | some value => [⟨[.key "children"], .invalidChildren value.kind⟩]

/-- What is found in a node, leaving aside what its children are. -/
def nodeFindings (c : Checker) : Json → List Finding
  | .object fields =>
    checkType fields ++ checkData fields ++ (c.checkNodePosition fields).findings ++
      listFindings fields ++ c.hybridFindings fields
  | value => [⟨[], .notANode value.kind⟩]

/-- A finding concerns the node at an address: it is found in the node, or it tells how the node
stands to its parent and to the siblings before it. Its path starts at the node. -/
inductive Concerns (c : Checker) : Json → List Nat → Finding → Prop
  | node {v : Json} {f : Finding} : f ∈ c.nodeFindings v → Concerns c v [] f
  | relation {v : Json} {index : Nat} {f : Finding} :
      f ∈ c.relationAt (c.checkNode v).position v.childItems index → Concerns c v [index] f
  | child {v item : Json} {index : Nat} {address : List Nat} {f : Finding} :
      v.childItems[index]? = some item → Concerns c item address f →
      Concerns c v (index :: address) f

variable {c : Checker} {fields : List (String × Json)} {v : Json} {f : Finding}

theorem nodeFindings_other (hv : ∀ fields, v ≠ .object fields) :
    c.nodeFindings v = [⟨[], .notANode v.kind⟩] := by
  cases v with
  | object fields => exact absurd rfl (hv fields)
  | null => rfl
  | bool value => rfl
  | number value => rfl
  | string value => rfl
  | array items => rfl

/-- A child is told to be outside of its parent, or to start before its sibling. -/
theorem mem_relationFindings_iff {parent previous : Option Position} {child : Position} :
    f ∈ c.relationFindings parent previous child ↔
      (∃ outer, parent = some outer ∧ c.options.checkContainment = true ∧
        ¬ outer.encloses child = true ∧ f = ⟨[], .childOutsideParent child outer⟩) ∨
      (∃ sibling, previous = some sibling ∧ c.options.checkSiblingOrder = true ∧
        child.start < sibling.start ∧ f = ⟨[], .childOutOfOrder child.start sibling.start⟩) := by
  unfold relationFindings
  rw [List.mem_append]
  apply or_congr
  · cases parent with
    | none => simp
    | some outer => simp [and_assoc]
  · cases previous with
    | none => simp
    | some sibling => simp [and_assoc]

/-- How an item stands to others is told of items that have a position. -/
theorem mem_relationAt_iff {parent : Option Position} {items : List Json} {index : Nat} :
    f ∈ c.relationAt parent items index ↔
      ∃ item p, items[index]? = some item ∧ (c.checkNode item).position = some p ∧
        f ∈ c.relationFindings parent (c.lastPosition (items.take index)) p := by
  unfold relationAt
  cases hitem : items[index]? with
  | none => simp
  | some item =>
      cases hposition : (c.checkNode item).position with
      | none => simp [hposition]
      | some p => simp [hposition]

theorem mem_checkItems_iff {parent : Option Position} {items : List Json} :
    f ∈ (c.checkItems parent none 0 items).findings ↔ ∃ index g,
      ((∃ item, items[index]? = some item ∧ g ∈ (c.checkNode item).findings) ∨
        g ∈ c.relationAt parent items index) ∧ f = g.under (nodePath [index]) := by
  have hitems := checkItems_findings c parent [] items
  rw [List.nil_append, List.length_nil] at hitems
  change (c.checkItems parent none 0 items).findings = _ at hitems
  simp only [hitems, List.mem_flatMap, List.mem_map, List.mem_append, Prod.exists,
    List.mem_zipIdx_iff_getElem?]
  constructor
  · rintro ⟨item, index, hitem, g, hg, rfl⟩
    exact ⟨index, g, hg.imp_left fun hmem => ⟨item, hitem, hmem⟩, rfl⟩
  · rintro ⟨index, g, ⟨item, hitem, hg⟩ | hg, rfl⟩
    · exact ⟨item, index, hitem, g, .inl hg, rfl⟩
    · obtain ⟨item, -, hitem, -⟩ := mem_relationAt_iff.mp hg
      exact ⟨item, index, hitem, g, .inr hg, rfl⟩

theorem checkChildrenOf_findings (c : Checker) (parent : Option Position)
    (fields : List (String × Json)) :
    (c.checkChildrenOf parent fields).findings = listFindings fields ++
      (c.checkItems parent none 0 (Json.object fields).childItems).findings := by
  rw [checkChildrenOf_eq]
  simp only [listFindings, Json.present?, Json.childItems]
  cases Entries.get? "children" fields with
  | none => rfl
  | some v =>
      cases v with
      | array items => rfl
      | null => rfl
      | bool value => rfl
      | number value => rfl
      | string value => rfl
      | object fields => rfl

theorem mem_checkNode_object_iff :
    f ∈ (c.checkNode (.object fields)).findings ↔
      f ∈ c.nodeFindings (.object fields) ∨
        f ∈ (c.checkItems (c.checkNode (.object fields)).position none 0
          (Json.object fields).childItems).findings := by
  rw [checkNode_object, checkChildrenOf_findings, nodeFindings]
  simp only [List.mem_append]
  grind

/-- What is found in a tree is found in its root, or in a child, or it tells how a child stands to
others. -/
theorem mem_checkNode_iff :
    f ∈ (c.checkNode v).findings ↔
      f ∈ c.nodeFindings v ∨ ∃ index g,
        ((∃ item, v.childItems[index]? = some item ∧ g ∈ (c.checkNode item).findings) ∨
          g ∈ c.relationAt (c.checkNode v).position v.childItems index) ∧
        f = g.under (nodePath [index]) := by
  rw [← mem_checkItems_iff]
  by_cases hobject : ∃ fields, v = .object fields
  · obtain ⟨fields, rfl⟩ := hobject
    exact mem_checkNode_object_iff
  · have hother : ∀ fields, v ≠ .object fields := fun fields hv => hobject ⟨fields, hv⟩
    have hitems : v.childItems = [] := List.eq_nil_iff_forall_not_mem.mpr fun item hitem => by
      obtain ⟨fields, -, hv, -⟩ := Json.exists_of_mem_childItems hitem
      exact hother fields hv
    rw [hitems, nodeFindings_other hother, checkNode_other hother]
    simp [checkItems]

theorem Concerns.mem_checkNode {address : List Nat} (h : c.Concerns v address f) :
    f.under (nodePath address) ∈ (c.checkNode v).findings := by
  induction h with
  | node hf => exact mem_checkNode_iff.mpr (.inl hf)
  | @relation v index f hf =>
      exact mem_checkNode_iff.mpr (.inr ⟨index, f, .inr hf, rfl⟩)
  | @child v item index address f hitem h ih =>
      exact mem_checkNode_iff.mpr
        (.inr ⟨index, f.under (nodePath address), .inl ⟨item, hitem, ih⟩, rfl⟩)

/-- Whatever is found in a tree concerns one of its nodes. -/
theorem exists_concerns (c : Checker) (v : Json) :
    ∀ f ∈ (c.checkNode v).findings, ∃ address g, c.Concerns v address g ∧
      f = g.under (nodePath address) := by
  induction v using Json.node_induction with
  | step v ih =>
      intro f hf
      rcases mem_checkNode_iff.mp hf with hnode | ⟨index, g, ⟨item, hitem, hg⟩ | hg, rfl⟩
      · exact ⟨[], f, .node hnode, rfl⟩
      · obtain ⟨address, h, hconcerns, rfl⟩ := ih item (List.mem_of_getElem? hitem) g hg
        exact ⟨index :: address, h, .child hitem hconcerns, rfl⟩
      · exact ⟨[index], g, .relation hg, rfl⟩

theorem Concerns.exists_node {address : List Nat} (h : c.Concerns v address f) :
    ∃ node, v.get? (nodePath address) = some node := by
  induction h with
  | @node v f hf => exact ⟨v, rfl⟩
  | @relation v index f hf =>
      obtain ⟨item, -, hitem, -⟩ := mem_relationAt_iff.mp hf
      exact ⟨item, by rw [nodePath_cons, Json.get?_child, hitem]; rfl⟩
  | @child v item index address f hitem h ih =>
      obtain ⟨node, hnode⟩ := ih
      exact ⟨node, by rw [nodePath_cons, Json.get?_child, hitem, Option.bind_some, hnode]⟩

theorem silent_nodeFindings (c : Checker) (v : Json) (index : Nat) :
    Silent (nodePath [index]) (c.nodeFindings v) := by
  by_cases hobject : ∃ fields, v = .object fields
  · obtain ⟨fields, rfl⟩ := hobject
    have hlist : Silent (nodePath [index]) (listFindings fields) := by
      unfold listFindings
      split
      · exact silent_nil _
      · exact silent_nil _
      · exact silent_single (by simp [nodePath, List.cons_prefix_cons])
    exact silent_append.mpr ⟨silent_append.mpr ⟨silent_append.mpr ⟨silent_append.mpr
      ⟨silent_checkType (by decide), silent_checkData (by decide)⟩,
      silent_checkNodePosition (by decide)⟩, hlist⟩, silent_hybridFindings⟩
  · rw [nodeFindings_other fun fields hv => hobject ⟨fields, hv⟩]
    exact silent_single (by simp [nodePath])

/-- Seen from the node that it concerns, a finding is in no child of the node. -/
theorem Concerns.not_prefix {address : List Nat} (h : c.Concerns v address f) (index : Nat) :
    ¬ nodePath [index] <+: f.path := by
  induction h with
  | @node v f hf => exact silent_nodeFindings c v index f hf
  | @relation v i f hf =>
      obtain ⟨item, p, -, -, hf⟩ := mem_relationAt_iff.mp hf
      rw [(relationFindings_warn f hf).1]
      simp [nodePath]
  | child hitem h ih => exact ih

theorem free_warning_nodeFindings (c : Checker) (v : Json) : Free .warning (c.nodeFindings v) := by
  have hsevere : ∀ {findings : List Finding}, Severe findings → Free .warning findings := by
    intro findings h f hf
    rw [(h f hf).1]
    decide
  by_cases hobject : ∃ fields, v = .object fields
  · obtain ⟨fields, rfl⟩ := hobject
    have hlist : Severe (listFindings fields) := by
      unfold listFindings
      split
      · exact severe_nil
      · exact severe_nil
      · exact severe_single rfl (by decide)
    simp only [nodeFindings, free_append]
    exact ⟨⟨⟨⟨hsevere (checkType_severe fields), hsevere (checkData_severe fields)⟩,
      hsevere (checkNodePosition_severe c fields)⟩, hsevere hlist⟩,
      free_of_severity hybridFindings_hint (by decide)⟩
  · rw [nodeFindings_other fun fields hv => hobject ⟨fields, hv⟩]
    exact hsevere (severe_single rfl (by simp))

/-- A warning that concerns a child tells how the child stands to others. -/
theorem Concerns.mem_relationAt {tree node : Json} {address : List Nat} {index : Nat}
    (h : c.Concerns tree (address ++ [index]) f)
    (hnode : tree.get? (nodePath address) = some node)
    (hwarning : f.fault.rule.severity = .warning) :
    f ∈ c.relationAt (c.checkNode node).position node.childItems index := by
  induction address generalizing tree with
  | nil =>
      cases hnode
      cases h with
      | relation hf => exact hf
      | child hitem h =>
          cases h with
          | node hf => exact absurd hwarning (free_warning_nodeFindings c _ f hf)
  | cons i rest ih =>
      rw [nodePath_cons, Json.get?_child] at hnode
      obtain ⟨item, hitem, hnode⟩ := Option.bind_eq_some_iff.mp hnode
      generalize haddress : i :: rest ++ [index] = whole at h
      cases h with
      | node => cases haddress
      | relation => simp at haddress
      | child hitem' h =>
          cases haddress
          cases Option.some.inj (hitem.symm.trans hitem')
          exact ih h hnode

/-- A diagnostic of the report on a tree that concerns the node at an address. -/
def ReportsAt (c : Checker) (tree : Json) (address : List Nat) (d : Diagnostic) : Prop :=
  ∃ f, c.Concerns tree address f ∧ d = (f.under (nodePath address)).diagnostic

theorem mem_diagnostics_iff {tree : Json} {d : Diagnostic} :
    d ∈ (c.check tree).diagnostics ↔ ∃ address, c.ReportsAt tree address d := by
  rw [check, List.mem_map]
  constructor
  · rintro ⟨f, hf, rfl⟩
    obtain ⟨address, g, hconcerns, rfl⟩ := exists_concerns c tree f hf
    exact ⟨address, g, hconcerns, rfl⟩
  · rintro ⟨address, g, hconcerns, rfl⟩
    exact ⟨_, hconcerns.mem_checkNode, rfl⟩

theorem Concerns.plain {address : List Nat} (h : c.Concerns v address f) :
    ∀ step ∈ f.path, step.Plain := fun step hstep =>
  checkNode_plainPaths c v _ h.mem_checkNode step (List.mem_append_right _ hstep)

/-- The text of a path tells which node a finding concerns. -/
theorem Concerns.address_eq {address other : List Nat} {path : Path} (h : c.Concerns v address f)
    (hplain : ∀ step ∈ path, step.Plain) (hpath : ∀ index, ¬ nodePath [index] <+: path)
    (hsame : Path.text (nodePath address ++ f.path) = Path.text (nodePath other ++ path)) :
    address = other ∧ f.path = path := by
  have hfound : ∀ step ∈ nodePath address ++ f.path, step.Plain :=
    List.forall_mem_append.mpr ⟨plain_of_mem_nodePath address, h.plain⟩
  have hother : ∀ step ∈ nodePath other ++ path, step.Plain :=
    List.forall_mem_append.mpr ⟨plain_of_mem_nodePath other, hplain⟩
  have hpaths : nodePath address ++ f.path = nodePath other ++ path :=
    Path.Spells.unique ⟨hfound, hsame⟩ ⟨hother, rfl⟩
  have haddress := eq_of_nodePath_append h.not_prefix hpath hpaths
  rw [haddress] at hpaths
  exact ⟨haddress, List.append_cancel_left hpaths⟩

/-- The warnings on a child tell how the child stands to others. -/
theorem warning_reported_iff {tree node : Json} {address : List Nat}
    (hnode : tree.get? (nodePath address) = some node) {rule : Rule}
    (hwarning : rule.severity = .warning) (index : Nat) :
    (∃ d ∈ (c.check tree).diagnostics,
        d.rule = rule ∧ d.path = Path.text (nodePath (address ++ [index]))) ↔
      ∃ f ∈ c.relationAt (c.checkNode node).position node.childItems index,
        f.fault.rule = rule := by
  constructor
  · rintro ⟨d, hd, hrule, hpath⟩
    obtain ⟨other, f, hf, rfl⟩ := mem_diagnostics_iff.mp hd
    have hsame : Path.text (nodePath other ++ f.path) =
        Path.text (nodePath (address ++ [index]) ++ []) := by
      rw [List.append_nil]
      exact hpath
    obtain ⟨rfl, -⟩ := hf.address_eq (by simp) (by simp [nodePath]) hsame
    exact ⟨f, hf.mem_relationAt hnode (by rw [← hwarning, ← hrule]; rfl), hrule⟩
  · rintro ⟨f, hf, hrule⟩
    have hroot : f.path = [] := by
      obtain ⟨item, p, -, -, hmem⟩ := mem_relationAt_iff.mp hf
      exact (relationFindings_warn f hmem).1
    have hfound := mem_checkNode_of_node hnode (Concerns.relation hf).mem_checkNode
    refine ⟨_, List.mem_map_of_mem hfound, hrule, ?_⟩
    change Path.text (nodePath address ++ (nodePath [index] ++ f.path)) = _
    rw [hroot, List.append_nil, nodePath_append]

end Checker

end TreeShape
