import TreeShape.Node.Decode
import TreeShape.Proofs.Shape.Position
/- Trees of typed nodes: induction over the children, the nodes in document order, and what
validating a whole tree says. -/
namespace TreeShape

namespace Data

theorem validate_eq_ok_iff {d : Data} :
    d.validate = .ok () ↔ Entries.get? "space" d.entries = none := by
  unfold validate contains Entries.contains
  cases h : Entries.get? "space" d.entries with
  | none => simp [reservedKey, h]
  | some v => simp [reservedKey, h]

end Data

namespace Node

theorem sizeOf_lt_of_mem_childList {n child : Node} (h : child ∈ n.childList) :
    sizeOf child < sizeOf n := by
  obtain ⟨type, data, position, children, value, fields⟩ := n
  cases children with
  | none => cases h
  | some nodes =>
      have hlt := List.sizeOf_lt_of_mem (show child ∈ nodes from h)
      simp only [mk.sizeOf_spec, Option.some.sizeOf_spec]
      omega

/-- What holds of a node whenever it holds of its children holds of every node. -/
theorem child_induction {motive : Node → Prop}
    (step : ∀ n, (∀ child ∈ n.childList, motive child) → motive n) (n : Node) : motive n :=
  step n fun child _ => child_induction step child
termination_by sizeOf n
decreasing_by exact sizeOf_lt_of_mem_childList (by assumption)

mutual

/-- The node and all nodes below it in document order. -/
def nodes : Node → List Node
  | ⟨type, data, position, children, value, fields⟩ =>
    ⟨type, data, position, children, value, fields⟩ :: nodesOfChildren children
termination_by structural n => n

def nodesOfChildren : Option (List Node) → List Node
  | none => []
  | some list => nodesOfList list
termination_by structural children => children

def nodesOfList : List Node → List Node
  | [] => []
  | n :: rest => nodes n ++ nodesOfList rest
termination_by structural list => list

end

theorem nodesOfList_eq_flatMap (list : List Node) : nodesOfList list = list.flatMap nodes := by
  induction list with
  | nil => rfl
  | cons n rest ih => rw [nodesOfList, ih, List.flatMap_cons]

theorem nodes_eq (n : Node) : n.nodes = n :: n.childList.flatMap nodes := by
  obtain ⟨type, data, position, children, value, fields⟩ := n
  rw [nodes]
  cases children with
  | none => rfl
  | some list => rw [nodesOfChildren, nodesOfList_eq_flatMap]; rfl

theorem self_mem_nodes (n : Node) : n ∈ n.nodes := by
  rw [nodes_eq]
  exact List.mem_cons_self

theorem mem_nodes_of_child {n m child : Node} (hchild : child ∈ n.childList)
    (hm : m ∈ child.nodes) : m ∈ n.nodes := by
  rw [nodes_eq]
  exact List.mem_cons_of_mem n (List.mem_flatMap.mpr ⟨child, hchild, hm⟩)

theorem validate_eq_ok_iff {n : Node} :
    SyntaxNode.validate n = .ok () ↔
      n.type ≠ "" ∧ (∀ d ∈ n.data, d.validate = .ok ()) ∧ ∀ p ∈ n.position, p.validate = .ok () := by
  obtain ⟨type, data, position, children, value, fields⟩ := n
  simp only [SyntaxNode.validate, SyntaxNode.type, SyntaxNode.data, SyntaxNode.position]
  by_cases htype : type = ""
  · simp [htype]
  · rw [if_neg (by simpa using htype)]
    cases data with
    | none => cases position <;> simp [htype, pure, Except.pure]
    | some d =>
        rw [ShapeError.andThen_eq_ok_iff]
        cases position <;> simp [htype, pure, Except.pure]

theorem validateNodes_eq_ok_iff {nodes : List Node} :
    validateNodes nodes = .ok () ↔ ∀ n ∈ nodes, n.validateTree = .ok () := by
  induction nodes with
  | nil => simp [validateNodes]
  | cons n rest ih =>
      rw [validateNodes, ShapeError.andThen_eq_ok_iff, ih, List.forall_mem_cons]

theorem validateTree_eq_ok_iff {n : Node} :
    n.validateTree = .ok () ↔
      SyntaxNode.validate n = .ok () ∧ ∀ child ∈ n.childList, child.validateTree = .ok () := by
  obtain ⟨type, data, position, children, value, fields⟩ := n
  rw [validateTree, ShapeError.andThen_eq_ok_iff]
  cases children with
  | none => simp [validateChildren, childList]
  | some nodes => simp [validateChildren, childList, validateNodes_eq_ok_iff]

theorem nodesToJson_eq_map (nodes : List Node) : nodesToJson nodes = nodes.map toJson := by
  induction nodes with
  | nil => rfl
  | cons n rest ih => rw [nodesToJson, ih, List.map_cons]

theorem toJson_eq (n : Node) :
    n.toJson = .object (Entries.ofList (entries n.type (n.data.map Data.toJson)
      (n.position.map Position.toJson) (n.children.map fun nodes => .array (nodes.map toJson))
      n.value n.fields)) := by
  obtain ⟨type, data, position, children, value, fields⟩ := n
  rw [toJson]
  cases children with
  | none => rfl
  | some nodes => rw [childrenToJson, nodesToJson_eq_map]; rfl

end Node

end TreeShape
