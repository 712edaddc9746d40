import TreeShape.Proofs.Checker.Conforming
import TreeShape.Proofs.Node.Encode
/- A typed tree and its JSON value get the same verdict, and as many nodes are checked as there
are. -/
namespace TreeShape

namespace Node

variable {n : Node}

theorem conforms_toJson_iff (hn : ∀ m ∈ n.nodes, m.PartsApart ∧ m.Fits) :
    n.toJson.Conforms false ↔ n.validateTree = .ok () :=
  (writesNode_toJson hn).conforms_iff

theorem nodes_checkItems {c : Checker} {list : List Node}
    (h : ∀ n ∈ list, (c.checkNode n.toJson).nodes = n.nodes.length)
    (parent previous : Option Position) (index : Nat) :
    (c.checkItems parent previous index (list.map toJson)).nodes = (list.flatMap nodes).length := by
  induction list generalizing previous index with
  | nil => rfl
  | cons n rest ih =>
      rw [List.forall_mem_cons] at h
      rw [List.map_cons, Checker.checkItems_cons, List.flatMap_cons, List.length_append, ih h.2, h.1]

/-- Every node of a tree is checked, and none twice. -/
theorem nodes_checkNode (c : Checker) (hn : ∀ m ∈ n.nodes, m.PartsApart) :
    (c.checkNode n.toJson).nodes = n.nodes.length := by
  induction n using child_induction with
  | step n ih =>
      have hbelow : ∀ child ∈ n.childList,
          (c.checkNode child.toJson).nodes = child.nodes.length := by
        intro child hchild
        exact ih child hchild fun m hm => hn m (mem_nodes_of_child hchild hm)
      obtain ⟨fields, hjson, hparts⟩ := (hn n n.self_mem_nodes).exists_parts
      rw [hjson, Checker.checkNode_object, nodes_eq, List.length_cons]
      cases hchildren : n.children with
      | none =>
          have habsent : Json.present? "children" fields = none := by
            rw [hparts.present_children, hchildren]; rfl
          rw [Checker.checkChildrenOf_absent habsent]
          simp [childList, hchildren]
      | some list =>
          have hlist : Json.present? "children" fields = some (.array (list.map toJson)) := by
            rw [hparts.present_children, hchildren]; rfl
          have hnodes : n.childList = list := by simp [childList, hchildren]
          rw [hnodes] at hbelow ⊢
          rw [Checker.checkChildrenOf_list hlist, nodes_checkItems hbelow]

end Node

namespace Checker

/-- Checking a typed tree counts its nodes and finds no error just if the tree is valid. Its
coordinates are words, and its fields, as decoding leaves them, have no key of a part. -/
theorem checkTree_exact (n : Node) (hn : ∀ m ∈ n.nodes, m.PartsApart ∧ m.Fits) :
    (default.checkTree n).nodesChecked = n.nodes.length ∧
      ((default.checkTree n).errors = [] ↔ n.validateTree = .ok ()) := by
  refine ⟨Node.nodes_checkNode default fun m hm => (hn m hm).1, ?_⟩
  rw [checkTree, errors_check_eq_nil_iff, free_error_iff_conforms rfl]
  exact Node.conforms_toJson_iff hn

/-- The last of three nodes stops before it starts. -/
theorem checkTree_exact_backwards :
    let n := Node.parent "root" [.literal "break" .null,
      (Node.new "text").placedAt ⟨⟨2, 1, 3⟩, ⟨1, 1, 0⟩, []⟩]
    (∀ m ∈ n.nodes, m.PartsApart ∧ m.Fits) ∧
      (default.checkTree n).nodesChecked = 3 ∧ (default.checkTree n).errors ≠ [] := by
  intro n
  have hn : ∀ m ∈ n.nodes, m.PartsApart ∧ m.Fits := by decide
  obtain ⟨hnodes, herrors⟩ := checkTree_exact n hn
  refine ⟨hn, hnodes, ?_⟩
  intro h
  cases herrors.mp h

end Checker

end TreeShape
