import TreeShape.Proofs.Checker.Places
import TreeShape.Proofs.Node.Encode
/- The nodes of a typed tree in document order, each with the child indices that lead to it, and
which of them is the first that is not valid. -/
namespace TreeShape

namespace Node

mutual

/-- The node and all nodes below it in document order, with their addresses. -/
def addressed : Node → List (List Nat × Node)
  | ⟨type, data, position, children, value, fields⟩ =>
    ([], ⟨type, data, position, children, value, fields⟩) :: addressedChildren children
termination_by structural n => n

def addressedChildren : Option (List Node) → List (List Nat × Node)
  | none => []
  | some list => addressedFrom 0 list
termination_by structural children => children

/-- The nodes of a list of children from an index on. -/
def addressedFrom : Nat → List Node → List (List Nat × Node)
  | _, [] => []
  | index, n :: rest =>
    (addressed n).map (fun place => (index :: place.1, place.2)) ++ addressedFrom (index + 1) rest
termination_by structural _ list => list

end

theorem addressed_eq (n : Node) : n.addressed = ([], n) :: addressedFrom 0 n.childList := by
  obtain ⟨type, data, position, children, value, fields⟩ := n
  cases children with
  | none => rfl
  | some list => rfl

variable {n m : Node} {address : List Nat}

theorem map_snd_addressedFrom {list : List Node}
    (h : ∀ n ∈ list, n.addressed.map Prod.snd = n.nodes) (index : Nat) :
    (addressedFrom index list).map Prod.snd = list.flatMap nodes := by
  induction list generalizing index with
  | nil => rfl
  | cons n rest ih =>
      rw [List.forall_mem_cons] at h
      rw [addressedFrom, List.map_append, List.map_map, List.flatMap_cons, ih h.2, ← h.1]
      rfl

/-- The addresses aside, these are the nodes of the tree. -/
theorem map_snd_addressed (n : Node) : n.addressed.map Prod.snd = n.nodes := by
  induction n using child_induction with
  | step n ih => rw [addressed_eq, nodes_eq, List.map_cons, map_snd_addressedFrom ih]

theorem mem_nodes_of_addressed (h : (address, m) ∈ n.addressed) : m ∈ n.nodes := by
  rw [← map_snd_addressed]
  exact List.mem_map_of_mem (f := Prod.snd) h

theorem exists_of_mem_addressedFrom {list : List Node} {index : Nat}
    (h : (address, m) ∈ addressedFrom index list) :
    ∃ i rest child, address = (index + i) :: rest ∧ list[i]? = some child ∧
      (rest, m) ∈ child.addressed := by
  induction list generalizing index with
  | nil => cases h
  | cons n later ih =>
      rw [addressedFrom, List.mem_append] at h
      rcases h with h | h
      · obtain ⟨⟨rest, m⟩, hrest, heq⟩ := List.mem_map.mp h
        cases heq
        exact ⟨0, rest, n, rfl, rfl, hrest⟩
      · obtain ⟨i, rest, child, rfl, hchild, hrest⟩ := ih h
        refine ⟨i + 1, rest, child, ?_, hchild, hrest⟩
        rw [Nat.add_assoc, Nat.add_comm 1]

theorem childItems_toJson (hn : n.PartsApart) : n.toJson.childItems = n.childList.map toJson := by
  obtain ⟨fields, hjson, hparts⟩ := hn.exists_parts
  rw [hjson]
  cases hchildren : n.children with
  | none =>
      rw [Json.childItems_absent (by rw [hparts.present_children, hchildren]; rfl)]
      simp [childList, hchildren]
  | some list =>
      rw [Json.childItems_present (by rw [hparts.present_children, hchildren]; rfl)]
      simp [childList, hchildren]

/-- In the JSON value of a tree an address leads to the value of the node that has it. -/
theorem get?_of_mem_addressed (hn : ∀ m ∈ n.nodes, m.PartsApart) (h : (address, m) ∈ n.addressed) :
    n.toJson.get? (nodePath address) = some m.toJson := by
  induction n using child_induction generalizing address with
  | step n ih =>
      rw [addressed_eq, List.mem_cons] at h
      rcases h with h | h
      · cases h
        rfl
      · obtain ⟨i, rest, child, rfl, hchild, hrest⟩ := exists_of_mem_addressedFrom h
        have hmem := List.mem_of_getElem? hchild
        have hbelow := ih child hmem (fun m hm => hn m (mem_nodes_of_child hmem hm)) hrest
        rw [Nat.zero_add, nodePath_cons, Json.get?_child, childItems_toJson (hn n n.self_mem_nodes),
          List.getElem?_map, hchild]
        exact hbelow

theorem validateNodes_eq_forM {list : List Node}
    (h : ∀ n ∈ list, n.validateTree = forM n.nodes fun m => SyntaxNode.validate m) :
    validateNodes list = forM (list.flatMap nodes) fun m => SyntaxNode.validate m := by
  induction list with
  | nil => rfl
  | cons n rest ih =>
      rw [List.forall_mem_cons] at h
      rw [validateNodes, List.flatMap_cons, List.forM_append, h.1, ih h.2]

/-- Validating a tree validates its nodes in document order. -/
theorem validateTree_eq_forM (n : Node) :
    n.validateTree = forM n.nodes fun m => SyntaxNode.validate m := by
  induction n using child_induction with
  | step n ih =>
      have hbelow : validateChildren n.children =
          forM (n.childList.flatMap nodes) fun m => SyntaxNode.validate m := by
        cases hchildren : n.children with
        | none =>
            rw [childList, hchildren]
            rfl
        | some list =>
            rw [childList, hchildren] at ih ⊢
            exact validateNodes_eq_forM ih
      rw [nodes_eq, List.forM_cons, ← hbelow]
      obtain ⟨type, data, position, children, value, fields⟩ := n
      rfl

end Node

/-- Checks in a row fail with what the first of them that fails says. -/
theorem ShapeError.exists_first {α : Type} {check : α → Except ShapeError Unit} {list : List α}
    {e : ShapeError} (h : forM list check = .error e) :
    ∃ before a after, list = before ++ a :: after ∧ (∀ b ∈ before, check b = .ok ()) ∧
      check a = .error e := by
  induction list with
  | nil => cases h
  | cons first rest ih =>
      rw [List.forM_cons] at h
      cases hfirst : check first with
      | error cause =>
          rw [hfirst] at h
          cases h
          exact ⟨[], first, rest, rfl, by simp, hfirst⟩
      | ok u =>
          rw [hfirst] at h
          obtain ⟨before, a, after, rfl, hbefore, ha⟩ := ih h
          refine ⟨first :: before, a, after, rfl, ?_, ha⟩
          rw [List.forall_mem_cons]
          exact ⟨hfirst, hbefore⟩

namespace Node

/-- Validating a tree fails at the first node in document order that is not valid. -/
theorem exists_first_fault {n : Node} {e : ShapeError} (h : n.validateTree = .error e) :
    ∃ before address m after, n.addressed = before ++ (address, m) :: after ∧
      (∀ place ∈ before, SyntaxNode.validate place.2 = .ok ()) ∧
      SyntaxNode.validate m = .error e := by
  rw [validateTree_eq_forM, ← map_snd_addressed] at h
  obtain ⟨before, m, after, hnodes, hbefore, hm⟩ := ShapeError.exists_first h
  obtain ⟨before, rest, haddressed, rfl, hrest⟩ := List.map_eq_append_iff.mp hnodes
  obtain ⟨⟨address, m⟩, after, rfl, rfl, rfl⟩ := List.map_eq_cons_iff.mp hrest
  exact ⟨before, address, m, after, haddressed, List.forall_mem_map.mp hbefore, hm⟩

end Node

end TreeShape
