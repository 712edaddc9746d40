import TreeShape.Proofs.Checker.Concerned
import TreeShape.Proofs.Checker.Recovery
import TreeShape.Proofs.Position.Enclosing
/- Where nodes lie. A child is compared with its parent alone, but what holds of each step down
holds of every way down, as long as all nodes on it have positions. -/
namespace TreeShape

namespace Checker

variable {c : Checker} {tree : Json} {address below : List Nat} {outer inner : Position}

/-- The position that checking leaves of the node at an address. -/
def positionAt (c : Checker) (tree : Json) (address : List Nat) : Option Position :=
  (tree.get? (nodePath address)).bind fun node => (c.checkNode node).position

theorem positionAt_eq_some_iff :
    c.positionAt tree address = some inner ↔
      ∃ node, tree.get? (nodePath address) = some node ∧ (c.checkNode node).position = some inner :=
  Option.bind_eq_some_iff

theorem positionAt_concat_iff {index : Nat} :
    c.positionAt tree (address ++ [index]) = some inner ↔
      ∃ node item, tree.get? (nodePath address) = some node ∧ node.childItems[index]? = some item ∧
        (c.checkNode item).position = some inner := by
  have hchild : ∀ node : Json, node.get? (nodePath [index]) = node.childItems[index]? := by
    intro node
    rw [nodePath_cons, Json.get?_child]
    exact Option.bind_fun_some _
  rw [positionAt_eq_some_iff, nodePath_append, Json.get?_append]
  simp only [Option.bind_eq_some_iff, hchild]
  constructor
  · rintro ⟨item, ⟨node, hnode, hitem⟩, hp⟩
    exact ⟨node, item, hnode, hitem, hp⟩
  · rintro ⟨node, item, hnode, hitem, hp⟩
    exact ⟨item, ⟨node, hnode, hitem⟩, hp⟩

/-- A position that checking leaves reaches forward. -/
theorem position_forward {v : Json} {p : Position} (hp : (c.checkNode v).position = some p) :
    p.start.NotAfter p.stop := by
  have hplaced : ¬ v.Unplaced := by
    intro h
    rw [position_of_unplaced c h] at hp
    cases hp
  obtain ⟨_, _, q, -, -, hq, hvalid, -⟩ := exists_position_of_placed c hplaced
  cases hq.symm.trans hp
  exact hvalid.order

/-- A parent encloses a child that is not reported to be outside of it. -/
theorem parent_encloses (hcontained : c.options.checkContainment = true)
    (hnone : ∀ d ∈ (c.check tree).diagnostics, d.rule ≠ .childOutsideParent) {index : Nat}
    (houter : c.positionAt tree address = some outer)
    (hinner : c.positionAt tree (address ++ [index]) = some inner) :
    outer.encloses inner = true := by
  obtain ⟨node, hnode, houter⟩ := positionAt_eq_some_iff.mp houter
  obtain ⟨_, item, hnode', hitem, hinner⟩ := positionAt_concat_iff.mp hinner
  cases hnode.symm.trans hnode'
  apply Decidable.byContradiction
  intro hout
  have hfound : ∃ f ∈ c.relationAt (c.checkNode node).position node.childItems index,
      f.fault.rule = .childOutsideParent :=
    ⟨_, mem_relationAt_iff.mpr ⟨item, inner, hitem, hinner,
      mem_relationFindings_iff.mpr (.inl ⟨outer, houter, hcontained, hout, rfl⟩)⟩, rfl⟩
  obtain ⟨d, hd, hrule, -⟩ := (warning_reported_iff hnode rfl index).mpr hfound
  exact hnone d hd hrule

/-- On the way down from a node each position encloses the next one, so the first encloses the
last. -/
theorem encloses_below (hcontained : c.options.checkContainment = true)
    (hnone : ∀ d ∈ (c.check tree).diagnostics, d.rule ≠ .childOutsideParent)
    (hplaced : ∀ way, way <+: below → (c.positionAt tree (address ++ way)).isSome = true)
    (houter : c.positionAt tree address = some outer)
    (hinner : c.positionAt tree (address ++ below) = some inner) : outer.encloses inner = true := by
  induction below generalizing address outer with
  | nil =>
      rw [List.append_nil] at hinner
      cases houter.symm.trans hinner
      obtain ⟨node, -, hp⟩ := positionAt_eq_some_iff.mp houter
      exact Position.encloses_refl (position_forward hp)
  | cons index rest ih =>
      have hsplit : ∀ way, address ++ index :: way = address ++ [index] ++ way :=
        List.append_cons address index
      obtain ⟨mid, hmid⟩ := Option.isSome_iff_exists.mp (hplaced [index] ⟨rest, rfl⟩)
      rw [hsplit] at hinner
      have hstep := parent_encloses hcontained hnone houter hmid
      refine Position.encloses_trans hstep (ih ?_ hmid hinner)
      intro way hway
      rw [← hsplit]
      exact hplaced (index :: way) (List.cons_prefix_cons.mpr ⟨rfl, hway⟩)

/-- Where it is checked that children lie in their parents, and none is reported to be outside, a
position encloses the position of every node below, if all nodes between them have positions as
well; so it contains the points that the other contains. -/
theorem ancestor_encloses (c : Checker) (hcontained : c.options.checkContainment = true)
    (tree : Json) (hnone : ∀ d ∈ (c.check tree).diagnostics, d.rule ≠ .childOutsideParent)
    (address below : List Nat)
    (hplaced : ∀ way, way <+: below → (c.positionAt tree (address ++ way)).isSome = true) :
    ∃ outer inner, c.positionAt tree address = some outer ∧
      c.positionAt tree (address ++ below) = some inner ∧ outer.encloses inner = true ∧
      ∀ q, inner.contains q = true → outer.contains q = true := by
  obtain ⟨outer, houter⟩ := Option.isSome_iff_exists.mp (hplaced [] List.nil_prefix)
  obtain ⟨inner, hinner⟩ := Option.isSome_iff_exists.mp (hplaced below (List.prefix_refl below))
  rw [List.append_nil] at houter
  have hencloses := encloses_below hcontained hnone hplaced houter hinner
  exact ⟨outer, inner, houter, hinner, hencloses, fun q => Position.contains_of_encloses hencloses⟩

/-- The parent of three nodes below each other has no position, and so none is compared with it. -/
theorem ancestor_encloses_grandchild :
    let node := fun (start stop : Point) (children : List Json) => Json.object
      [("children", .array children),
        ("position", .object [("end", stop.toJson), ("start", start.toJson)])]
    let tree := Json.object [("children", .array
      [node ⟨1, 1, 0⟩ ⟨3, 1, 9⟩ [node ⟨1, 2, 1⟩ ⟨2, 4, 7⟩ [node ⟨2, 1, 4⟩ ⟨2, 3, 6⟩ []]]])]
    default.options.checkContainment = true ∧
      (∀ d ∈ (default.check tree).diagnostics, d.rule ≠ .childOutsideParent) ∧
      (∀ way, way <+: [0, 0] → (default.positionAt tree ([0] ++ way)).isSome = true) ∧
      ∃ outer inner, default.positionAt tree [0] = some outer ∧
        default.positionAt tree [0, 0, 0] = some inner ∧ outer.encloses inner = true := by
  intro node tree
  have hnone : ∀ d ∈ (default.check tree).diagnostics, d.rule ≠ .childOutsideParent := by
    decide
  have hplaced : ∀ way, way <+: [0, 0] → (default.positionAt tree ([0] ++ way)).isSome = true := by
    intro way hway
    simp only [List.prefix_cons_iff, List.prefix_nil] at hway
    obtain rfl | ⟨_, rfl, rfl | ⟨_, rfl, rfl⟩⟩ := hway
    · rfl
    · rfl
    · rfl
  obtain ⟨outer, inner, houter, hinner, hencloses, -⟩ :=
    ancestor_encloses default rfl tree hnone [0] [0, 0] hplaced
  exact ⟨rfl, hnone, hplaced, outer, inner, houter, hinner, hencloses⟩

end Checker

end TreeShape
