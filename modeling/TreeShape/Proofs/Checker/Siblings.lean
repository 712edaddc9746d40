import Mathlib.Data.List.Chain
import TreeShape.Proofs.Checker.Concerned
import TreeShape.Proofs.Position.Order
/- The order of siblings. A child is compared with the last one before it that has a position, so
the comparisons are those of neighbours in the list of the positions, whatever lies between them. -/
namespace TreeShape

namespace Checker

variable {c : Checker} {items : List Json} {index : Nat} {p q : Position}

/-- The items that have a position, each by its index and its position; the first item has the index
that is given. -/
def placedFrom (c : Checker) (index : Nat) (items : List Json) : List (Nat × Position) :=
  (items.zipIdx index).filterMap fun entry =>
    (c.checkNode entry.1).position.map fun p => (entry.2, p)

/-- The positions of the items that have one, in order, each with the index of the item. -/
def placed (c : Checker) (items : List Json) : List (Nat × Position) := c.placedFrom 0 items

theorem placedFrom_append (c : Checker) (index : Nat) (before after : List Json) :
    c.placedFrom index (before ++ after) =
      c.placedFrom index before ++ c.placedFrom (index + before.length) after := by
  rw [placedFrom, List.zipIdx_append, List.filterMap_append]
  rfl

theorem placedFrom_cons_of_position {item : Json} (hp : (c.checkNode item).position = some p)
    (index : Nat) (rest : List Json) :
    c.placedFrom index (item :: rest) = (index, p) :: c.placedFrom (index + 1) rest := by
  rw [placedFrom, List.zipIdx_cons, List.filterMap_cons_some (by rw [hp]; rfl)]
  rfl

theorem mem_placedFrom_iff {i : Nat} :
    (i, p) ∈ c.placedFrom index items ↔ index ≤ i ∧
      ∃ item, items[i - index]? = some item ∧ (c.checkNode item).position = some p := by
  simp only [placedFrom, List.mem_filterMap, Prod.exists,
    List.mk_mem_zipIdx_iff_le_and_getElem?_sub, Option.map_eq_some_iff, Prod.mk.injEq]
  constructor
  · rintro ⟨item, _, ⟨hle, hitem⟩, _, hp, rfl, rfl⟩
    exact ⟨hle, item, hitem, hp⟩
  · rintro ⟨hle, item, hitem, hp⟩
    exact ⟨item, i, ⟨hle, hitem⟩, p, hp, rfl, rfl⟩

theorem mem_placed_iff :
    (index, p) ∈ c.placed items ↔
      ∃ item, items[index]? = some item ∧ (c.checkNode item).position = some p := by
  rw [placed, mem_placedFrom_iff, Nat.sub_zero]
  exact and_iff_right (Nat.zero_le index)

/-- The position that is remembered is the last one so far. -/
theorem lastPosition_eq (c : Checker) (items : List Json) :
    c.lastPosition items = (c.placed items).getLast?.map Prod.snd := by
  induction items using List.reverseRecOn with
  | nil => rfl
  | append_singleton before item ih =>
      rw [lastPosition_concat, placed, placedFrom_append]
      cases hposition : (c.checkNode item).position with
      | none =>
          have hlater : c.placedFrom (0 + before.length) [item] = [] := by
            simp [placedFrom, hposition]
          rw [hlater, List.append_nil, Option.none_or, ih]
          rfl
      | some p =>
          rw [placedFrom_cons_of_position hposition, List.getLast?_append_cons]
          rfl

/-- An item with a position divides the positions into those of the items before and after it. -/
theorem placed_split {item : Json} (hitem : items[index]? = some item)
    (hp : (c.checkNode item).position = some p) :
    c.placed items = c.placed (items.take index) ++
      (index, p) :: c.placedFrom (index + 1) (items.drop (index + 1)) := by
  obtain ⟨hlt, rfl⟩ := List.getElem?_eq_some_iff.mp hitem
  have hlength : (items.take index).length = index := List.length_take_of_le (Nat.le_of_lt hlt)
  conv_lhs => rw [← List.take_append_drop index items, List.drop_eq_getElem_cons hlt]
  rw [placed, placedFrom_append, placedFrom_cons_of_position hp, hlength, Nat.zero_add]
  rfl

/-- What an item is compared with stands right before it among the positions. -/
theorem lastPosition_take_iff {item : Json} (hitem : items[index]? = some item)
    (hp : (c.checkNode item).position = some p) :
    c.lastPosition (items.take index) = some q ↔
      ∃ earlier, [(earlier, q), (index, p)] <:+: c.placed items := by
  have hsplit := placed_split hitem hp
  rw [lastPosition_eq, Option.map_eq_some_iff]
  constructor
  · rintro ⟨⟨earlier, q⟩, hlast, rfl⟩
    obtain ⟨before, hbefore⟩ := List.getLast?_eq_some_iff.mp hlast
    refine ⟨earlier, before, c.placedFrom (index + 1) (items.drop (index + 1)), ?_⟩
    rw [hsplit, hbefore]
    simp
  · rintro ⟨earlier, before, after, hnext⟩
    -- The index stands only once in the list, so that both divide the list at the same place.
    have hnotBefore : (index, p) ∉ c.placed (items.take index) := by
      rw [mem_placed_iff]
      rintro ⟨other, hother, -⟩
      rw [List.getElem?_take, if_neg (Nat.lt_irrefl index)] at hother
      cases hother
    have hnotAfter : (index, p) ∉ c.placedFrom (index + 1) (items.drop (index + 1)) := by
      rw [mem_placedFrom_iff]
      rintro ⟨hle, -⟩
      exact Nat.not_succ_le_self index hle
    have hnext : c.placed items = (before ++ [(earlier, q)]) ++ (index, p) :: after := by
      rw [← hnext]
      simp
    obtain ⟨hsame, -, -⟩ :=
      (List.append_cons_inj_of_notMem hnotBefore hnotAfter).mp (hsplit.symm.trans hnext)
    exact ⟨(earlier, q), by rw [hsame, List.getLast?_concat], rfl⟩

/-- An item is found to be out of order if it starts before its neighbour among the positions. -/
theorem exists_outOfOrder_iff (horder : c.options.checkSiblingOrder = true)
    (parent : Option Position) :
    (∃ f ∈ c.relationAt parent items index, f.fault.rule = .childrenOutOfOrder) ↔
      ∃ earlier p, [earlier, (index, p)] <:+: c.placed items ∧ p.start < earlier.2.start := by
  constructor
  · rintro ⟨f, hf, hrule⟩
    obtain ⟨item, p, hitem, hp, hf⟩ := mem_relationAt_iff.mp hf
    rcases mem_relationFindings_iff.mp hf with ⟨_, -, -, -, rfl⟩ | ⟨q, hlast, -, hlt, -⟩
    · cases hrule
    · obtain ⟨earlier, hnext⟩ := (lastPosition_take_iff hitem hp).mp hlast
      exact ⟨(earlier, q), p, hnext, hlt⟩
  · rintro ⟨⟨earlier, q⟩, p, hnext, hlt⟩
    obtain ⟨item, hitem, hp⟩ := mem_placed_iff.mp (hnext.subset (.tail _ (.head _)))
    have hlast := (lastPosition_take_iff hitem hp).mpr ⟨earlier, hnext⟩
    exact ⟨_, mem_relationAt_iff.mpr ⟨item, p, hitem, hp,
      mem_relationFindings_iff.mpr (.inr ⟨q, hlast, horder, hlt, rfl⟩)⟩, rfl⟩

/-- Positions are in order throughout if neighbours are. -/
theorem pairwise_start_iff {list : List (Nat × Position)} :
    (list.Pairwise fun earlier later => earlier.2.start ≤ later.2.start) ↔
      ∀ earlier later, [earlier, later] <:+: list → ¬ later.2.start < earlier.2.start := by
  let InOrder (earlier later : Nat × Position) : Prop := earlier.2.start ≤ later.2.start
  have htrans : Trans InOrder InOrder InOrder := ⟨Std.le_trans⟩
  change list.Pairwise InOrder ↔ _
  rw [← List.isChain_iff_pairwise, List.isChain_iff_forall_rel_of_append_cons_cons]
  constructor
  · rintro h earlier later ⟨before, after, rfl⟩
    exact h (List.append_assoc before [earlier, later] after)
  · rintro h earlier later before after rfl
    exact h earlier later ⟨before, after, by simp⟩

/-- Where the order of siblings is checked, a child is reported as out of order exactly if it starts
before the last one of the children before it that have a position. None is reported exactly if
all the positions are in order. -/
theorem out_of_order_reported_iff (c : Checker) (horder : c.options.checkSiblingOrder = true)
    (tree : Json) (address : List Nat) (items : List Json)
    (hitems : tree.get? (nodePath address ++ [.key "children"]) = some (.array items)) :
    let reported := fun index => ∃ d ∈ (c.check tree).diagnostics, d.rule = .childrenOutOfOrder ∧
      d.path = Path.text (nodePath (address ++ [index]))
    (∀ index, reported index ↔ ∃ earlier p, [earlier, (index, p)] <:+: c.placed items ∧
        p.start < earlier.2.start) ∧
      ((∀ index, ¬ reported index) ↔
        (c.placed items).Pairwise fun earlier later => earlier.2.start ≤ later.2.start) := by
  intro reported
  have hreported : ∀ index, reported index ↔ ∃ earlier p,
      [earlier, (index, p)] <:+: c.placed items ∧ p.start < earlier.2.start := by
    intro index
    rw [Json.get?_append] at hitems
    obtain ⟨node, hnode, hlist⟩ := Option.bind_eq_some_iff.mp hitems
    obtain ⟨fields, rfl, hchildren⟩ := Json.object_of_get?_key hlist
    rw [← Json.childItems_object hchildren, ← exists_outOfOrder_iff horder]
    exact warning_reported_iff hnode rfl index
  refine ⟨hreported, ?_⟩
  rw [pairwise_start_iff]
  constructor
  · rintro h earlier ⟨index, p⟩ hnext hlt
    exact h index ((hreported index).mpr ⟨earlier, p, hnext, hlt⟩)
  · intro h index hindex
    obtain ⟨earlier, p, hnext, hlt⟩ := (hreported index).mp hindex
    exact h earlier (index, p) hnext hlt

/-- Between two children that are in the wrong order is one without a position. -/
theorem out_of_order_reported_across :
    let node := fun start stop : Point => Json.object
      [("position", .object [("end", stop.toJson), ("start", start.toJson)])]
    let items := [node ⟨2, 1, 3⟩ ⟨2, 2, 4⟩, .object [("type", .string "text")],
      node ⟨1, 1, 0⟩ ⟨1, 2, 1⟩]
    let tree := Json.object [("children", .array [.object [("children", .array items)]])]
    default.options.checkSiblingOrder = true ∧
      tree.get? (nodePath [0] ++ [.key "children"]) = some (.array items) ∧
      (∃ d ∈ (default.check tree).diagnostics, d.rule = .childrenOutOfOrder ∧
        d.path = Path.text (nodePath [0, 2])) ∧
      ¬ (default.placed items).Pairwise fun earlier later => earlier.2.start ≤ later.2.start := by
  intro node items tree
  have hitems : tree.get? (nodePath [0] ++ [.key "children"]) = some (.array items) := by rfl
  let first : Position := ⟨⟨2, 1, 3⟩, ⟨2, 2, 4⟩, []⟩
  let last : Position := ⟨⟨1, 1, 0⟩, ⟨1, 2, 1⟩, []⟩
  have hplaced : default.placed items = [(0, first), (2, last)] := by rfl
  obtain ⟨hreported, hnone⟩ := out_of_order_reported_iff default rfl tree [0] items hitems
  have hlast := (hreported 2).mpr ⟨(0, first), last, hplaced ▸ List.infix_rfl, by decide⟩
  exact ⟨rfl, hitems, hlast, fun h => hnone.mpr h 2 hlast⟩

end Checker

end TreeShape
