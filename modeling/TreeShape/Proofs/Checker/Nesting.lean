import TreeShape.Proofs.Checker.Conforming
import TreeShape.Proofs.Checker.Regions
/- Where every rule is checked against a document and nothing but hints is found, the offsets of the
nodes are nested and in order. -/
namespace TreeShape

/-- The value is a node whose position writes these coordinates. -/
def Json.Places (v : Json) (p : Position) : Prop :=
  ∃ fields position, v = .object fields ∧ Json.present? "position" fields = some position ∧
    position.WritesPosition p

theorem Json.Places.unique {v : Json} {p q : Position} (hp : v.Places p) (hq : v.Places q) :
    p = q := by
  obtain ⟨fields, position, rfl, hposition, hp⟩ := hp
  obtain ⟨fields', position', hfields, hposition', hq⟩ := hq
  cases hfields
  cases Option.some.inj (hposition.symm.trans hposition')
  exact hp.unique hq

/-- A node has a position, and its children lie in it and are in order, by their offsets. -/
structure Json.OffsetsNested (v : Json) (p : Position) : Prop where
  places : v.Places p
  within : ∀ child ∈ v.childItems, ∃ q, child.Places q ∧ p.start.offset ≤ q.start.offset ∧
    q.start.offset ≤ q.stop.offset ∧ q.stop.offset ≤ p.stop.offset
  sorted : v.childItems.Pairwise fun left right => ∀ p q, left.Places p → right.Places q →
    p.start.offset ≤ q.start.offset

namespace Checker

variable {c : Checker} {s : Source} {parent previous : Option Position}

/-- Where positions are required, a node without errors has one that the document confirms. -/
theorem exists_places (hrequired : c.options.requirePositions = true) (hsource : c.source = some s)
    {v : Json} (hfree : Free .error (c.checkNode v).findings) :
    ∃ p, (c.checkNode v).position = some p ∧ v.Places p ∧ p.Valid ∧ s.Confirms p := by
  obtain ⟨fields, rfl⟩ := fields_of_free_error hfree
  obtain ⟨-, -, hposition, -⟩ := free_error_checkNode.mp hfree
  obtain ⟨hplaced, hwritten⟩ := checkNodePosition_eq_nil_iff.mp hposition
  obtain ⟨v, hv⟩ := Option.ne_none_iff_exists'.mp (hplaced hrequired)
  obtain ⟨p, hp, hvalid, hconfirms⟩ := hwritten v hv
  refine ⟨p, ?_, ⟨fields, v, rfl, hv, hp⟩, hvalid, hconfirms s hsource⟩
  rw [checkNode_object, checkNodePosition, hv]
  simp only [checkPosition_of_writes hp hvalid hconfirms]

/-- The items of a list of children without warnings lie in their parent and are in order. -/
theorem checkItems_ordered (h : s.WellFormed) (hcontained : c.options.checkContainment = true)
    (hordered : c.options.checkSiblingOrder = true) {outer : Position} (houter : s.Ends outer)
    {items : List Json}
    (hitems : ∀ item ∈ items, ∃ p, (c.checkNode item).position = some p ∧ s.Ends p ∧
      p.start.offset ≤ p.stop.offset)
    (hprevious : ∀ p ∈ previous, s.Ends p) {index : Nat}
    (hfree : Free .warning (c.checkItems (some outer) previous index items).findings) :
    (∀ item ∈ items, ∀ p, (c.checkNode item).position = some p →
      outer.start.offset ≤ p.start.offset ∧ p.stop.offset ≤ outer.stop.offset ∧
        ∀ q ∈ previous, q.start.offset ≤ p.start.offset) ∧
    items.Pairwise fun left right => ∀ p q, (c.checkNode left).position = some p →
      (c.checkNode right).position = some q → p.start.offset ≤ q.start.offset := by
  -- Each child is only compared with the one before it; the bound on `previous` carries the order
  -- on to all later ones.
  induction items generalizing previous index with
  | nil => exact ⟨by simp, .nil⟩
  | cons item rest ih =>
      rw [List.forall_mem_cons] at hitems
      obtain ⟨⟨p, hp, hends, hforward⟩, hrest⟩ := hitems
      rw [checkItems_cons, hp, free_append, free_under, free_append] at hfree
      obtain ⟨⟨-, hrelation⟩, hlater⟩ := hfree
      have hnone : c.relationFindings (some outer) previous p = [] :=
        List.eq_nil_iff_forall_not_mem.mpr fun f hf =>
          hrelation f hf (relationFindings_warn f hf).2
      obtain ⟨hinside, hafter⟩ :=
        (relationFindings_offsets h houter hends hforward hprevious).mp hnone
      have hself : ∀ q ∈ some p, s.Ends q := by
        rintro q ⟨⟩
        exact hends
      obtain ⟨hbelow, hsorted⟩ := ih hrest hself hlater
      refine ⟨?_, List.pairwise_cons.mpr ⟨?_, hsorted⟩⟩
      · rw [List.forall_mem_cons]
        constructor
        · intro q hq
          cases Option.some.inj (hp.symm.trans hq)
          exact ⟨(hinside hcontained).1, (hinside hcontained).2, hafter hordered⟩
        · intro later hmem q hq
          obtain ⟨hleft, hright, hself⟩ := hbelow later hmem q hq
          refine ⟨hleft, hright, ?_⟩
          intro first hfirst
          exact Nat.le_trans (hafter hordered first hfirst) (hself p rfl)
      · intro later hmem q q' hq hq'
        cases Option.some.inj (hp.symm.trans hq)
        exact (hbelow later hmem q' hq').2.2 p rfl

theorem offsetsNested_of_free (h : s.WellFormed) (hsource : c.source = some s)
    (hrequired : c.options.requirePositions = true)
    (hcontained : c.options.checkContainment = true)
    (hordered : c.options.checkSiblingOrder = true) {v : Json}
    (herror : Free .error (c.checkNode v).findings)
    (hwarning : Free .warning (c.checkNode v).findings) : ∃ p, v.OffsetsNested p := by
  obtain ⟨p, hposition, hplaces, -, hconfirms⟩ := exists_places hrequired hsource herror
  have hitems : ∀ item ∈ v.childItems, ∃ q, (c.checkNode item).position = some q ∧
      item.Places q ∧ q.Valid ∧ s.Confirms q := by
    intro item hitem
    exact exists_places hrequired hsource
      (free_of_mem_checkItems (free_childItems herror) item hitem)
  have hends : ∀ item ∈ v.childItems, ∃ q, (c.checkNode item).position = some q ∧ s.Ends q ∧
      q.start.offset ≤ q.stop.offset := by
    intro item hitem
    obtain ⟨q, hq, -, hvalid, hconfirms⟩ := hitems item hitem
    exact ⟨q, hq, hconfirms.ends, hvalid.offsets⟩
  have hbelow := free_childItems hwarning
  rw [hposition] at hbelow
  obtain ⟨hinside, hsorted⟩ := checkItems_ordered h hcontained hordered hconfirms.ends hends
    (by simp) hbelow
  refine ⟨p, hplaces, ?_, ?_⟩
  · intro item hitem
    obtain ⟨q, hq, hplacesItem, hvalid, -⟩ := hitems item hitem
    obtain ⟨hleft, hright, -⟩ := hinside item hitem q hq
    exact ⟨q, hplacesItem, hleft, hvalid.offsets, hright⟩
  · apply hsorted.imp_of_mem
    intro left right hleft hright hle q q' hq hq'
    obtain ⟨first, hfirst, hplacesFirst, -⟩ := hitems left hleft
    obtain ⟨second, hsecond, hplacesSecond, -⟩ := hitems right hright
    cases hq.unique hplacesFirst
    cases hq'.unique hplacesSecond
    exact hle q q' hfirst hsecond

/-- With every rule checked against a document, whose coordinates are words, nothing at all is found
in a tree of nested ranges. Conversely, where there are no errors and no warnings, the offsets are
nested throughout the tree. -/
theorem everyRule_regions_exact (text : String) (warningsAsErrors : Bool) :
    let s := Source.ofText text
    let c := Checker.mk (.everyRule warningsAsErrors) (some s)
    (s.length + 1 < Json.wordLimit → ∀ r : Region, r.Nested s.length →
      ∃ n, r.toNode s = .ok n ∧ (c.checkTree n).diagnostics = []) ∧
    ∀ tree : Json, (c.check tree).errors = [] → (c.check tree).warnings = [] →
      ∀ address node, tree.get? (nodePath address) = some node → ∃ p, node.OffsetsNested p := by
  intro s c
  have hformed : s.WellFormed := Source.wellFormed_ofText text
  constructor
  · intro hsize r hr
    obtain ⟨n, hn, hclean⟩ := toNode_clean (c := c) hformed hsize rfl hr
    refine ⟨n, hn, ?_⟩
    rw [checkTree, check, hclean.1]
    rfl
  · intro tree herrors hwarnings address node hnode
    have herror := (withSeverity_check_eq_nil_iff .error).mp herrors
    have hwarning := (withSeverity_check_eq_nil_iff .warning).mp hwarnings
    exact offsetsNested_of_free hformed rfl rfl rfl rfl (free_nodePath hnode herror)
      (free_nodePath hnode hwarning)

/-- Three ranges in a document of two lines, the second of them empty. -/
theorem everyRule_regions_exact_two_lines :
    let s := Source.ofText "a\r\n  b"
    let c := Checker.mk (.everyRule true) (some s)
    let r := Region.branch "root" 0 6
      [.leaf "letter" 0 1 none, .leaf "gap" 1 1 (some .null), .leaf "letter" 5 6 none]
    r.Nested s.length ∧ ∃ n, r.toNode s = .ok n ∧ (c.checkTree n).diagnostics = [] ∧
      ∃ p, n.toJson.OffsetsNested p := by
  intro s c r
  have hnested : r.Nested s.length := by
    refine .branch (by decide) (by decide) (by decide) (by simp [Region.start, Region.stop])
      (by simp [Region.start]) ?_
    simp only [List.forall_mem_cons, List.not_mem_nil, false_implies, implies_true, and_true]
    exact ⟨.leaf (by decide) (by decide) (by decide), .leaf (by decide) (by decide) (by decide),
      .leaf (by decide) (by decide) (by decide)⟩
  obtain ⟨hclean, hoffsets⟩ := everyRule_regions_exact "a\r\n  b" true
  obtain ⟨n, hn, hnone⟩ := hclean (by decide) r hnested
  refine ⟨hnested, n, hn, hnone, ?_⟩
  have hnothing : ∀ severity, (c.check n.toJson).withSeverity severity = [] := by
    intro severity
    exact List.filter_eq_nil_iff.mpr fun d hd => absurd (hnone ▸ hd) List.not_mem_nil
  exact hoffsets n.toJson (hnothing .error) (hnothing .warning) [] n.toJson rfl

end Checker

end TreeShape
