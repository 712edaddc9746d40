import TreeShape.Proofs.Checker.Agreement
/- Trees of nested regions of a document: the checker that knows the document finds nothing in them,
whatever rules it checks. -/
namespace TreeShape

/-- A labelled range of offsets, with a value or with the ranges below it. -/
inductive Region where
  | leaf (type : String) (start stop : Nat) (value : Option Json)
  | branch (type : String) (start stop : Nat) (children : List Region)

namespace Region

def start : Region → Nat
  | leaf _ start _ _ => start
  | branch _ start _ _ => start

def stop : Region → Nat
  | leaf _ _ stop _ => stop
  | branch _ _ stop _ => stop

/-- The ranges lie in the document and in the ranges above them, and none starts before the range
on its left. -/
inductive Nested (length : Nat) : Region → Prop
  | leaf {type : String} {start stop : Nat} {value : Option Json} : type ≠ "" → start ≤ stop →
      stop ≤ length → Nested length (leaf type start stop value)
  | branch {type : String} {start stop : Nat} {children : List Region} : type ≠ "" → start ≤ stop →
      stop ≤ length → (∀ child ∈ children, start ≤ child.start ∧ child.stop ≤ stop) →
      children.Pairwise (fun left right => left.start ≤ right.start) →
      (∀ child ∈ children, Nested length child) → Nested length (branch type start stop children)

mutual

/-- The node that has the label and the position of a range, and those below it. -/
def toNode (s : Source) : Region → Except ShapeError Node
  | leaf type start stop value => do
    let position ← s.positionBetween start stop
    return { (Node.new type).placedAt position with value := value }
  | branch type start stop children => do
    let position ← s.positionBetween start stop
    let nodes ← toNodes s children
    return (Node.parent type nodes).placedAt position
termination_by structural r => r

def toNodes (s : Source) : List Region → Except ShapeError (List Node)
  | [] => .ok []
  | r :: rest => do
    let n ← toNode s r
    let nodes ← toNodes s rest
    return n :: nodes
termination_by structural list => list

end

end Region

/-- Every rule is checked. -/
def CheckOptions.everyRule (warningsAsErrors : Bool) : CheckOptions :=
  ⟨true, true, true, true, warningsAsErrors⟩

namespace Source

variable {s : Source} {p q : Position} {a b : Nat}

theorem Confirms.ends (h : s.Confirms p) : s.Ends p := ⟨h.start, h.stop⟩

theorem Between.matches (h : s.WellFormed) (hbetween : s.Between a b p) : s.Matches p :=
  ⟨a, b, p, hbetween.ordered, hbetween.within, h.positionBetween_iff.mpr hbetween, rfl, rfl, .inr rfl⟩

theorem Between.forward (h : s.WellFormed) (hbetween : s.Between a b p) :
    p.start.offset ≤ p.stop.offset := by
  rw [h.offset_of_pointAt hbetween.start, h.offset_of_pointAt hbetween.stop]
  exact hbetween.ordered

theorem Between.ends (h : s.WellFormed) (hbetween : s.Between a b p) : s.Ends p :=
  (h.confirms_of_matches (hbetween.matches h)).ends

/-- The coordinates of a document that is short enough are words. -/
theorem Between.fits (h : s.WellFormed) (hsize : s.length + 1 < Json.wordLimit)
    (hbetween : s.Between a b p) : p.Fits := by
  obtain ⟨hline, hcolumn, hoffset⟩ := h.pointAt_bounds hbetween.start
  obtain ⟨hline', hcolumn', hoffset'⟩ := h.pointAt_bounds hbetween.stop
  refine ⟨⟨by omega, by omega, by omega⟩, ⟨by omega, by omega, by omega⟩, ?_⟩
  intro column hcolumn
  have := (hbetween.indent_bounds h column hcolumn).2
  omega

end Source

namespace Checker

variable {c : Checker} {s : Source} {parent previous : Option Position}

/-- Checking an item finds nothing, and its position is that of the range. -/
def Clean (c : Checker) (s : Source) (item : Json) (r : Region) : Prop :=
  (c.checkNode item).findings = [] ∧
    ∃ p, (c.checkNode item).position = some p ∧ s.Between r.start r.stop p

/-- On positions of a document a child is in its place just if its offsets are. -/
theorem relationFindings_offsets (h : s.WellFormed) {outer inner : Position}
    (houter : s.Ends outer) (hinner : s.Ends inner)
    (hforward : inner.start.offset ≤ inner.stop.offset) (hprevious : ∀ p ∈ previous, s.Ends p) :
    c.relationFindings (some outer) previous inner = [] ↔
      (c.options.checkContainment = true →
        outer.start.offset ≤ inner.start.offset ∧ inner.stop.offset ≤ outer.stop.offset) ∧
      (c.options.checkSiblingOrder = true →
        ∀ p ∈ previous, p.start.offset ≤ inner.start.offset) := by
  rw [relationFindings_eq_nil_iff]
  apply and_congr
  · apply imp_congr_right
    intro hcontained
    simp only [Option.mem_some_iff, forall_eq', h.encloses_iff houter hinner]
    omega
  · apply imp_congr_right
    intro hordered
    apply forall₂_congr
    intro p hp
    have hstart := Source.agrees_iff.mp hinner.start
    have hbefore := Source.agrees_iff.mp (hprevious p hp).start
    rw [h.lt_iff hstart hbefore, Nat.not_lt]

/-- Nothing is found among clean items that are nested in their parent and in order. -/
theorem checkItems_clean (h : s.WellFormed) {outer : Position} {a b : Nat}
    (houter : s.Between a b outer) {items : List Json} {regions : List Region}
    (hitems : List.Forall₂ (Clean c s) items regions)
    (hwithin : ∀ r ∈ regions, a ≤ r.start ∧ r.stop ≤ b)
    (hsorted : regions.Pairwise fun left right => left.start ≤ right.start)
    (hprevious : ∀ p ∈ previous, ∃ first last, s.Between first last p ∧
      ∀ r ∈ regions, first ≤ r.start) (index : Nat) :
    (c.checkItems (some outer) previous index items).findings = [] := by
  -- The sibling before the list starts no later than any region left in it.
  induction hitems generalizing previous index with
  | nil => rfl
  | @cons item r items regions hitem hitems ih =>
      obtain ⟨hfindings, p, hposition, hbetween⟩ := hitem
      rw [List.pairwise_cons] at hsorted
      have hends : ∀ q ∈ previous, s.Ends q := by
        intro q hq
        obtain ⟨first, last, hfirst, -⟩ := hprevious q hq
        exact hfirst.ends h
      have hrelation : c.relationFindings (some outer) previous p = [] := by
        rw [relationFindings_offsets h (houter.ends h) (hbetween.ends h) (hbetween.forward h) hends,
          h.offset_of_pointAt houter.start, h.offset_of_pointAt houter.stop,
          h.offset_of_pointAt hbetween.start, h.offset_of_pointAt hbetween.stop]
        refine ⟨fun hcontained => hwithin r List.mem_cons_self, ?_⟩
        intro hordered q hq
        obtain ⟨first, last, hfirst, hle⟩ := hprevious q hq
        rw [h.offset_of_pointAt hfirst.start]
        exact hle r List.mem_cons_self
      have hlater : (c.checkItems (some outer) (some p) (index + 1) items).findings = [] := by
        apply ih (fun r' hr' => hwithin r' (List.mem_cons_of_mem r hr')) hsorted.2
        rintro q ⟨⟩
        exact ⟨r.start, r.stop, hbetween, hsorted.1⟩
      simp [checkItems_cons, hposition, hfindings, hrelation, hlater]

/-- A node with a label and the position of a range, and without data, is as clean as its children,
provided that it has no value beside them. -/
theorem clean_of_between (h : s.WellFormed) (hsize : s.length + 1 < Json.wordLimit)
    (hsource : c.source = some s) (r : Region) {n : Node} {p : Position} (hapart : n.PartsApart)
    (htype : n.type ≠ "") (hdata : n.data = none) (hposition : n.position = some p)
    (hbetween : s.Between r.start r.stop p) (hkind : n.children = none ∨ n.value = none)
    (hbelow : ∀ fields, n.Parts fields → (c.checkChildrenOf (some p) fields).findings = []) :
    Clean c s n.toJson r := by
  obtain ⟨fields, hjson, hparts⟩ := hapart.exists_parts
  have hplaced : c.checkNodePosition fields = ⟨some p, []⟩ := by
    have hmatches := hbetween.matches h
    have hwritten : checkPosition c.source p.toJson = ⟨some p, []⟩ := by
      apply checkPosition_of_writes (Position.writes_toJson (hbetween.fits h hsize))
        (h.valid_of_matches hmatches)
      rw [hsource]
      rintro s' ⟨⟩
      exact h.confirms_of_matches hmatches
    rw [checkNodePosition, hparts.present_position, hposition, Option.map_some]
    simp only [hwritten]
    rfl
  have htyped : checkType fields = [] := checkType_eq_nil_iff.mpr ⟨n.type, hparts.type, htype⟩
  have hplain : checkData fields = [] := by
    rw [checkData_eq_nil_iff, hparts.present_data, hdata]
    simp
  have hhybrid : c.hybridFindings fields = [] := by
    have hnot : ¬ ((Json.present? "children" fields).isSome ∧
        Entries.contains "value" fields = true) := by
      rw [hparts.present_children, Entries.contains, hparts.value]
      rcases hkind with hleaf | hbranch
      · simp [hleaf]
      · simp [hbranch]
    exact if_neg fun hodd => hnot hodd.2
  rw [Clean, hjson, checkNode_object, hplaced, htyped, hplain, hhybrid]
  exact ⟨by simp [hbelow fields hparts], p, rfl, hbetween⟩

theorem toNodes_clean {regions : List Region}
    (h : ∀ r ∈ regions, ∃ n, r.toNode s = .ok n ∧ Clean c s n.toJson r) :
    ∃ nodes, Region.toNodes s regions = .ok nodes ∧
      List.Forall₂ (Clean c s) (nodes.map Node.toJson) regions := by
  induction regions with
  | nil => exact ⟨[], rfl, .nil⟩
  | cons r rest ih =>
      rw [List.forall_mem_cons] at h
      obtain ⟨n, hn, hclean⟩ := h.1
      obtain ⟨nodes, hnodes, hrest⟩ := ih h.2
      refine ⟨n :: nodes, ?_, .cons hclean hrest⟩
      rw [Region.toNodes, hn, hnodes]
      rfl

/-- A tree of nested ranges becomes a tree of nodes in which nothing is found. -/
theorem toNode_clean (h : s.WellFormed) (hsize : s.length + 1 < Json.wordLimit)
    (hsource : c.source = some s) {r : Region} (hr : r.Nested s.length) :
    ∃ n, r.toNode s = .ok n ∧ Clean c s n.toJson r := by
  induction hr with
  | @leaf type start stop value htype hle hlength =>
      obtain ⟨p, hbetween⟩ := h.exists_between hle hlength
      refine ⟨{ (Node.new type).placedAt p with value := value }, ?_, ?_⟩
      · rw [Region.toNode, h.positionBetween_iff.mpr hbetween]
        rfl
      · apply clean_of_between h hsize hsource (.leaf type start stop value) (fun key hkey => rfl) htype
          rfl rfl hbetween (.inl rfl)
        intro fields hparts
        rw [checkChildrenOf_absent hparts.present_children]
  | @branch type start stop children htype hle hlength hwithin hsorted hnested ih =>
      obtain ⟨p, hbetween⟩ := h.exists_between hle hlength
      obtain ⟨nodes, hnodes, hclean⟩ := toNodes_clean ih
      refine ⟨(Node.parent type nodes).placedAt p, ?_, ?_⟩
      · rw [Region.toNode, h.positionBetween_iff.mpr hbetween, hnodes]
        rfl
      · apply clean_of_between h hsize hsource (.branch type start stop children)
          (fun key hkey => rfl) htype rfl rfl hbetween (.inr rfl)
        intro fields hparts
        rw [checkChildrenOf_list hparts.present_children]
        exact checkItems_clean h hbetween hclean hwithin hsorted (by simp) 0

end Checker

end TreeShape
