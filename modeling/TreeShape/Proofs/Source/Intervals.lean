import Mathlib.Order.Interval.Set.Basic
import TreeShape.Proofs.Source.Points
import TreeShape.Proofs.Position.Order
/- Regions of one document are intervals of its offsets: what is asked of their lines and columns is
answered by the offsets alone. -/
namespace TreeShape

/-- The offsets from the start of a position to its stop, with both. -/
def Position.offsets (p : Position) : Set ℕ := Set.Icc p.start.offset p.stop.offset

namespace Source

section Points

variable {s : Source} {p q : Point}

theorem WellFormed.notAfter_iff_offset (h : s.WellFormed) (hp : s.agrees p = true)
    (hq : s.agrees q = true) : p.NotAfter q ↔ p.offset ≤ q.offset :=
  h.notAfter_iff (agrees_iff.mp hp) (agrees_iff.mp hq)

theorem WellFormed.precedes_iff_offset (h : s.WellFormed) (hp : s.agrees p = true)
    (hq : s.agrees q = true) : p.Precedes q ↔ p.offset < q.offset := by
  rw [Point.precedes_iff, h.notAfter_iff_offset hq hp, Nat.not_le]

theorem WellFormed.lt_iff_offset (h : s.WellFormed) (hp : s.agrees p = true)
    (hq : s.agrees q = true) : p < q ↔ p.offset < q.offset :=
  h.lt_iff (agrees_iff.mp hp) (agrees_iff.mp hq)

theorem WellFormed.le_iff_offset (h : s.WellFormed) (hp : s.agrees p = true)
    (hq : s.agrees q = true) : p ≤ q ↔ p.offset ≤ q.offset := by
  rw [Point.le_iff_not_lt, h.lt_iff_offset hq hp, Nat.not_lt]

end Points

variable {s : Source} {p q : Position} {positions : List Position} {box : Position}

/-- On positions of a document that do not run backwards, overlapping is having an offset in common. -/
theorem WellFormed.overlaps_iff (h : s.WellFormed) (hp : s.Ends p) (hq : s.Ends q)
    (hforward : p.start ≤ p.stop) (hforward' : q.start ≤ q.stop) :
    p.overlaps q = true ↔ (p.offsets ∩ q.offsets).Nonempty := by
  rw [h.le_iff_offset hp.start hp.stop] at hforward
  rw [h.le_iff_offset hq.start hq.stop] at hforward'
  simp only [Position.overlaps, Bool.or_eq_true, h.contains_iff hp hq.start,
    h.contains_iff hp hq.stop, h.contains_iff hq hp.start, h.contains_iff hq hp.stop]
  rw [Position.offsets, Position.offsets, Set.Icc_inter_Icc, Set.nonempty_Icc, sup_le_iff,
    le_inf_iff, le_inf_iff]
  omega

/-- The least of some points of a document has the least of their offsets. -/
theorem WellFormed.least_offset (h : s.WellFormed) {points : List Point} {least : Point}
    (hall : ∀ p ∈ points, s.agrees p = true)
    (hleast : least ∈ points ∧ ∀ p ∈ points, least ≤ p) :
    (points.map (·.offset)).min? = some least.offset := by
  rw [List.min?_eq_some_iff, List.forall_mem_map]
  refine ⟨List.mem_map_of_mem hleast.1, ?_⟩
  intro p hp
  exact (h.le_iff_offset (hall least hleast.1) (hall p hp)).mp (hleast.2 p hp)

/-- The greatest of some points of a document has the greatest of their offsets. -/
theorem WellFormed.greatest_offset (h : s.WellFormed) {points : List Point} {greatest : Point}
    (hall : ∀ p ∈ points, s.agrees p = true)
    (hgreatest : greatest ∈ points ∧ ∀ p ∈ points, p ≤ greatest) :
    (points.map (·.offset)).max? = some greatest.offset := by
  rw [List.max?_eq_some_iff, List.forall_mem_map]
  refine ⟨List.mem_map_of_mem hgreatest.1, ?_⟩
  intro p hp
  exact (h.le_iff_offset (hall p hp) (hall greatest hgreatest.1)).mp (hgreatest.2 p hp)

/-- The ends of the box around some positions of a document are ends of theirs. -/
theorem ends_of_bounds (hbox : Position.Bounds positions box) (hall : ∀ p ∈ positions, s.Ends p) :
    s.Ends box := by
  obtain ⟨first, hfirst, hstart⟩ := hbox.exists_start
  obtain ⟨last, hlast, hstop⟩ := hbox.exists_stop
  constructor
  · rw [← hstart]
    exact (hall first hfirst).start
  · rw [← hstop]
    exact (hall last hlast).stop

/-- A position of a document that does not run backwards and has no indent is the region between its
offsets, apart from the columns of the region. -/
theorem WellFormed.exists_region (h : s.WellFormed) (hp : s.Ends p) (hforward : p.start ≤ p.stop)
    (hindent : p.indent = []) :
    ∃ region, s.positionBetween p.start.offset p.stop.offset = .ok region ∧
      p = { region with indent := [] } := by
  have hstart := agrees_iff.mp hp.start
  have hstop := agrees_iff.mp hp.stop
  have hle := (h.le_iff_offset hp.start hp.stop).mp hforward
  obtain ⟨region, hbetween⟩ := h.exists_between hle (h.pointAt_eq_ok_iff.mp hstop).1
  refine ⟨region, h.positionBetween_iff.mpr hbetween, ?_⟩
  obtain ⟨start, stop, indent⟩ := p
  rw [Position.mk.injEq]
  exact ⟨Except.ok.inj (hstart.symm.trans hbetween.start),
    Except.ok.inj (hstop.symm.trans hbetween.stop), hindent⟩

/-- The box around some positions of a document reaches from the least offset to the greatest. -/
theorem WellFormed.exists_boundingBox (h : s.WellFormed) (hne : positions ≠ [])
    (hall : ∀ p ∈ positions, s.Ends p ∧ p.start ≤ p.stop) :
    ∃ first last region box, (positions.map (·.start.offset)).min? = some first ∧
      (positions.map (·.stop.offset)).max? = some last ∧
      s.positionBetween first last = .ok region ∧ box = { region with indent := [] } ∧
      Position.boundingBox positions = some box ∧ box.validate = .ok () := by
  obtain ⟨box, hbox⟩ := Position.exists_boundingBox hne
  have hbounds := Position.boundingBox_eq_some_iff.mp hbox
  have hends : s.Ends box := ends_of_bounds hbounds fun p hp => (hall p hp).1
  have hforward := hbounds.forward fun p hp => (hall p hp).2
  have hstarts : ∀ q ∈ positions.map (·.start), s.agrees q = true :=
    List.forall_mem_map.mpr fun p hp => (hall p hp).1.start
  have hstops : ∀ q ∈ positions.map (·.stop), s.agrees q = true :=
    List.forall_mem_map.mpr fun p hp => (hall p hp).1.stop
  have hfirst := h.least_offset hstarts hbounds.start
  have hlast := h.greatest_offset hstops hbounds.stop
  rw [List.map_map] at hfirst hlast
  have hle := (h.le_iff_offset hends.start hends.stop).mp hforward
  have hvalid : box.Valid :=
    h.valid_of_pointAt hle (agrees_iff.mp hends.start) (agrees_iff.mp hends.stop)
      (by simp [hbounds.indent]) (.inl hbounds.indent)
  obtain ⟨region, hregion, hsame⟩ := h.exists_region hends hforward hbounds.indent
  exact ⟨_, _, region, box, hfirst, hlast, hregion, hsame, hbox,
    Position.validate_eq_ok_iff.mpr hvalid⟩

/-- On the points of one document the order of points, the order of places and the order of offsets
are one, so the operations on its positions are operations on intervals of offsets: containment is
membership, enclosing is inclusion of both ends and overlapping is having an offset in common. The
box around some positions is the region from the least start to the greatest stop, without columns,
and it is valid. -/
theorem operations_on_offsets (text : String) :
    let s := ofText text
    (∀ p q, s.agrees p = true → s.agrees q = true →
        (p < q ↔ p.offset < q.offset) ∧ (p.Precedes q ↔ p.offset < q.offset)) ∧
      (∀ p q, s.Ends p → s.agrees q = true → (p.contains q = true ↔ q.offset ∈ p.offsets)) ∧
      (∀ p q, s.Ends p → s.Ends q →
        (p.encloses q = true ↔ q.start.offset ∈ p.offsets ∧ q.stop.offset ∈ p.offsets)) ∧
      (∀ p q, s.Ends p → s.Ends q → p.start ≤ p.stop → q.start ≤ q.stop →
        (p.overlaps q = true ↔ (p.offsets ∩ q.offsets).Nonempty)) ∧
      ∀ positions ≠ [], (∀ p ∈ positions, s.Ends p ∧ p.start ≤ p.stop) →
        ∃ first last region box, (positions.map (·.start.offset)).min? = some first ∧
          (positions.map (·.stop.offset)).max? = some last ∧
          s.positionBetween first last = .ok region ∧ box = { region with indent := [] } ∧
          Position.boundingBox positions = some box ∧ box.validate = .ok () := by
  intro s
  have h : s.WellFormed := wellFormed_ofText text
  refine ⟨?_, ?_, ?_, ?_, ?_⟩
  · intro p q hp hq
    exact ⟨h.lt_iff_offset hp hq, h.precedes_iff_offset hp hq⟩
  · intro p q hp hq
    exact h.contains_iff hp hq
  · intro p q hp hq
    exact h.encloses_iff hp hq
  · intro p q hp hq hforward hforward'
    exact h.overlaps_iff hp hq hforward hforward'
  · intro positions hne hall
    exact h.exists_boundingBox hne hall

/-- Two positions that share the place of a line feed, which ends a line together with the return
before it. -/
theorem operations_on_offsets_two_lines :
    let s := ofText "ab\r\n\tc"
    let p : Position := ⟨⟨1, 2, 1⟩, ⟨1, 4, 3⟩, []⟩
    let q : Position := ⟨⟨1, 4, 3⟩, ⟨2, 3, 6⟩, [7]⟩
    s.Ends p ∧ s.Ends q ∧ p.start < q.stop ∧ p.start.Precedes q.stop ∧ p.contains q.start = true ∧
      p.encloses q = false ∧ p.overlaps q = true ∧
      ∃ region, s.positionBetween 1 6 = .ok region ∧
        Position.boundingBox [q, p] = some { region with indent := [] } ∧
        Position.validate { region with indent := [] } = .ok () := by
  intro s p q
  have hp : s.Ends p := ⟨by decide, by decide⟩
  have hq : s.Ends q := ⟨by decide, by decide⟩
  obtain ⟨horder, hcontains, hencloses, hoverlaps, hboxes⟩ := operations_on_offsets "ab\r\n\tc"
  have hall : ∀ r ∈ [q, p], s.Ends r ∧ r.start ≤ r.stop := by
    rw [List.forall_mem_cons, List.forall_mem_singleton]
    exact ⟨⟨hq, by decide⟩, ⟨hp, by decide⟩⟩
  obtain ⟨first, last, region, box, hfirst, hlast, hregion, rfl, hbox, hvalid⟩ :=
    hboxes [q, p] (by simp) hall
  cases hfirst
  cases hlast
  refine ⟨hp, hq, ?_, ?_, ?_, ?_, ?_, region, hregion, hbox, hvalid⟩
  · exact (horder p.start q.stop hp.start hq.stop).1.mpr (by decide)
  · exact (horder p.start q.stop hp.start hq.stop).2.mpr (by decide)
  · exact (hcontains p q.start hp hq.start).mpr ⟨by decide, by decide⟩
  · rw [← Bool.not_eq_true, hencloses p q hp hq]
    exact fun hboth => absurd hboth.2.2 (by decide)
  · apply (hoverlaps p q hp hq (by decide) (by decide)).mpr
    exact ⟨3, ⟨by decide, by decide⟩, ⟨by decide, by decide⟩⟩

end Source

end TreeShape
