import TreeShape.Proofs.Position.Order
import TreeShape.Proofs.Position.PointSet
import TreeShape.Proofs.Shape.Position
import TreeShape.Source
/- The box around some positions is the least position that encloses them. Its ends are whole points of
theirs, so its offsets are in order if theirs follow their places, and need not be otherwise. -/
namespace TreeShape

namespace Point

theorem notAfter_of_le {p q : Point} (h : p ≤ q) : p.NotAfter q := by
  rw [le_iff] at h
  unfold NotAfter
  omega

/-- What comes first in two lists of points is the first of what comes first in each. -/
theorem first_append {r : Point → Point → Prop} (htrans : ∀ {a b c}, r a b → r b c → r a c)
    {xs ys : List Point} {x y first : Point} (hx : x ∈ xs ∧ ∀ q ∈ xs, r x q)
    (hy : y ∈ ys ∧ ∀ q ∈ ys, r y q) (hfirst : first ∈ [x, y] ∧ ∀ q ∈ [x, y], r first q) :
    first ∈ xs ++ ys ∧ ∀ q ∈ xs ++ ys, r first q := by
  have hmem : first = x ∨ first = y := by simpa using hfirst.1
  constructor
  · rcases hmem with rfl | rfl
    · exact List.mem_append_left ys hx.1
    · exact List.mem_append_right xs hy.1
  · intro q hq
    rcases List.mem_append.mp hq with hq | hq
    · exact htrans (hfirst.2 x (.head _)) (hx.2 q hq)
    · exact htrans (hfirst.2 y (.tail _ (.head _))) (hy.2 q hq)

end Point

namespace Position

variable {positions xs ys : List Position} {box first second outer p : Position}

theorem boundingBox_eq_none_iff : boundingBox positions = none ↔ positions = [] := by
  cases positions with
  | nil => exact iff_of_true rfl rfl
  | cons first rest => exact iff_of_false (by simp [boundingBox]) (by simp)

theorem Bounds.encloses (h : Bounds positions box) (hp : p ∈ positions) (hforward : p.Forward) :
    box.encloses p = true := by
  have hstart := Point.notAfter_of_le (h.start_le hp)
  have hstop := Point.notAfter_of_le (h.le_stop hp)
  exact encloses_iff.mpr ⟨contains_iff.mpr ⟨hstart, Point.NotAfter.trans hforward hstop⟩,
    contains_iff.mpr ⟨hstart.trans hforward, hstop⟩⟩

/-- A box is enclosed by what encloses the positions that its ends are taken from. -/
theorem Bounds.enclosed (h : Bounds positions box)
    (hall : ∀ p ∈ positions, outer.encloses p = true) : outer.encloses box = true := by
  obtain ⟨p, hp, hstart⟩ := h.exists_start
  obtain ⟨q, hq, hstop⟩ := h.exists_stop
  rw [encloses_iff, ← hstart, ← hstop]
  exact ⟨(encloses_iff.mp (hall p hp)).1, (encloses_iff.mp (hall q hq)).2⟩

theorem Bounds.of_mem_iff (hmem : ∀ p, p ∈ xs ↔ p ∈ ys) (h : Bounds xs box) : Bounds ys box := by
  have hmap : ∀ (f : Position → Point) q, q ∈ xs.map f ↔ q ∈ ys.map f := by
    intro f q
    simp only [List.mem_map, hmem]
  exact ⟨by simpa only [hmap] using h.start, by simpa only [hmap] using h.stop, h.indent⟩

/-- A box depends on which positions there are, and on nothing else of their list. -/
theorem boundingBox_congr (hmem : ∀ p, p ∈ xs ↔ p ∈ ys) : boundingBox xs = boundingBox ys := by
  apply Option.ext
  intro box
  rw [boundingBox_eq_some_iff, boundingBox_eq_some_iff]
  exact ⟨.of_mem_iff hmem, .of_mem_iff fun p => (hmem p).symm⟩

theorem Bounds.append (hfirst : Bounds xs first) (hsecond : Bounds ys second)
    (hbox : Bounds [first, second] box) : Bounds (xs ++ ys) box := by
  constructor
  · rw [List.map_append]
    exact Point.first_append (r := fun p q => p ≤ q) Std.le_trans hfirst.start hsecond.start
      hbox.start
  · rw [List.map_append]
    exact Point.first_append (r := fun p q => q ≤ p) (fun h h' => Std.le_trans h' h)
      hfirst.stop hsecond.stop hbox.stop
  · exact hbox.indent

/-- The box around two lists of positions is the box around their boxes. -/
theorem boundingBox_append (hfirst : boundingBox xs = some first)
    (hsecond : boundingBox ys = some second) :
    boundingBox (xs ++ ys) = boundingBox [first, second] := by
  obtain ⟨box, hbox⟩ := exists_boundingBox (List.cons_ne_nil first [second])
  rw [hbox, boundingBox_eq_some_iff]
  rw [boundingBox_eq_some_iff] at hfirst hsecond hbox
  exact hfirst.append hsecond hbox

/-- The box around some positions that run forward is the least position that encloses all of them, and
its ends are ends of theirs. There is one just if there are positions; their order is of no account;
and the box around two lists is the box around their boxes. -/
theorem boundingBox_least :
    (∀ positions, boundingBox positions = none ↔ positions = []) ∧
      (∀ positions ≠ [], (∀ p ∈ positions, p.Forward) →
        ∃ box, boundingBox positions = some box ∧ (∀ p ∈ positions, box.encloses p = true) ∧
          (∀ outer : Position, (∀ p ∈ positions, outer.encloses p = true) →
            outer.encloses box = true) ∧
          box.start ∈ positions.map (·.start) ∧ box.stop ∈ positions.map (·.stop) ∧
          box.indent = []) ∧
      (∀ xs ys : List Position, xs.Perm ys → boundingBox xs = boundingBox ys) ∧
      ∀ xs ≠ [], ∀ ys ≠ [], ∃ first second, boundingBox xs = some first ∧
        boundingBox ys = some second ∧ boundingBox (xs ++ ys) = boundingBox [first, second] := by
  refine ⟨?_, ?_, ?_, ?_⟩
  · intro positions
    exact boundingBox_eq_none_iff
  · intro positions hne hforward
    obtain ⟨box, hbox⟩ := exists_boundingBox hne
    have hbounds := boundingBox_eq_some_iff.mp hbox
    refine ⟨box, hbox, ?_, ?_, hbounds.start.1, hbounds.stop.1, hbounds.indent⟩
    · intro p hp
      exact hbounds.encloses hp (hforward p hp)
    · intro outer houter
      exact hbounds.enclosed houter
  · intro xs ys hperm
    exact boundingBox_congr fun p => hperm.mem_iff
  · intro xs hxs ys hys
    obtain ⟨first, hfirst⟩ := exists_boundingBox hxs
    obtain ⟨second, hsecond⟩ := exists_boundingBox hys
    exact ⟨first, second, hfirst, hsecond, boundingBox_append hfirst hsecond⟩

/-- Two positions that start at one place with different offsets, and one after a gap. -/
theorem boundingBox_least_ties :
    let p : Position := ⟨⟨1, 2, 5⟩, ⟨2, 3, 8⟩, [1]⟩
    let q : Position := ⟨⟨1, 2, 1⟩, ⟨1, 4, 9⟩, []⟩
    let r : Position := ⟨⟨4, 1, 20⟩, ⟨4, 1, 20⟩, []⟩
    let box : Position := ⟨⟨1, 2, 1⟩, ⟨4, 1, 20⟩, []⟩
    (∀ each ∈ [p, q, r], each.Forward) ∧ boundingBox [p, q, r] = some box ∧
      (∀ each ∈ [p, q, r], box.encloses each = true) ∧
      (∀ outer : Position, (∀ each ∈ [p, q, r], outer.encloses each = true) →
        outer.encloses box = true) ∧
      boundingBox [r, p, q] = some box ∧
      ∃ first second, boundingBox [r] = some first ∧ boundingBox [p, q] = some second ∧
        boundingBox [first, second] = some box := by
  intro p q r box
  have hforward : ∀ each ∈ [p, q, r], each.Forward := by
    simp only [List.forall_mem_cons]
    exact ⟨.inl (by decide), .inr (by decide), .inr (by decide), by simp⟩
  have hbox : boundingBox [p, q, r] = some box := by decide
  obtain ⟨-, hleast, hperm, happend⟩ := boundingBox_least
  obtain ⟨found, hfound, hencloses, henclosed, -⟩ := hleast [p, q, r] (by simp) hforward
  cases hbox.symm.trans hfound
  have hrotated : ([r] ++ [p, q]).Perm ([p, q] ++ [r]) := List.perm_append_comm
  have horder : boundingBox [r, p, q] = some box := (hperm _ _ hrotated).trans hbox
  obtain ⟨first, second, hfirst, hsecond, hboxes⟩ := happend [r] (by simp) [p, q] (by simp)
  exact ⟨hforward, hbox, hencloses, henclosed, horder, first, second, hfirst, hsecond,
    hboxes.symm.trans horder⟩

theorem Valid.start_le_stop (h : p.Valid) : p.start ≤ p.stop := by
  have horder := h.order
  have hoffsets := h.offsets
  unfold Point.NotAfter at horder
  rw [Point.le_iff]
  omega

theorem Bounds.ends_validate (h : Bounds positions box) (hall : ∀ p ∈ positions, p.Valid) :
    box.start.validate = .ok () ∧ box.stop.validate = .ok () := by
  obtain ⟨p, hp, hstart⟩ := h.exists_start
  obtain ⟨q, hq, hstop⟩ := h.exists_stop
  rw [validate_point_iff, validate_point_iff, ← hstart, ← hstop]
  exact ⟨⟨(hall p hp).startLine, (hall p hp).startColumn⟩, (hall q hq).stopLine,
    (hall q hq).stopColumn⟩

theorem Bounds.notAfter (h : Bounds positions box) (hall : ∀ p ∈ positions, p.Valid) :
    box.start.NotAfter box.stop :=
  Point.notAfter_of_le (h.forward fun p hp => (hall p hp).start_le_stop)

/-- The box around valid positions lacks at most the order of its offsets. -/
theorem Bounds.validate_eq (h : Bounds positions box) (hall : ∀ p ∈ positions, p.Valid) :
    box.validate =
      if box.start.offset ≤ box.stop.offset then .ok ()
      else .error (.startAfterEnd box.start box.stop) := by
  obtain ⟨hstart, hstop⟩ := h.ends_validate hall
  by_cases hoffsets : box.start.offset ≤ box.stop.offset
  · obtain ⟨hstartLine, hstartColumn⟩ := validate_point_iff.mp hstart
    obtain ⟨hstopLine, hstopColumn⟩ := validate_point_iff.mp hstop
    rw [if_pos hoffsets, validate_eq_ok_iff]
    exact ⟨hstartLine, hstartColumn, hstopLine, hstopColumn, h.notAfter hall, hoffsets,
      by simp [h.indent], .inl h.indent⟩
  · rw [if_neg hoffsets, validate, hstart, hstop]
    exact if_pos (.inr (Nat.lt_of_not_le hoffsets))

/-- Valid positions have a box around them. It is valid just if its offsets are in order, and that they
are not is all that can be wrong with it. They are in order if the offset of no start is greater than
that of a stop at the same place or later. -/
theorem boundingBox_validate (positions : List Position) (hne : positions ≠ [])
    (hall : ∀ p ∈ positions, p.validate = .ok ()) :
    ∃ box, boundingBox positions = some box ∧ Bounds positions box ∧
      box.validate =
        (if box.start.offset ≤ box.stop.offset then .ok ()
        else .error (.startAfterEnd box.start box.stop)) ∧
      ((∀ p ∈ positions, ∀ q ∈ positions, p.start.NotAfter q.stop →
        p.start.offset ≤ q.stop.offset) → box.validate = .ok ()) := by
  have hvalid : ∀ p ∈ positions, p.Valid := fun p hp => validate_eq_ok_iff.mp (hall p hp)
  obtain ⟨box, hbox⟩ := exists_boundingBox hne
  have hbounds := boundingBox_eq_some_iff.mp hbox
  refine ⟨box, hbox, hbounds, hbounds.validate_eq hvalid, ?_⟩
  intro hagree
  obtain ⟨p, hp, hstart⟩ := hbounds.exists_start
  obtain ⟨q, hq, hstop⟩ := hbounds.exists_stop
  have horder := hbounds.notAfter hvalid
  have hoffsets : box.start.offset ≤ box.stop.offset := by
    rw [← hstart, ← hstop] at horder ⊢
    exact hagree p hp q hq horder
  rw [hbounds.validate_eq hvalid, if_pos hoffsets]

/-- The regions overlap, and the one that starts first stops first. -/
theorem boundingBox_validate_overlapping :
    let p : Position := ⟨⟨1, 3, 2⟩, ⟨2, 4, 7⟩, [2]⟩
    let q : Position := ⟨⟨2, 1, 4⟩, ⟨3, 2, 10⟩, [1]⟩
    (∀ each ∈ [q, p], each.validate = .ok ()) ∧
      ∃ box, boundingBox [q, p] = some box ∧ box = ⟨⟨1, 3, 2⟩, ⟨3, 2, 10⟩, []⟩ ∧
        box.validate = .ok () := by
  intro p q
  have hall : ∀ each ∈ [q, p], each.validate = .ok () := by decide
  obtain ⟨box, hbox, -, -, hvalid⟩ := boundingBox_validate [q, p] (by simp) hall
  exact ⟨hall, box, hbox, (Option.some.inj hbox).symm, hvalid (by decide)⟩

/-- Of these regions of two documents the second one starts on a later line and at a smaller offset. So
the box around them stops at a smaller offset than it starts, as does every position from one of their
starts to one of their stops that encloses both. -/
theorem boundingBox_of_two_documents :
    let p : Position := ⟨⟨1, 5, 4⟩, ⟨1, 6, 5⟩, []⟩
    let q : Position := ⟨⟨2, 1, 1⟩, ⟨2, 2, 2⟩, []⟩
    let box : Position := ⟨⟨1, 5, 4⟩, ⟨2, 2, 2⟩, []⟩
    (Source.ofText "abcde").positionBetween 4 5 = .ok p ∧
      (Source.ofText "\nab").positionBetween 1 2 = .ok q ∧
      (∀ each ∈ [p, q], each.validate = .ok ()) ∧ boundingBox [p, q] = some box ∧
      box.validate = .error (.startAfterEnd ⟨1, 5, 4⟩ ⟨2, 2, 2⟩) ∧
      ∀ start ∈ [p.start, q.start], ∀ stop ∈ [p.stop, q.stop],
        (∀ each ∈ [p, q], Position.encloses ⟨start, stop, []⟩ each = true) →
          Position.validate ⟨start, stop, []⟩ ≠ .ok () := by
  decide

end Position

end TreeShape
