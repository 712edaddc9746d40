import TreeShape.Position
/- What lies in a position by lines and columns: points, and with its ends a whole position. -/
namespace TreeShape

namespace Point

theorem NotAfter.trans {p q r : Point} (h : p.NotAfter q) (h' : q.NotAfter r) : p.NotAfter r := by
  unfold NotAfter at *
  omega

theorem NotAfter.refl (p : Point) : p.NotAfter p := .inr ⟨rfl, Nat.le_refl p.column⟩

end Point

namespace Position

variable {outer mid inner p : Position} {q : Point}

theorem contains_iff : p.contains q = true ↔ p.start.NotAfter q ∧ q.NotAfter p.stop := by
  rw [contains, Bool.and_eq_true, decide_eq_true_iff, decide_eq_true_iff]

theorem encloses_iff :
    outer.encloses inner = true ↔
      outer.contains inner.start = true ∧ outer.contains inner.stop = true := by
  rw [encloses, Bool.and_eq_true]

/-- What lies in a position lies in every position that encloses it. -/
theorem contains_of_encloses (h : outer.encloses inner = true) (hq : inner.contains q = true) :
    outer.contains q = true := by
  obtain ⟨hstart, hstop⟩ := encloses_iff.mp h
  rw [contains_iff] at hstart hstop hq ⊢
  exact ⟨hstart.1.trans hq.1, hq.2.trans hstop.2⟩

theorem encloses_trans (h : outer.encloses mid = true) (h' : mid.encloses inner = true) :
    outer.encloses inner = true := by
  obtain ⟨hstart, hstop⟩ := encloses_iff.mp h'
  exact encloses_iff.mpr ⟨contains_of_encloses h hstart, contains_of_encloses h hstop⟩

theorem encloses_refl (h : p.start.NotAfter p.stop) : p.encloses p = true :=
  encloses_iff.mpr ⟨contains_iff.mpr ⟨.refl _, h⟩, contains_iff.mpr ⟨h, .refl _⟩⟩

end Position

end TreeShape
