/- One place in a source document. -/
namespace TreeShape

/-- A place by line and column, counted from one, and by characters before it. -/
structure Point where
  line : Nat
  column : Nat
  offset : Nat
  deriving DecidableEq, Inhabited

namespace Point

/-- The line and column of the first point come no later than those of the second. -/
def NotAfter (p q : Point) : Prop := p.line < q.line ∨ p.line = q.line ∧ p.column ≤ q.column

instance (p q : Point) : Decidable (p.NotAfter q) :=
  inferInstanceAs (Decidable (_ ∨ _))

/-- The order by line, then column, then offset. -/
def Before (p q : Point) : Prop :=
  p.line < q.line ∨ p.line = q.line ∧
    (p.column < q.column ∨ p.column = q.column ∧ p.offset < q.offset)

instance : LT Point := ⟨Before⟩

instance (p q : Point) : Decidable (p < q) :=
  inferInstanceAs (Decidable (_ ∨ _))

instance : LE Point := ⟨fun p q => ¬ q < p⟩

instance (p q : Point) : Decidable (p ≤ q) :=
  inferInstanceAs (Decidable (¬ _))

instance : Ord Point := ⟨fun p q => if p < q then .lt else if q < p then .gt else .eq⟩

def min (p q : Point) : Point := if q < p then q else p

def max (p q : Point) : Point := if q < p then p else q

def text (p : Point) : String := toString p.line ++ ":" ++ toString p.column

end Point

end TreeShape
