import TreeShape.Source
/- The lines of a document: they start at zero, each after the one before it, and the line of an
offset is the last one that starts no later. -/
namespace TreeShape

namespace Source

/-- Lines that follow one another from `low` on and stay, with their columns, in the first `bound`
characters; the column after the last character counts. -/
structure Ascending (low bound : Nat) (lines : List Line) : Prop where
  increasing : lines.Pairwise fun line later => line.start < later.start
  bounds : ∀ line ∈ lines,
    low ≤ line.start ∧ line.start ≤ bound ∧ 1 ≤ line.indent ∧ line.indent ≤ bound + 1

theorem Ascending.nil (low bound : Nat) : Ascending low bound [] := ⟨.nil, by simp⟩

theorem Ascending.cons {start next bound column : Nat} {rest : List Line}
    (h : Ascending next bound rest) (hnext : start < next) (hstart : start ≤ bound)
    (hcolumn : 1 ≤ column ∧ column ≤ bound + 1) :
    Ascending start bound (⟨start, column⟩ :: rest) := by
  refine ⟨List.pairwise_cons.mpr ⟨?_, h.increasing⟩, ?_⟩
  · intro later hlater
    exact Nat.lt_of_lt_of_le hnext (h.bounds later hlater).1
  · intro line hline
    rcases List.mem_cons.mp hline with rfl | hlater
    · exact ⟨Nat.le_refl start, hstart, hcolumn⟩
    · obtain ⟨hlow, hhigh⟩ := h.bounds line hlater
      exact ⟨by omega, hhigh⟩

theorem getD_column_bounds {indent : Option Nat} {column bound : Nat}
    (hindent : ∀ column ∈ indent, 1 ≤ column ∧ column ≤ bound) (hle : column + 1 ≤ bound) :
    1 ≤ indent.getD (column + 1) ∧ indent.getD (column + 1) ≤ bound := by
  cases indent with
  | none => exact ⟨Nat.le_add_left 1 column, hle⟩
  | some met => exact hindent met rfl

/-- Reading the characters from `offset` on keeps the lines ascending, provided that a column met
before lies in the document. -/
theorem scan_ascending {start offset : Nat} {indent : Option Nat} {cs : List Char}
    {bound : Nat} (hstart : start ≤ offset) (hbound : offset + cs.length ≤ bound)
    (hindent : ∀ column ∈ indent, 1 ≤ column ∧ column ≤ bound + 1) :
    Ascending start bound (scan start offset indent cs).lines := by
  have hcolumn : 1 ≤ indent.getD (offset - start + 1) ∧
      indent.getD (offset - start + 1) ≤ bound + 1 := getD_column_bounds hindent (by omega)
  fun_induction scan start offset indent cs with
  | case1 start offset indent =>
      exact (Ascending.nil (start + 1) bound).cons (Nat.lt_succ_self start) (by omega) hcolumn
  | case2 start offset indent rest ih =>
      simp only [List.length_cons] at hbound
      have hrest := ih (Nat.le_refl _) (by omega) (by simp) (by simp)
      exact hrest.cons (by omega) (by omega) hcolumn
  | case3 start offset indent c rest hpair hbreak ih =>
      simp only [List.length_cons] at hbound
      have hrest := ih (Nat.le_refl _) (by omega) (by simp) (by simp)
      exact hrest.cons (by omega) (by omega) hcolumn
  | case4 start offset indent c rest hpair hbreak hblank ih =>
      simp only [List.length_cons] at hbound
      exact ih (by omega) (by omega) hindent (getD_column_bounds hindent (by omega))
  | case5 start offset indent c rest hpair hbreak hmark ih =>
      simp only [List.length_cons] at hbound
      have hmet : ∀ column ∈ some (indent.getD (offset - start + 1)),
          1 ≤ column ∧ column ≤ bound + 1 := by
        rintro column ⟨⟩
        exact hcolumn
      exact ih (by omega) (by omega) hmet (getD_column_bounds hmet (by omega))

theorem scan_head (start offset : Nat) (indent : Option Nat) (cs : List Char) :
    ∃ column rest, (scan start offset indent cs).lines = ⟨start, column⟩ :: rest := by
  fun_induction scan start offset indent cs with
  | case1 => exact ⟨_, _, rfl⟩
  | case2 => exact ⟨_, _, rfl⟩
  | case3 => exact ⟨_, _, rfl⟩
  | case4 start offset indent c rest hpair hbreak hblank ih => exact ih
  | case5 start offset indent c rest hpair hbreak hmark ih => exact ih

/-- The scan ends after the last character. -/
theorem length_scan (start offset : Nat) (indent : Option Nat) (cs : List Char) :
    (scan start offset indent cs).length = offset + cs.length := by
  fun_induction scan start offset indent cs with
  | case1 => rfl
  | case2 start offset indent rest ih =>
      simp only [length_after, ih, List.length_cons]
      omega
  | case3 start offset indent c rest hpair hbreak ih =>
      simp only [length_after, ih, List.length_cons]
      omega
  | case4 start offset indent c rest hpair hbreak hblank ih =>
      rw [ih, List.length_cons]
      omega
  | case5 start offset indent c rest hpair hbreak hmark ih =>
      rw [ih, List.length_cons]
      omega

theorem length_ofText (text : String) : (ofText text).length = text.length := by
  rw [ofText, length_scan, Nat.zero_add, String.length_toList]

/-- What every document keeps: its first line starts at zero, and its lines ascend to its end. -/
structure WellFormed (s : Source) : Prop where
  first : s.lineStart? 1 = some 0
  ascending : Ascending 0 s.length s.lines

theorem wellFormed_ofText (text : String) : (ofText text).WellFormed := by
  constructor
  · obtain ⟨column, rest, hlines⟩ := scan_head 0 0 none text.toList
    simp [lineStart?, line?, ofText, hlines]
  · exact scan_ascending (Nat.le_refl 0) (Nat.le_of_eq (length_scan 0 0 none text.toList).symm)
      (by simp)

variable {s : Source} {number offset start : Nat}

theorem lineStart?_eq_some_iff :
    s.lineStart? number = some start ↔
      ∃ line, s.line? number = some line ∧ line.start = start := by
  simp [lineStart?]

theorem lineStart?_succ (number : Nat) :
    s.lineStart? (number + 1) = s.lines[number]?.map Line.start := rfl

/-- An offset lies on the line with a number if that line is the last one to start no later. -/
structure OnLine (s : Source) (number start offset : Nat) : Prop where
  starts : s.lineStart? number = some start
  reached : start ≤ offset
  before : ∀ next, s.lineStart? (number + 1) = some next → offset < next

theorem OnLine.one_le (h : OnLine s number start offset) : 1 ≤ number := by
  cases number with
  | zero => cases h.starts
  | succ number => exact Nat.le_add_left 1 number

theorem WellFormed.lineStart?_lt (h : s.WellFormed) {m n a b : Nat} (hlt : m < n)
    (hm : s.lineStart? m = some a) (hn : s.lineStart? n = some b) : a < b := by
  cases m with
  | zero => cases hm
  | succ m =>
      obtain ⟨n, rfl⟩ : ∃ k, n = k + 1 := ⟨n - 1, by omega⟩
      obtain ⟨line, hline, rfl⟩ := Option.map_eq_some_iff.mp hm
      obtain ⟨later, hlater, rfl⟩ := Option.map_eq_some_iff.mp hn
      obtain ⟨hi, rfl⟩ := List.getElem?_eq_some_iff.mp hline
      obtain ⟨hj, rfl⟩ := List.getElem?_eq_some_iff.mp hlater
      exact List.pairwise_iff_getElem.mp h.ascending.increasing m n hi hj (by omega)

theorem lineStart?_of_le {m n b : Nat} (hm : 1 ≤ m) (hle : m ≤ n)
    (hn : s.lineStart? n = some b) : ∃ a, s.lineStart? m = some a := by
  obtain ⟨m, rfl⟩ : ∃ k, m = k + 1 := ⟨m - 1, by omega⟩
  obtain ⟨n, rfl⟩ : ∃ k, n = k + 1 := ⟨n - 1, by omega⟩
  obtain ⟨later, hlater, -⟩ := Option.map_eq_some_iff.mp hn
  obtain ⟨hj, -⟩ := List.getElem?_eq_some_iff.mp hlater
  have hi : m < s.lines.length := by omega
  exact ⟨s.lines[m].start, by simp [lineStart?_succ, List.getElem?_eq_getElem hi]⟩

/-- Every line before a line holds a character at least. -/
theorem WellFormed.number_le_start (h : s.WellFormed) {index start : Nat}
    (hstart : s.lineStart? (index + 1) = some start) : index ≤ start := by
  induction index generalizing start with
  | zero => exact Nat.zero_le start
  | succ index ih =>
      obtain ⟨before, hbefore⟩ := lineStart?_of_le (Nat.le_add_left 1 index) (by omega) hstart
      have hle := ih hbefore
      have hlt := h.lineStart?_lt (Nat.lt_succ_self (index + 1)) hbefore hstart
      omega

/-- Later offsets lie on later lines or on the same one. -/
theorem OnLine.number_le (h : s.WellFormed) {m n a b earlier later : Nat}
    (hm : OnLine s m a earlier) (hn : OnLine s n b later) (hle : earlier ≤ later) : m ≤ n := by
  apply Nat.le_of_not_lt
  intro hlt
  obtain ⟨next, hnext⟩ := lineStart?_of_le (n := m) (Nat.le_add_left 1 n) (by omega) hm.starts
  have hlater := hn.before next hnext
  have hearlier : next ≤ a := by
    rcases Nat.lt_or_ge (n + 1) m with hless | hsame
    · exact Nat.le_of_lt (h.lineStart?_lt hless hnext hm.starts)
    · have heq : n + 1 = m := by omega
      rw [heq, hm.starts] at hnext
      exact Nat.le_of_eq (Option.some.inj hnext).symm
  have := hm.reached
  omega

theorem OnLine.unique (h : s.WellFormed) {m n a b : Nat} (hm : OnLine s m a offset)
    (hn : OnLine s n b offset) : m = n ∧ a = b := by
  have heq : m = n :=
    Nat.le_antisymm (hm.number_le h hn (Nat.le_refl _)) (hn.number_le h hm (Nat.le_refl _))
  subst heq
  exact ⟨rfl, Option.some.inj (hm.starts.symm.trans hn.starts)⟩

theorem lines_eq_linesUpTo_append (s : Source) (offset : Nat) :
    s.lines = s.linesUpTo offset ++ s.lines.dropWhile fun line => line.start ≤ offset :=
  List.takeWhile_append_dropWhile.symm

theorem start_le_of_mem_linesUpTo {line : Line} (h : line ∈ s.linesUpTo offset) :
    line.start ≤ offset := by
  simpa using List.all_eq_true.mp List.all_takeWhile line h

theorem WellFormed.linesUpTo_ne_nil (h : s.WellFormed) (offset : Nat) :
    s.linesUpTo offset ≠ [] := by
  obtain ⟨first, hfirst, hzero⟩ := Option.map_eq_some_iff.mp h.first
  cases hlines : s.lines with
  | nil => simp [line?, hlines] at hfirst
  | cons line rest =>
      have heq : line = first := by simpa [line?, hlines] using hfirst
      subst heq
      simp [linesUpTo, hlines, hzero]

theorem getElem?_linesUpTo {index : Nat} (h : index < (s.linesUpTo offset).length) :
    s.lines[index]? = (s.linesUpTo offset)[index]? := by
  rw [lines_eq_linesUpTo_append s offset]
  exact List.getElem?_append_left h

theorem lt_start_after_linesUpTo {line : Line}
    (h : s.lines[(s.linesUpTo offset).length]? = some line) : offset < line.start := by
  have hafter := List.head?_dropWhile_not (fun line => decide (line.start ≤ offset)) s.lines
  rw [lines_eq_linesUpTo_append s offset, List.getElem?_append_right (Nat.le_refl _),
    Nat.sub_self, ← List.head?_eq_getElem?] at h
  rw [h] at hafter
  simpa using hafter

/-- The last of the lines that start no later than an offset is the line of the offset. -/
theorem WellFormed.onLine_linesUpTo (h : s.WellFormed) (offset : Nat) :
    ∃ line, (s.linesUpTo offset).getLast? = some line ∧
      OnLine s (s.linesUpTo offset).length line.start offset := by
  have hne := h.linesUpTo_ne_nil offset
  have hpos := List.length_pos_iff.mpr hne
  have hlast := List.getLast?_eq_some_getLast hne
  have hline := start_le_of_mem_linesUpTo (List.getLast_mem hne)
  refine ⟨_, hlast, ?_, hline, ?_⟩
  · obtain ⟨index, hindex⟩ : ∃ k, (s.linesUpTo offset).length = k + 1 :=
      ⟨(s.linesUpTo offset).length - 1, by omega⟩
    rw [List.getLast?_eq_getElem?, hindex, Nat.add_sub_cancel] at hlast
    have hlt : index < (s.linesUpTo offset).length := by omega
    rw [hindex, lineStart?_succ, getElem?_linesUpTo hlt, hlast]
    rfl
  · intro next hnext
    obtain ⟨line, hline, rfl⟩ := Option.map_eq_some_iff.mp hnext
    exact lt_start_after_linesUpTo hline

end Source

end TreeShape
