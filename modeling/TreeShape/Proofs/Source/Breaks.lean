import TreeShape.Proofs.Source.Lines
/- Where the lines of a document start, told by its characters, and how far their first marks are
indented. -/
namespace TreeShape

namespace Source

/-- A line starts at the first character, after a line feed, and after a carriage return that no
line feed follows. -/
def StartsLine (cs : List Char) : Nat → Prop
  | 0 => True
  | k + 1 => cs[k]? = some '\n' ∨ cs[k]? = some '\r' ∧ cs[k + 1]? ≠ some '\n'

instance (cs : List Char) : DecidablePred (StartsLine cs)
  | 0 => inferInstanceAs (Decidable True)
  | _ + 1 => inferInstanceAs (Decidable (_ ∨ _))

/-- The number of spaces and tabs that characters begin with. -/
def leadingBlanks (cs : List Char) : Nat := (cs.takeWhile fun c => c = ' ' ∨ c = '\t').length

/-- Where the lines after the first one start. -/
def laterStarts (cs : List Char) : List Nat :=
  (List.range' 1 cs.length).filter fun k => StartsLine cs k

/-- The lines after the first one, if the characters stand from `offset` on. -/
def laterLines (offset : Nat) (cs : List Char) : List Line :=
  (laterStarts cs).map fun k => ⟨offset + k, 1 + leadingBlanks (cs.drop k)⟩

variable {c : Char} {cs rest : List Char} {k : Nat}

theorem StartsLine.le_length (h : StartsLine cs k) : k ≤ cs.length := by
  cases k with
  | zero => exact Nat.zero_le _
  | succ k =>
      rcases h with h | ⟨h, -⟩
      · exact (List.getElem?_eq_some_iff.mp h).1
      · exact (List.getElem?_eq_some_iff.mp h).1

theorem mem_laterStarts_iff : k ∈ laterStarts cs ↔ 1 ≤ k ∧ StartsLine cs k := by
  simp only [laterStarts, List.mem_filter, List.mem_range'_1, decide_eq_true_eq]
  constructor
  · intro h
    exact ⟨h.1.1, h.2⟩
  · intro h
    have := h.2.le_length
    exact ⟨⟨h.1, by omega⟩, h.2⟩

/-- Whether a line starts after a character does not depend on what stands before it. -/
theorem laterStarts_cons (c : Char) (cs : List Char) :
    laterStarts (c :: cs) =
      (if StartsLine (c :: cs) 1 then [1] else []) ++ (laterStarts cs).map (· + 1) := by
  have hlater : (List.range' 2 cs.length).filter (fun k => StartsLine (c :: cs) k) =
      (laterStarts cs).map (· + 1) := by
    rw [List.range'_succ_left, List.filter_map, laterStarts]
    apply congrArg
    apply List.filter_congr
    intro k hk
    obtain ⟨k, rfl⟩ : ∃ m, k = m + 1 := ⟨k - 1, by have := List.mem_range'_1.mp hk; omega⟩
    rfl
  rw [laterStarts, List.length_cons, List.range'_succ, List.filter_cons, hlater]
  by_cases h : StartsLine (c :: cs) 1
  · simp [h]
  · simp [h]

theorem laterLines_cons (offset : Nat) (c : Char) (cs : List Char) :
    laterLines offset (c :: cs) =
      (if StartsLine (c :: cs) 1 then [⟨offset + 1, 1 + leadingBlanks cs⟩] else []) ++
        laterLines (offset + 1) cs := by
  have hlater : ((laterStarts cs).map (· + 1)).map
      (fun k => (⟨offset + k, 1 + leadingBlanks ((c :: cs).drop k)⟩ : Line)) =
        laterLines (offset + 1) cs := by
    rw [List.map_map, laterLines]
    apply List.map_congr_left
    intro k hk
    simp only [Function.comp_apply, List.drop_succ_cons, Line.mk.injEq, and_true]
    omega
  rw [laterLines, laterStarts_cons, List.map_append, hlater]
  split
  · rfl
  · rfl

theorem leadingBlanks_blank (h : c = ' ' ∨ c = '\t') (cs : List Char) :
    leadingBlanks (c :: cs) = leadingBlanks cs + 1 := by
  simp [leadingBlanks, h]

theorem leadingBlanks_mark (h : ¬ (c = ' ' ∨ c = '\t')) (cs : List Char) :
    leadingBlanks (c :: cs) = 0 := by
  simp [leadingBlanks, h]

theorem startsLine_of_break (hbreak : c = '\n' ∨ c = '\r')
    (hpair : ∀ later, c = '\r' → rest = '\n' :: later → False) : StartsLine (c :: rest) 1 := by
  rcases hbreak with rfl | rfl
  · exact .inl rfl
  · refine .inr ⟨rfl, ?_⟩
    intro hfeed
    cases rest with
    | nil => cases hfeed
    | cons d later =>
        cases Option.some.inj hfeed
        exact hpair later rfl rfl

theorem not_startsLine_of_not_break (h : ¬ (c = '\n' ∨ c = '\r')) :
    ¬ StartsLine (c :: cs) 1 := by
  intro hline
  rcases hline with hfeed | ⟨hreturn, -⟩
  · exact h (.inl (Option.some.inj hfeed))
  · exact h (.inr (Option.some.inj hreturn))

/-- The scan finds the lines: the first one with the column that was met, or else after the blanks
that are still to come, and each later one where a break ends. -/
theorem lines_scan {start offset : Nat} (indent : Option Nat) (cs : List Char)
    (hstart : start ≤ offset) :
    (scan start offset indent cs).lines =
      ⟨start, indent.getD (offset - start + 1 + leadingBlanks cs)⟩ :: laterLines offset cs := by
  fun_induction scan start offset indent cs with
  | case1 start offset indent => rfl
  | case2 start offset indent rest ih =>
      have hreturn : ¬ StartsLine ('\r' :: '\n' :: rest) 1 := by simp [StartsLine]
      have hfeed : StartsLine ('\n' :: rest) 1 := by simp [StartsLine]
      rw [lines_after, ih (Nat.le_refl _), laterLines_cons, laterLines_cons, if_neg hreturn,
        if_pos hfeed, leadingBlanks_mark (by decide)]
      simp
  | case3 start offset indent c rest hpair hbreak ih =>
      have hbegins : StartsLine (c :: rest) 1 := startsLine_of_break hbreak hpair
      have hmark : ¬ (c = ' ' ∨ c = '\t') := by
        rcases hbreak with rfl | rfl
        · decide
        · decide
      rw [lines_after, ih (Nat.le_refl _), laterLines_cons, if_pos hbegins,
        leadingBlanks_mark hmark]
      simp
  | case4 start offset indent c rest hpair hbreak hblank ih =>
      have hcolumn : offset + 1 - start + 1 + leadingBlanks rest =
          offset - start + 1 + (leadingBlanks rest + 1) := by omega
      rw [ih (by omega), laterLines_cons, if_neg (not_startsLine_of_not_break hbreak),
        leadingBlanks_blank hblank, hcolumn]
      rfl
  | case5 start offset indent c rest hpair hbreak hmark ih =>
      rw [ih (by omega), laterLines_cons, if_neg (not_startsLine_of_not_break hbreak),
        leadingBlanks_mark hmark]
      rfl

/-- The lines of a document: one for each place where a line starts, with the column after the
blanks that follow. -/
theorem lines_ofText (text : String) :
    (ofText text).lines =
      (0 :: laterStarts text.toList).map fun k => ⟨k, 1 + leadingBlanks (text.toList.drop k)⟩ := by
  have hlines := lines_scan none text.toList (Nat.le_refl 0)
  simpa [ofText, laterLines] using hlines

theorem starts_ofText (text : String) :
    (ofText text).lines.map Line.start = 0 :: laterStarts text.toList := by
  rw [lines_ofText, List.map_map]
  exact List.map_id _

theorem mem_starts_ofText_iff (text : String) (k : Nat) :
    k ∈ (ofText text).lines.map Line.start ↔ StartsLine text.toList k := by
  rw [starts_ofText, List.mem_cons, mem_laterStarts_iff]
  cases k with
  | zero => simp [StartsLine]
  | succ k => simp

theorem indent_of_mem_ofText {text : String} {line : Line} (h : line ∈ (ofText text).lines) :
    line.indent = 1 + leadingBlanks (text.toList.drop line.start) := by
  rw [lines_ofText] at h
  obtain ⟨k, -, rfl⟩ := List.mem_map.mp h
  rfl

theorem mem_lines_of_line? {s : Source} {number : Nat} {line : Line}
    (h : s.line? number = some line) : line ∈ s.lines := by
  cases number with
  | zero => cases h
  | succ index => exact List.mem_of_getElem? h

theorem line?_eq_none_iff {s : Source} {number : Nat} :
    s.line? number = none ↔ ¬ (1 ≤ number ∧ number ≤ s.lineCount) := by
  cases number with
  | zero => simp [line?]
  | succ index =>
      rw [line?, List.getElem?_eq_none_iff, lineCount]
      omega

/-- The lines of a document are read off its characters. They start, in order, at zero and after
each break, where a return and a feed are one break; a line has one column, which is that of the
first character after its leading blanks. -/
theorem ofText_lines_exact (text : String) :
    let s := ofText text
    let cs := text.toList
    let starts := s.lines.map Line.start
    s.length = cs.length ∧ starts.Pairwise (· < ·) ∧ (∀ k, k ∈ starts ↔ StartsLine cs k) ∧
      (∀ index, s.lineStart? (index + 1) = starts[index]?) ∧
      (∀ number, (s.lineStart? number).isSome ↔ 1 ≤ number ∧ number ≤ s.lineCount) ∧
      ∀ number, s.lineIndent? number =
        (s.lineStart? number).map fun start => 1 + leadingBlanks (cs.drop start) := by
  intro s cs starts
  have hlength : s.length = cs.length := (length_ofText text).trans String.length_toList.symm
  refine ⟨hlength, ?_, mem_starts_ofText_iff text, ?_, ?_, ?_⟩
  · exact List.pairwise_map.mpr (wellFormed_ofText text).ascending.increasing
  · intro index
    rw [lineStart?_succ, List.getElem?_map]
  · intro number
    rw [lineStart?, Option.isSome_map, ← Option.ne_none_iff_isSome, Ne, line?_eq_none_iff,
      Decidable.not_not]
  · intro number
    rw [lineIndent?, lineStart?, Option.map_map]
    apply Option.map_congr
    intro line hline
    exact indent_of_mem_ofText (mem_lines_of_line? hline)

/-- A return and a feed end one line, a return by itself ends a line that has no mark, and the feed
at the end starts a last line. -/
example : (ofText "a\r\n \r\tb\n").lines = [⟨0, 1⟩, ⟨3, 2⟩, ⟨5, 2⟩, ⟨8, 1⟩] := by decide

end Source

end TreeShape
