import TreeShape.Proofs.Source.Breaks
import TreeShape.Proofs.Source.Points
/- The place of a character is found by walking over what stands before it. The walk counts the lines
that end, and not the characters that end them, so documents that differ in the style of their line
breaks alone have the same lines, columns and indents. -/
namespace TreeShape

/-- Characters begin with a line break of some length, and the rest follows it. -/
inductive LeadingBreak : List Char → Nat → List Char → Prop
  | pair (rest : List Char) : LeadingBreak ('\r' :: '\n' :: rest) 2 rest
  | single {c : Char} {rest : List Char} (hbreak : c = '\n' ∨ c = '\r')
      (hpair : ∀ later, c = '\r' → rest = '\n' :: later → False) : LeadingBreak (c :: rest) 1 rest

/-- The ways in which a line can be ended. -/
inductive BreakStyle where
  | feed
  | carriage
  | both

namespace BreakStyle

def chars : BreakStyle → List Char
  | feed => ['\n']
  | carriage => ['\r']
  | both => ['\r', '\n']

/-- Characters with every break in one style. A return and the feed after it are one break. -/
def rewrite (style : BreakStyle) : List Char → List Char
  | [] => []
  | '\r' :: '\n' :: rest => style.chars ++ rewrite style rest
  | c :: rest =>
    if c = '\n' ∨ c = '\r' then style.chars ++ rewrite style rest else c :: rewrite style rest

end BreakStyle

/-- The point at which every document starts. -/
def Point.first : Point := ⟨1, 1, 0⟩

/-- The point that is reached from a point by reading some characters. -/
def Point.advance (p : Point) : List Char → Point
  | [] => p
  | '\r' :: '\n' :: rest => advance ⟨p.line + 1, 1, p.offset + 2⟩ rest
  | c :: rest =>
    if c = '\n' ∨ c = '\r' then advance ⟨p.line + 1, 1, p.offset + 1⟩ rest
    else advance ⟨p.line, p.column + 1, p.offset + 1⟩ rest

section Characters

variable {c : Char} {cs rest after : List Char} {n : Nat}

/-- A text is read break by break, and character by character within a line. -/
theorem text_induction {motive : List Char → Prop} (nil : motive [])
    (line : ∀ {cs n rest}, LeadingBreak cs n rest → motive rest → motive cs)
    (within : ∀ {c rest}, ¬ (c = '\n' ∨ c = '\r') → motive rest → motive (c :: rest))
    (cs : List Char) : motive cs := by
  fun_induction BreakStyle.rewrite .feed cs with
  | case1 => exact nil
  | case2 rest ih => exact line (.pair rest) ih
  | case3 c rest hpair hbreak ih => exact line (.single hbreak hpair) ih
  | case4 c rest hpair hwithin ih => exact within hwithin ih

theorem LeadingBreak.length_eq (h : LeadingBreak cs n rest) : cs.length = n + rest.length := by
  cases h with
  | pair rest => simp only [List.length_cons]; omega
  | single hbreak hpair => simp only [List.length_cons]; omega

/-- What follows a break can be continued, as long as no return comes to stand before a feed. -/
theorem LeadingBreak.append (h : LeadingBreak cs n rest) (hwithin : ¬ (c = '\n' ∨ c = '\r')) :
    LeadingBreak (cs ++ c :: after) n (rest ++ c :: after) := by
  cases h with
  | pair rest => exact .pair _
  | single hbreak hpair =>
      refine .single hbreak ?_
      intro later hreturn hfeed
      cases rest with
      | nil =>
          cases hfeed
          exact hwithin (.inl rfl)
      | cons d rest =>
          cases hfeed
          exact hpair rest hreturn rfl

theorem Point.advance_break (h : LeadingBreak cs n rest) (p : Point) :
    p.advance cs = advance ⟨p.line + 1, 1, p.offset + n⟩ rest := by
  cases h with
  | pair rest => rw [advance]
  | single hbreak hpair =>
      rw [advance, if_pos hbreak]
      exact hpair

theorem Point.advance_within (hwithin : ¬ (c = '\n' ∨ c = '\r')) (p : Point) :
    p.advance (c :: rest) = advance ⟨p.line, p.column + 1, p.offset + 1⟩ rest := by
  rw [advance, if_neg hwithin]
  rintro later rfl -
  exact hwithin (.inr rfl)

theorem Point.offset_advance (p : Point) (cs : List Char) :
    (p.advance cs).offset = p.offset + cs.length := by
  induction cs using text_induction generalizing p with
  | nil => rfl
  | line h ih =>
      rw [advance_break h, ih, h.length_eq]
      exact Nat.add_assoc _ _ _
  | within hwithin ih =>
      rw [advance_within hwithin, ih]
      exact Nat.succ_add_eq_add_succ _ _

end Characters

namespace BreakStyle

variable {style : BreakStyle} {c : Char} {before after cs rest : List Char} {n : Nat}

theorem rewrite_break (h : LeadingBreak cs n rest) :
    style.rewrite cs = style.chars ++ style.rewrite rest := by
  cases h with
  | pair rest => rw [rewrite]
  | single hbreak hpair =>
      rw [rewrite, if_pos hbreak]
      exact hpair

theorem rewrite_within (hwithin : ¬ (c = '\n' ∨ c = '\r')) :
    style.rewrite (c :: rest) = c :: style.rewrite rest := by
  rw [rewrite, if_neg hwithin]
  rintro later rfl -
  exact hwithin (.inr rfl)

/-- Returns that are written for breaks do not come to stand before feeds. -/
theorem feed_notMem_rewrite_carriage (cs : List Char) : '\n' ∉ carriage.rewrite cs := by
  induction cs using text_induction with
  | nil => exact List.not_mem_nil
  | line h ih =>
      rw [rewrite_break h]
      simpa [chars] using ih
  | @within c rest hwithin ih =>
      rw [rewrite_within hwithin, List.mem_cons, not_or]
      exact ⟨fun hfeed => hwithin (.inl hfeed.symm), ih⟩

/-- What is written for a break is one break again. -/
theorem leadingBreak_rewrite (style : BreakStyle) (rest : List Char) :
    LeadingBreak (style.chars ++ style.rewrite rest) style.chars.length (style.rewrite rest) := by
  cases style with
  | feed => exact .single (.inl rfl) (fun _ hreturn _ => absurd hreturn (by decide))
  | carriage =>
      refine .single (.inr rfl) ?_
      intro later _ hfeed
      have hmem : '\n' ∈ carriage.rewrite rest := by
        change carriage.rewrite rest = '\n' :: later at hfeed
        rw [hfeed]
        exact List.mem_cons_self
      exact feed_notMem_rewrite_carriage rest hmem
  | both => exact .pair _

/-- A character within a line divides a text into parts that are rewritten each by itself. -/
theorem rewrite_append (hwithin : ¬ (c = '\n' ∨ c = '\r')) :
    style.rewrite (before ++ c :: after) = style.rewrite before ++ c :: style.rewrite after := by
  induction before using text_induction with
  | nil => exact rewrite_within hwithin
  | line h ih => rw [rewrite_break (h.append hwithin), rewrite_break h, ih, List.append_assoc]
  | within hd ih =>
      rw [List.cons_append, rewrite_within hd, rewrite_within hd, ih, List.cons_append]

/-- Reading a text in another style comes to the same line and column. -/
theorem advance_rewrite (style : BreakStyle) {p q : Point} (hline : q.line = p.line)
    (hcolumn : q.column = p.column) (cs : List Char) :
    (q.advance (style.rewrite cs)).line = (p.advance cs).line ∧
      (q.advance (style.rewrite cs)).column = (p.advance cs).column := by
  induction cs using text_induction generalizing p q with
  | nil => exact ⟨hline, hcolumn⟩
  | line h ih =>
      rw [rewrite_break h, Point.advance_break (leadingBreak_rewrite style _),
        Point.advance_break h]
      exact ih (congrArg (· + 1) hline) rfl
  | within hwithin ih =>
      rw [rewrite_within hwithin, Point.advance_within hwithin, Point.advance_within hwithin]
      exact ih hline (congrArg (· + 1) hcolumn)

end BreakStyle

namespace Source

variable {s : Source} {c : Char} {before after cs rest : List Char} {n start offset : Nat}
  {indent : Option Nat}

/-- The column of the first mark on a line, after a character at some column has been read. -/
def indentAfter (column : Nat) (c : Char) (indent : Option Nat) : Option Nat :=
  if c = ' ' ∨ c = '\t' then indent else some (indent.getD column)

theorem scan_break (h : LeadingBreak cs n rest) :
    scan start offset indent cs =
      (scan (offset + n) (offset + n) none rest).after
        ⟨start, indent.getD (offset - start + 1)⟩ := by
  cases h with
  | pair rest => rw [scan]
  | single hbreak hpair =>
      rw [scan, if_pos hbreak]
      exact hpair

theorem scan_within (hwithin : ¬ (c = '\n' ∨ c = '\r')) :
    scan start offset indent (c :: rest) =
      scan start (offset + 1) (indentAfter (offset - start + 1) c indent) rest := by
  rw [scan, if_neg hwithin, indentAfter]
  · split
    · rfl
    · rfl
  · rintro later rfl -
    exact hwithin (.inr rfl)

/-- A document in another style has its first marks at the same columns. -/
theorem indents_rewrite (style : BreakStyle) {start' offset' : Nat} (hstart : start ≤ offset)
    (hstart' : start' ≤ offset') (hcolumn : offset' - start' = offset - start) (cs : List Char) :
    (scan start' offset' indent (style.rewrite cs)).lines.map Line.indent =
      (scan start offset indent cs).lines.map Line.indent := by
  -- The two readings are equally far into their lines, wherever these start.
  induction cs using text_induction generalizing start offset start' offset' indent with
  | nil => simp [BreakStyle.rewrite, scan, hcolumn]
  | line h ih =>
      rw [BreakStyle.rewrite_break h, scan_break (BreakStyle.leadingBreak_rewrite style _),
        scan_break h, lines_after, lines_after, List.map_cons, List.map_cons, hcolumn,
        ih (Nat.le_refl _) (Nat.le_refl _) (by simp)]
  | within hwithin ih =>
      rw [BreakStyle.rewrite_within hwithin, scan_within hwithin, scan_within hwithin,
        hcolumn]
      exact ih (by omega) (by omega) (by omega)

/-- The first line that is read starts at the start, and all others after the offset. -/
theorem onLine_start {earlier : List Line} {cs : List Char} (hstart : start ≤ offset)
    (hlines : s.lines = earlier ++ (scan start offset indent cs).lines) :
    OnLine s (earlier.length + 1) start offset := by
  rw [lines_scan indent cs hstart] at hlines
  refine ⟨?_, hstart, ?_⟩
  · rw [lineStart?_succ, hlines, List.getElem?_append_right (Nat.le_refl _), Nat.sub_self]
    rfl
  · intro next hnext
    rw [lineStart?_succ, hlines, List.getElem?_append_right (by omega)] at hnext
    obtain ⟨line, hline, rfl⟩ := Option.map_eq_some_iff.mp hnext
    rw [Nat.add_sub_cancel_left, List.getElem?_cons_succ] at hline
    obtain ⟨k, hk, rfl⟩ := List.mem_map.mp (List.mem_of_getElem? hline)
    have := (mem_laterStarts_iff.mp hk).1
    change offset < offset + k
    omega

/-- After the lines that were found, reading comes to the place of the next character. -/
theorem onLine_advance {earlier : List Line} {p : Point} (hwithin : ¬ (c = '\n' ∨ c = '\r'))
    (hlines : s.lines = earlier ++ (scan start p.offset indent (before ++ c :: after)).lines)
    (hnumber : p.line = earlier.length + 1) (hstart : start ≤ p.offset)
    (hcolumn : p.column = p.offset - start + 1) :
    ∃ start', OnLine s (p.advance before).line start' (p.advance before).offset ∧
      (p.advance before).column = (p.advance before).offset - start' + 1 := by
  -- The lines that were found and those still to be read are the document's all along: a break moves
  -- one from the latter to the former, and the point takes its line's number from how many were found.
  induction before using text_induction generalizing earlier p start indent with
  | nil =>
      refine ⟨start, ?_, hcolumn⟩
      rw [Point.advance, hnumber]
      exact onLine_start hstart hlines
  | line h ih =>
      rw [scan_break (h.append hwithin), lines_after, ← List.singleton_append,
        ← List.append_assoc] at hlines
      rw [Point.advance_break h]
      exact ih hlines (by simp [hnumber]) (Nat.le_refl _) (by simp)
  | within hd ih =>
      rw [List.cons_append, scan_within hd] at hlines
      rw [Point.advance_within hd]
      have hnext : p.column + 1 = p.offset + 1 - start + 1 := by omega
      exact ih hlines hnumber (Nat.le_succ_of_le hstart) hnext

/-- The point of a character within a line is reached by reading what stands before it. -/
theorem pointAt_advance {text : String} (hwithin : ¬ (c = '\n' ∨ c = '\r'))
    (htext : text.toList = before ++ c :: after) :
    (ofText text).pointAt before.length =
      .ok ⟨(Point.first.advance before).line, (Point.first.advance before).column,
        before.length⟩ := by
  have hoffset : (Point.first.advance before).offset = before.length := by
    rw [Point.offset_advance]
    exact Nat.zero_add _
  have hlines : (ofText text).lines = [] ++ (scan 0 0 none (before ++ c :: after)).lines := by
    rw [← htext]
    rfl
  have hlength : before.length ≤ (ofText text).length := by
    rw [length_ofText, ← String.length_toList, htext, List.length_append]
    exact Nat.le_add_right _ _
  obtain ⟨start, hline, hcolumn⟩ :=
    onLine_advance (p := Point.first) hwithin hlines rfl (Nat.le_refl 0) rfl
  rw [hoffset] at hline hcolumn
  exact (wellFormed_ofText text).pointAt_eq_ok_iff.mpr ⟨hlength, rfl, start, hline, hcolumn⟩

theorem lineIndent?_eq (number : Nat) :
    s.lineIndent? (number + 1) = (s.lines.map Line.indent)[number]? := List.getElem?_map.symm

theorem indents_ofText_rewrite (style : BreakStyle) (text : String) :
    (ofText (String.ofList (style.rewrite text.toList))).lines.map Line.indent =
      (ofText text).lines.map Line.indent := by
  rw [ofText, ofText, String.toList_ofList]
  exact indents_rewrite style (Nat.le_refl 0) (Nat.le_refl 0) rfl text.toList

/-- A document with its line breaks in another style has the same lines with the same indents, and
each of its characters within a line has the same line and column. -/
theorem rewritten_keeps_places (style : BreakStyle) (text : String) :
    let cs := text.toList
    let s := ofText text
    let s' := ofText (String.ofList (style.rewrite cs))
    s'.lineCount = s.lineCount ∧ (∀ number, s'.lineIndent? number = s.lineIndent? number) ∧
      ∀ before c after, cs = before ++ c :: after → ¬ (c = '\n' ∨ c = '\r') →
        style.rewrite cs = style.rewrite before ++ c :: style.rewrite after ∧
          ∃ line column, s.pointAt before.length = .ok ⟨line, column, before.length⟩ ∧
            s'.pointAt (style.rewrite before).length =
              .ok ⟨line, column, (style.rewrite before).length⟩ := by
  intro cs s s'
  have hindents : s'.lines.map Line.indent = s.lines.map Line.indent :=
    indents_ofText_rewrite style text
  refine ⟨?_, ?_, ?_⟩
  · rw [lineCount, lineCount, ← List.length_map Line.indent, hindents, List.length_map]
  · intro number
    cases number with
    | zero => rfl
    | succ number => rw [lineIndent?_eq, lineIndent?_eq, hindents]
  · intro before c after htext hwithin
    have hrewrite : style.rewrite cs = style.rewrite before ++ c :: style.rewrite after := by
      rw [htext, BreakStyle.rewrite_append hwithin]
    have hpoint := pointAt_advance hwithin htext
    have hpoint' := pointAt_advance hwithin (String.toList_ofList.trans hrewrite)
    obtain ⟨hline, hcolumn⟩ :=
      BreakStyle.advance_rewrite style (Eq.refl Point.first.line) (Eq.refl Point.first.column) before
    rw [hline, hcolumn] at hpoint'
    exact ⟨hrewrite, _, _, hpoint, hpoint'⟩

/-- A feed, a return, a return with a feed, and a feed after a blank, all written as returns. -/
theorem rewritten_keeps_places_mixed :
    let s := ofText "a\n\r\r\n \n\tb"
    let s' := ofText "a\r\r\r \r\tb"
    s'.lineCount = s.lineCount ∧ s'.lineIndent? 4 = s.lineIndent? 4 ∧
      s.pointAt 8 = .ok ⟨5, 2, 8⟩ ∧ s'.pointAt 7 = .ok ⟨5, 2, 7⟩ := by
  intro s s'
  have hpoint : s.pointAt 8 = .ok ⟨5, 2, 8⟩ := by decide
  have hrewrite : String.ofList (BreakStyle.carriage.rewrite "a\n\r\r\n \n\tb".toList) =
      "a\r\r\r \r\tb" := by decide
  obtain ⟨hcount, hindent, hplaces⟩ := rewritten_keeps_places .carriage "a\n\r\r\n \n\tb"
  rw [hrewrite] at hcount hindent hplaces
  obtain ⟨-, line, column, hline, hline'⟩ :=
    hplaces ['a', '\n', '\r', '\r', '\n', ' ', '\n', '\t'] 'b' [] (by decide) (by decide)
  cases hpoint.symm.trans hline
  exact ⟨hcount, hindent 4, hpoint, hline'⟩

end Source

end TreeShape
