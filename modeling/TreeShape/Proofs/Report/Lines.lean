import TreeShape.Proofs.Checker.Wording
/- Reading the text of a report back: its lines are the findings in order and a summary, and each
line tells its finding. -/
namespace TreeShape

/-- What stands before and after the first occurrence of a separator. -/
def cutAt? (separator : List Char) : List Char → Option (List Char × List Char)
  | [] => none
  | c :: rest =>
    if separator <+: c :: rest then some ([], (c :: rest).drop separator.length)
    else (cutAt? separator rest).map fun parts => (c :: parts.1, parts.2)

theorem cutAt?_append {s : Char} {more before after : List Char} (h : s ∉ before) :
    cutAt? (s :: more) (before ++ (s :: more) ++ after) = some (before, after) := by
  induction before with
  | nil => simp [cutAt?]
  | cons c rest ih =>
      rw [List.mem_cons, not_or] at h
      have hlater : ¬ s :: more <+: c :: (rest ++ (s :: more) ++ after) := by
        simp [List.cons_prefix_cons, h.1]
      rw [List.cons_append, List.cons_append, cutAt?, if_neg hlater, ih h.2]
      rfl

def Severity.ofName? (name : String) : Option Severity :=
  [error, warning, hint].find? fun severity => severity.name == name

theorem Severity.ofName?_name (severity : Severity) : ofName? severity.name = some severity := by
  cases severity <;> decide

namespace Diagnostic

/-- A finding by its line: the severity up to the first `[`, the rule from there to the first
`] `, the path from there to the first `: `, and the message after it. -/
def ofText? (line : String) : Option (Severity × Diagnostic) := do
  let (severity, line) ← cutAt? ['['] line.toList
  let (rule, line) ← cutAt? [']', ' '] line
  let (path, message) ← cutAt? [':', ' '] line
  let severity ← Severity.ofName? (.ofList severity)
  let rule ← Rule.ofCode? (.ofList rule)
  return (severity, ⟨rule, .ofList path, .ofList message⟩)

theorem ofText?_text {d : Diagnostic} (h : ':' ∉ d.path.toList) :
    ofText? d.text = some (d.severity, d) := by
  have hseverity : '[' ∉ d.severity.name.toList := by cases d.severity <;> decide
  have hrule : ']' ∉ d.rule.code.toList := by cases d.rule <;> decide
  have hchars : d.text.toList = d.severity.name.toList ++ ['['] ++ (d.rule.code.toList ++ [']', ' '] ++
      (d.path.toList ++ [':', ' '] ++ d.message.toList)) := by
    simp [text]
  simp only [ofText?, hchars, cutAt?_append hseverity, cutAt?_append hrule, cutAt?_append h,
    Option.bind_eq_bind, Option.bind_some, String.ofList_toList, Severity.ofName?_name,
    Rule.ofCode?_code]
  rfl

example : ofText? "hint[hybrid-node] $.children[2]: node has both: `a`, [b] c" =
    some (.hint, ⟨.hybridNode, "$.children[2]", "node has both: `a`, [b] c"⟩) := by decide +kernel

theorem oneLine_text {d : Diagnostic} (hpath : OneLine d.path) (hmessage : OneLine d.message) :
    OneLine d.text := by
  have hseverity : OneLine d.severity.name := by cases d.severity <;> decide
  have hrule : OneLine d.rule.code := by cases d.rule <;> decide
  simp only [text, OneLine.append_iff, hpath, hmessage, hseverity, hrule]
  decide

end Diagnostic

/-- The numbers in a summary. -/
structure Tally where
  nodes : Nat
  errors : Nat
  warnings : Nat
  hints : Nat
  deriving DecidableEq

namespace Tally

def number? (word : String) : Option Nat :=
  if word.toList.all Char.isDigit then some (Nat.ofDigitChars 10 word.toList 0) else none

theorem number?_toString (n : Nat) : number? (toString n) = some n := by
  have hdigits : (Nat.toDigits 10 n).all Char.isDigit = true :=
    List.all_eq_true.mpr (isDigit_toDigits n)
  rw [Nat.toString_eq_repr, number?, Nat.toList_repr, if_pos hdigits, Nat.ofDigitChars_ten_toDigits]

/-- The numbers of a summary, from its nine words. -/
def ofText? (summary : String) : Option Tally :=
  match (summary.toList.splitOn ' ').map String.ofList with
  | ["checked", nodes, "nodes:", errors, "errors,", warnings, "warnings,", hints, "hints"] => do
    return ⟨← number? nodes, ← number? errors, ← number? warnings, ← number? hints⟩
  | _ => none

end Tally

namespace Report

def tally (r : Report) : Tally :=
  ⟨r.nodesChecked, r.errors.length, r.warnings.length, r.hints.length⟩

theorem blank_notMem_toDigits (n : Nat) : ' ' ∉ Nat.toDigits 10 n := by
  intro h
  cases isDigit_toDigits n ' ' h

/-- The words of a summary, between single blanks. -/
def words (r : Report) : List String :=
  ["checked", toString r.nodesChecked, "nodes:", toString r.errors.length, "errors,",
    toString r.warnings.length, "warnings,", toString r.hints.length, "hints"]

theorem splitOn_summary (r : Report) :
    r.summary.toList.splitOn ' ' = r.words.map String.toList := by
  have hchars : r.summary.toList = [' '].intercalate (r.words.map String.toList) := by
    unfold summary words
    simp
  have hblank : ∀ cs ∈ r.words.map String.toList, ' ' ∉ cs := by
    simp [words, blank_notMem_toDigits]
  rw [hchars, List.splitOn_intercalate ' ' hblank (by simp [words])]

theorem ofText?_summary (r : Report) : Tally.ofText? r.summary = some r.tally := by
  have hwords : (r.summary.toList.splitOn ' ').map String.ofList = r.words := by
    rw [splitOn_summary, List.map_map]
    simp [Function.comp_def]
  rw [Tally.ofText?, hwords]
  simp only [words, Tally.number?_toString]
  rfl

theorem oneLine_summary (r : Report) : OneLine r.summary := by
  unfold summary
  simp only [OneLine.append_iff, OneLine.nat]
  decide

/-- Each finding counts once. -/
theorem length_diagnostics (r : Report) :
    r.errors.length + r.warnings.length + r.hints.length = r.diagnostics.length := by
  unfold errors warnings hints withSeverity
  induction r.diagnostics with
  | nil => rfl
  | cons d rest ih =>
      simp only [List.filter_cons]
      cases hseverity : d.severity <;> simp <;> omega

/-- The findings in order, and a summary. -/
def lines (r : Report) : List String := r.diagnostics.map Diagnostic.text ++ [r.summary]

/-- The text is its lines, with a line feed between any two. -/
theorem text_eq_lines (r : Report) : r.text = "\n".intercalate r.lines := by
  unfold text lines
  induction r.diagnostics with
  | nil => simp
  | cons d rest ih =>
      rw [List.map_cons, String.join_cons, String.append_assoc, ih, List.map_cons, List.cons_append,
        String.intercalate_cons_of_ne_nil (by simp)]

/-- All findings have paths without a colon, and neither path nor message breaks the line. -/
def Legible (r : Report) : Prop :=
  ∀ d ∈ r.diagnostics, ':' ∉ d.path.toList ∧ OneLine d.path ∧ OneLine d.message

variable {r : Report}

theorem Legible.oneLine (h : r.Legible) : ∀ line ∈ r.lines, OneLine line := by
  rw [lines, List.forall_mem_append, List.forall_mem_map, List.forall_mem_singleton]
  exact ⟨fun d hd => Diagnostic.oneLine_text (h d hd).2.1 (h d hd).2.2, oneLine_summary r⟩

theorem Legible.splitOn_text (h : r.Legible) :
    (r.text.toList.splitOn '\n').map String.ofList = r.lines := by
  have hfeed : ∀ cs ∈ r.lines.map String.toList, '\n' ∉ cs :=
    List.forall_mem_map.mpr fun line hline hmem =>
      (inLine_iff.mp (h.oneLine line hline '\n' hmem)).1 rfl
  have hchars : r.text.toList = ['\n'].intercalate (r.lines.map String.toList) := by
    rw [text_eq_lines, String.toList_intercalate]
    rfl
  rw [hchars, List.splitOn_intercalate '\n' hfeed (by simp [lines]), List.map_map]
  simp [Function.comp_def]

theorem Legible.return_notMem_text (h : r.Legible) : '\r' ∉ r.text.toList := by
  have hreturn : ∀ c ∈ r.text.toList, c ≠ '\r' := by
    rw [text_eq_lines]
    exact forall_mem_intercalate (by simp) fun line hline c hc =>
      (inLine_iff.mp (h.oneLine line hline c hc)).2
  exact fun hmem => hreturn '\r' hmem rfl

theorem Legible.ofText?_text (h : r.Legible) :
    ∀ d ∈ r.diagnostics, Diagnostic.ofText? d.text = some (d.severity, d) :=
  fun d hd => Diagnostic.ofText?_text (h d hd).1

end Report

theorem Checker.legible_check (c : Checker) (tree : Json) : (c.check tree).Legible := by
  rw [Report.Legible, check, List.forall_mem_map]
  intro f hf
  have hformat := checkNode_ofFormat c tree f hf
  exact ⟨Path.colon_notMem_text hformat.path, Path.oneLine_text hformat.path,
    Fault.oneLine_message hformat.name⟩

/-- The text of a report has no carriage returns, and its lines are those of the findings, in order,
and a summary. Each line tells the severity, rule, path and message of its finding, and the
summary counts each finding once. No text in a tree changes this. -/
theorem Checker.text_check_read (c : Checker) (tree : Json) :
    '\r' ∉ (c.check tree).text.toList ∧
      ((c.check tree).text.toList.splitOn '\n').map String.ofList =
        (c.check tree).diagnostics.map Diagnostic.text ++ [(c.check tree).summary] ∧
      (∀ d ∈ (c.check tree).diagnostics, Diagnostic.ofText? d.text = some (d.severity, d)) ∧
      ∃ tally, Tally.ofText? (c.check tree).summary = some tally ∧
        tally.errors + tally.warnings + tally.hints = (c.check tree).diagnostics.length := by
  have hlegible := c.legible_check tree
  exact ⟨hlegible.return_notMem_text, hlegible.splitOn_text, hlegible.ofText?_text,
    (c.check tree).tally, Report.ofText?_summary _, Report.length_diagnostics _⟩

end TreeShape
