import Mathlib.Tactic.SplitIfs
import TreeShape.Json.Printer
/- The compact text of a value stays on one line: strings are escaped, and all else is written
without line breaks. -/
namespace TreeShape

/-- What holds of the characters of all pieces and of the separator holds of those of the whole. -/
theorem forall_mem_intercalate {P : Char → Prop} {separator : String} {pieces : List String}
    (hseparator : ∀ c ∈ separator.toList, P c)
    (hpieces : ∀ piece ∈ pieces, ∀ c ∈ piece.toList, P c) :
    ∀ c ∈ (separator.intercalate pieces).toList, P c := by
  induction pieces with
  | nil => simp
  | cons piece rest ih =>
      rw [List.forall_mem_cons] at hpieces
      cases rest with
      | nil => simpa using hpieces.1
      | cons second later =>
          rw [String.intercalate_cons_cons, String.toList_append, String.toList_append,
            List.forall_mem_append, List.forall_mem_append]
          exact ⟨⟨hpieces.1, hseparator⟩, ih hpieces.2⟩

theorem isDigit_toDigits (n : Nat) : ∀ c ∈ Nat.toDigits 10 n, c.isDigit = true :=
  fun _ hc => Nat.isDigit_of_mem_toDigits (by decide) (by decide) hc

/-- Any character but a line feed or a carriage return. -/
def inLine (c : Char) : Bool := c != '\n' && c != '\r'

theorem inLine_iff {c : Char} : inLine c = true ↔ c ≠ '\n' ∧ c ≠ '\r' := by
  simp [inLine]

/-- The text has neither line feeds nor carriage returns. -/
def OneLine (text : String) : Prop := ∀ c ∈ text.toList, inLine c = true

instance (text : String) : Decidable (OneLine text) :=
  decidable_of_iff (text.toList.all inLine = true) List.all_eq_true

namespace OneLine

@[simp]
theorem append_iff {first second : String} :
    OneLine (first ++ second) ↔ OneLine first ∧ OneLine second := by
  rw [OneLine, String.toList_append]
  exact List.forall_mem_append

theorem ofChars {cs : List Char} (h : cs.all inLine = true) : OneLine (String.ofList cs) := by
  rwa [OneLine, String.toList_ofList, ← List.all_eq_true]

/-- Digits written one after the other. -/
theorem ofDigits {digits : List Char} (h : ∀ c ∈ digits, c.isDigit = true) :
    OneLine (String.ofList digits) := by
  refine ofChars (List.all_eq_true.mpr fun c hc => inLine_iff.mpr ?_)
  have hdigit := h c hc
  constructor <;> rintro rfl <;> cases hdigit

@[simp]
theorem nat (n : Nat) : OneLine (toString n) := by
  rw [Nat.toString_eq_repr, ← String.ofList_toList (s := n.repr), Nat.toList_repr]
  exact ofDigits (isDigit_toDigits n)

@[simp]
theorem int (n : Int) : OneLine (toString n) := by
  cases n with
  | ofNat n => exact nat n
  | negSucc n => exact append_iff.mpr ⟨by decide, nat (n + 1)⟩

theorem intercalate {separator : String} {pieces : List String} (hseparator : OneLine separator)
    (hpieces : ∀ piece ∈ pieces, OneLine piece) : OneLine (separator.intercalate pieces) :=
  forall_mem_intercalate hseparator hpieces

end OneLine

namespace DecimalFormat

theorem oneLine_zeros (n : Nat) : OneLine (zeros n) := by
  refine OneLine.ofDigits fun c hc => ?_
  rw [List.eq_of_mem_replicate hc]
  decide

theorem oneLine_exponentText (e : Int) : OneLine (exponentText e) := by
  unfold exponentText
  split
  · exact OneLine.append_iff.mpr ⟨by decide, OneLine.int e⟩
  · exact OneLine.append_iff.mpr ⟨by decide, OneLine.int e⟩

theorem oneLine_text (f : DecimalFormat) (d : Decimal) : OneLine (f.text d) := by
  have hdigits := isDigit_toDigits d.coefficient
  have htake : ∀ n, OneLine (String.ofList ((Nat.toDigits 10 d.coefficient).take n)) :=
    fun n => OneLine.ofDigits fun c hc => hdigits c (List.mem_of_mem_take hc)
  have hdrop : ∀ n, OneLine (String.ofList ((Nat.toDigits 10 d.coefficient).drop n)) :=
    fun n => OneLine.ofDigits fun c hc => hdigits c (List.mem_of_mem_drop hc)
  unfold text
  simp only
  split
  · simp only [OneLine.append_iff]
    refine ⟨⟨⟨htake 1, ?_⟩, hdrop 1⟩, oneLine_exponentText _⟩
    split <;> decide
  · split
    · simp only [OneLine.append_iff]
      exact ⟨⟨by decide, oneLine_zeros _⟩, OneLine.ofDigits hdigits⟩
    · simp only [OneLine.append_iff]
      refine ⟨⟨⟨htake _, oneLine_zeros _⟩, by decide⟩, ?_⟩
      split
      · decide
      · exact hdrop _

end DecimalFormat

theorem Number.oneLine_text (n : Number) : OneLine n.text := by
  cases n with
  | int value => exact OneLine.int value
  | double value =>
      refine OneLine.append_iff.mpr ⟨?_, DecimalFormat.oneLine_text _ _⟩
      split <;> decide

namespace Json

theorem inLine_hexDigit (n : Nat) : inLine (hexDigit n) = true := by
  have hdigits : "0123456789abcdef".toList.all inLine = true := by decide
  unfold hexDigit
  rw [List.getD_eq_getElem?_getD]
  cases hdigit : "0123456789abcdef".toList[n]? with
  | none => decide
  | some c => exact List.all_eq_true.mp hdigits c (List.mem_of_getElem? hdigit)

theorem inLine_escaped (c : Char) : (escaped c).all inLine = true := by
  unfold escaped
  split_ifs with _ _ hfeed hreturn
  · decide
  · decide
  · decide
  · decide
  · decide
  · decide
  · decide
  · simp only [List.all_cons, List.all_nil, inLine_hexDigit, Bool.and_true]
    decide
  · rw [List.all_cons, List.all_nil, Bool.and_true, inLine_iff]
    exact ⟨hfeed, hreturn⟩

theorem oneLine_quoted (s : String) : OneLine (quoted s) := by
  have hbody : (s.toList.flatMap escaped).all inLine = true := by
    rw [List.all_flatMap, List.all_eq_true]
    exact fun c _ => inLine_escaped c
  apply OneLine.ofChars
  rw [List.all_append, List.all_cons, hbody]
  decide

mutual

theorem oneLine_compact (v : Json) : OneLine v.compact := by
  cases v with
  | null => decide
  | bool value => cases value <;> decide
  | number n => exact n.oneLine_text
  | string s => exact oneLine_quoted s
  | array items =>
      simp only [compact, OneLine.append_iff]
      exact ⟨⟨by decide, OneLine.intercalate (by decide) (oneLine_compactItems items)⟩, by decide⟩
  | object fields =>
      simp only [compact, OneLine.append_iff]
      exact ⟨⟨by decide, OneLine.intercalate (by decide) (oneLine_compactFields fields)⟩, by decide⟩

theorem oneLine_compactItems (items : List Json) : ∀ text ∈ compactItems items, OneLine text := by
  cases items with
  | nil => simp [compactItems]
  | cons item rest =>
      rw [compactItems, List.forall_mem_cons]
      exact ⟨oneLine_compact item, oneLine_compactItems rest⟩

theorem oneLine_compactFields (fields : List (String × Json)) :
    ∀ text ∈ compactFields fields, OneLine text := by
  cases fields with
  | nil => simp [compactFields]
  | cons field rest =>
      obtain ⟨key, value⟩ := field
      rw [compactFields, List.forall_mem_cons]
      refine ⟨?_, oneLine_compactFields rest⟩
      simp only [OneLine.append_iff]
      exact ⟨⟨oneLine_quoted key, by decide⟩, oneLine_compact value⟩

end

end Json

end TreeShape
