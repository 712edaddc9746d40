import TreeShape.Proofs.Checker.Node
import TreeShape.Proofs.Json.Path
import TreeShape.Proofs.Json.Printer
/- What the findings of a check say in their own words: paths and messages name the keys of the
format and no keys of the tree, so that no text of the tree gets into a report except as compact
text. -/
namespace TreeShape

/-- The keys that a check looks at. -/
def formatKeys : List String :=
  ["type", "data", reservedKey, "position", "start", "end", "indent", "line", "column", "offset",
    "children"]

def Step.OfFormat : Step → Prop
  | .key name => name ∈ formatKeys
  | .index _ => True

instance (step : Step) : Decidable step.OfFormat :=
  match step with
  | .key name => inferInstanceAs (Decidable (name ∈ formatKeys))
  | .index _ => inferInstanceAs (Decidable True)

/-- The key that a message names, where it does not always name the same. -/
def Fault.name? : Fault → Option String
  | .missingPoint name => some name
  | .pointNotObject name _ => some name
  | .missingCoordinate name => some name
  | .notACoordinate name _ => some name
  | .negativeCoordinate name _ => some name
  | .coordinateTooSmall name _ _ => some name
  | _ => none

/-- The finding names keys of the format only. -/
structure Finding.OfFormat (f : Finding) : Prop where
  path : ∀ step ∈ f.path, step.OfFormat
  name : ∀ name ∈ f.fault.name?, name ∈ formatKeys

def OfFormat (findings : List Finding) : Prop := ∀ f ∈ findings, f.OfFormat

section

variable {first second findings : List Finding}

theorem ofFormat_nil : OfFormat [] := by
  intro f hf
  cases hf

theorem ofFormat_single {path : Path} {fault : Fault} (hpath : ∀ step ∈ path, step.OfFormat)
    (hname : ∀ name ∈ fault.name?, name ∈ formatKeys) : OfFormat [⟨path, fault⟩] := by
  intro f hf
  rw [List.mem_singleton.mp hf]
  exact ⟨hpath, hname⟩

theorem ofFormat_append (h : OfFormat first) (h' : OfFormat second) : OfFormat (first ++ second) :=
  List.forall_mem_append.mpr ⟨h, h'⟩

theorem ofFormat_under {steps : Path} (hsteps : ∀ step ∈ steps, step.OfFormat)
    (h : OfFormat findings) : OfFormat (findings.map (Finding.under steps)) :=
  List.forall_mem_map.mpr fun f hf =>
    ⟨List.forall_mem_append.mpr ⟨hsteps, (h f hf).path⟩, (h f hf).name⟩

end

theorem checkCoordinate_ofFormat (fields : List (String × Json)) (name : String) (least : Nat)
    (hname : name ∈ formatKeys) : OfFormat (checkCoordinate fields name least).findings := by
  have hpath : ∀ step ∈ [Step.key name], step.OfFormat := by simpa [Step.OfFormat] using hname
  unfold checkCoordinate
  split
  · exact ofFormat_single (by simp) (by simpa [Fault.name?] using hname)
  · split
    · split
      · exact ofFormat_nil
      · exact ofFormat_single hpath (by simpa [Fault.name?] using hname)
    · exact ofFormat_single hpath (by simpa [Fault.name?] using hname)
    · exact ofFormat_single hpath (by simpa [Fault.name?] using hname)

theorem sourceFindings_ofFormat (source : Option Source) (p : Point) :
    OfFormat (sourceFindings source p) := by
  unfold sourceFindings
  split
  · exact ofFormat_nil
  · split
    · exact ofFormat_nil
    · split
      · exact ofFormat_single (by simp) (by simp [Fault.name?])
      · exact ofFormat_single (by simp) (by simp [Fault.name?])

theorem checkPoint_ofFormat (source : Option Source) (name : String) (value : Option Json)
    (hname : name ∈ formatKeys) : OfFormat (checkPoint source name value).findings := by
  unfold checkPoint
  split
  · exact ofFormat_single (by simp) (by simpa [Fault.name?] using hname)
  · rename_i fields
    have hcoordinates := ofFormat_append (ofFormat_append
      (checkCoordinate_ofFormat fields "line" 1 (by decide))
      (checkCoordinate_ofFormat fields "column" 1 (by decide)))
      (checkCoordinate_ofFormat fields "offset" 0 (by decide))
    simp only
    split
    · exact ofFormat_append hcoordinates (sourceFindings_ofFormat source _)
    · exact hcoordinates
  · exact ofFormat_single (by simp) (by simpa [Fault.name?] using hname)

theorem checkColumns_ofFormat (index : Nat) (items : List Json) :
    OfFormat (checkColumns index items).findings := by
  induction items generalizing index with
  | nil => exact ofFormat_nil
  | cons item rest ih =>
      unfold checkColumns
      split
      · exact ofFormat_single (by simp [Step.OfFormat]) (by simp [Fault.name?])
      · exact ih (index + 1)

theorem checkIndent_ofFormat (indent : Option Json) : OfFormat (checkIndent indent).findings := by
  unfold checkIndent
  split
  · exact ofFormat_nil
  · exact checkColumns_ofFormat 0 _
  · split
    · exact ofFormat_nil
    · exact ofFormat_single (by simp) (by simp [Fault.name?])

theorem indentMismatches_ofFormat (source : Source) (index line : Nat) (indent : List Nat) :
    OfFormat (indentMismatches source index line indent) := by
  induction indent generalizing index line with
  | nil => exact ofFormat_nil
  | cons column rest ih =>
      unfold indentMismatches
      refine ofFormat_append ?_ (ih (index + 1) (line + 1))
      split
      · split
        · exact ofFormat_nil
        · exact ofFormat_single (by simp [Step.OfFormat]) (by simp [Fault.name?])
      · exact ofFormat_nil

theorem checkIndentLines_ofFormat (source : Option Source) (start stop : Point)
    (indent : List Nat) : OfFormat (checkIndentLines source start stop indent).findings := by
  unfold checkIndentLines
  split
  · exact ofFormat_nil
  · split
    · exact ofFormat_single (by simp) (by simp [Fault.name?])
    · split
      · exact ofFormat_nil
      · exact indentMismatches_ofFormat _ _ _ _

theorem checkPosition_ofFormat (source : Option Source) (v : Json) :
    OfFormat (checkPosition source v).findings := by
  unfold checkPosition
  split
  · rename_i fields
    have hstart : ∀ step ∈ [Step.key "start"], step.OfFormat := by decide
    have hstop : ∀ step ∈ [Step.key "end"], step.OfFormat := by decide
    have hindent : ∀ step ∈ [Step.key "indent"], step.OfFormat := by decide
    have hparts := ofFormat_append (ofFormat_append
      (ofFormat_under hstart
        (checkPoint_ofFormat source "start" (Json.present? "start" fields) (by decide)))
      (ofFormat_under hstop
        (checkPoint_ofFormat source "end" (Json.present? "end" fields) (by decide))))
      (ofFormat_under hindent (checkIndent_ofFormat (Json.present? "indent" fields)))
    simp only
    split
    · split
      · exact ofFormat_append hparts (ofFormat_single (by simp) (by simp [Fault.name?]))
      · exact ofFormat_append hparts (ofFormat_under hindent (checkIndentLines_ofFormat _ _ _ _))
    · exact hparts
  · exact ofFormat_single (by simp) (by simp [Fault.name?])

namespace Checker

variable {c : Checker} {parent previous : Option Position} {fields : List (String × Json)}

theorem checkType_ofFormat (fields : List (String × Json)) : OfFormat (checkType fields) := by
  unfold checkType
  split
  · exact ofFormat_single (by simp) (by simp [Fault.name?])
  · split
    · exact ofFormat_single (by decide) (by simp [Fault.name?])
    · exact ofFormat_nil
  · exact ofFormat_single (by decide) (by simp [Fault.name?])

theorem checkData_ofFormat (fields : List (String × Json)) : OfFormat (checkData fields) := by
  unfold checkData
  split
  · exact ofFormat_nil
  · split
    · exact ofFormat_single (by decide) (by simp [Fault.name?])
    · exact ofFormat_nil
  · exact ofFormat_single (by decide) (by simp [Fault.name?])

theorem checkNodePosition_ofFormat (c : Checker) (fields : List (String × Json)) :
    OfFormat (c.checkNodePosition fields).findings := by
  unfold checkNodePosition
  split
  · exact ofFormat_under (by decide) (checkPosition_ofFormat c.source _)
  · simp only
    split
    · exact ofFormat_single (by simp) (by simp [Fault.name?])
    · exact ofFormat_nil

theorem relationFindings_ofFormat (c : Checker) (parent previous : Option Position)
    (child : Position) : OfFormat (c.relationFindings parent previous child) := by
  unfold relationFindings
  apply ofFormat_append
  · split
    · split
      · exact ofFormat_single (by simp) (by simp [Fault.name?])
      · exact ofFormat_nil
    · exact ofFormat_nil
  · split
    · split
      · exact ofFormat_single (by simp) (by simp [Fault.name?])
      · exact ofFormat_nil
    · exact ofFormat_nil

theorem hybridFindings_ofFormat (c : Checker) (fields : List (String × Json)) :
    OfFormat (c.hybridFindings fields) := by
  unfold hybridFindings
  split
  · exact ofFormat_single (by simp) (by simp [Fault.name?])
  · exact ofFormat_nil

theorem checkItems_ofFormat {items : List Json}
    (h : ∀ item ∈ items, OfFormat (c.checkNode item).findings) (index : Nat) :
    OfFormat (c.checkItems parent previous index items).findings := by
  induction items generalizing previous index with
  | nil => exact ofFormat_nil
  | cons item rest ih =>
      rw [List.forall_mem_cons] at h
      have hrelation : OfFormat
          ((c.checkNode item).position.elim [] (c.relationFindings parent previous)) := by
        cases (c.checkNode item).position with
        | none => exact ofFormat_nil
        | some position => exact relationFindings_ofFormat c parent previous position
      have hsteps : ∀ step ∈ [Step.key "children", .index index], step.OfFormat := by
        rw [List.forall_mem_cons, List.forall_mem_singleton]
        exact ⟨by decide, trivial⟩
      rw [checkItems_cons]
      exact ofFormat_append (ofFormat_under hsteps (ofFormat_append h.1 hrelation)) (ih h.2 _)

theorem checkChildrenOf_ofFormat
    (h : ∀ item ∈ (Json.object fields).childItems, OfFormat (c.checkNode item).findings) :
    OfFormat (c.checkChildrenOf parent fields).findings := by
  cases hchildren : Json.present? "children" fields with
  | none => rw [checkChildrenOf_absent hchildren]; exact ofFormat_nil
  | some v =>
      by_cases hlist : ∃ items, v = .array items
      · obtain ⟨items, rfl⟩ := hlist
        rw [Json.childItems_present hchildren] at h
        rw [checkChildrenOf_list hchildren]
        exact checkItems_ofFormat h 0
      · rw [checkChildrenOf_other hchildren fun items hv => hlist ⟨items, hv⟩]
        exact ofFormat_single (by decide) (by simp [Fault.name?])

/-- Whatever keys a tree has, its findings name keys of the format only. -/
theorem checkNode_ofFormat (c : Checker) (v : Json) : OfFormat (c.checkNode v).findings := by
  induction v using Json.node_induction with
  | step v ih =>
      by_cases hobject : ∃ fields, v = .object fields
      · obtain ⟨fields, rfl⟩ := hobject
        rw [checkNode_object]
        exact ofFormat_append (ofFormat_append (ofFormat_append (ofFormat_append
          (checkType_ofFormat fields) (checkData_ofFormat fields))
          (checkNodePosition_ofFormat c fields)) (checkChildrenOf_ofFormat ih))
          (hybridFindings_ofFormat c fields)
      · rw [checkNode_other fun fields hv => hobject ⟨fields, hv⟩]
        exact ofFormat_single (by simp) (by simp [Fault.name?])

end Checker

theorem Json.Kind.oneLine_describe (kind : Json.Kind) : OneLine kind.describe := by
  cases kind <;> decide

theorem Point.oneLine_text (p : Point) : OneLine p.text := by
  simp only [text, OneLine.append_iff]
  exact ⟨⟨OneLine.nat _, by decide⟩, OneLine.nat _⟩

theorem Position.oneLine_text (p : Position) : OneLine p.text := by
  simp only [text, OneLine.append_iff]
  exact ⟨⟨p.start.oneLine_text, by decide⟩, p.stop.oneLine_text⟩

theorem oneLine_of_mem_formatKeys {name : String} (h : name ∈ formatKeys) : OneLine name := by
  have hall : ∀ name ∈ formatKeys, OneLine name := by decide
  exact hall name h

/-- A message is on one line, even where it shows a value of the tree. -/
theorem Fault.oneLine_message {fault : Fault} (h : ∀ name ∈ fault.name?, name ∈ formatKeys) :
    OneLine fault.message := by
  have hname : ∀ name ∈ fault.name?, OneLine name :=
    fun name hmem => oneLine_of_mem_formatKeys (h name hmem)
  cases fault
  all_goals dsimp only [message, ShapeError.message]
  case missingType | emptyType | reservedDataKey | missingPosition | hybridNode =>
    exact OneLine.ofChars (by decide)
  -- What is computed is on one line, and what is left are the fixed words of the messages.
  all_goals
    simp only [OneLine.append_iff, OneLine.nat, OneLine.int, Json.Kind.oneLine_describe,
      Point.oneLine_text, Position.oneLine_text, Json.oneLine_compact, and_true]
  case' missingPoint name | pointNotObject name _ | missingCoordinate name |
      notACoordinate name _ | negativeCoordinate name _ | coordinateTooSmall name _ _ =>
    simp only [hname name rfl, and_true]
  all_goals
    and_intros
    all_goals exact OneLine.ofChars (by decide)

/-- Any character of a line but the colon with which a report ends a path. -/
def inPath (c : Char) : Bool := c != ':' && inLine c

theorem Step.inPath_text {step : Step} (h : step.OfFormat) :
    step.text.toList.all inPath = true := by
  cases step with
  | key name =>
      have hall : ∀ name ∈ formatKeys, (key name).text.toList.all inPath = true := by decide
      exact hall name h
  | index n =>
      have hdigits : (Nat.toDigits 10 n).all inPath = true := by
        refine List.all_eq_true.mpr fun c hc => ?_
        have hdigit := isDigit_toDigits n c hc
        rw [inPath, Bool.and_eq_true, bne_iff_ne, inLine_iff]
        refine ⟨?_, ?_, ?_⟩ <;> rintro rfl <;> cases hdigit
      rw [toList_text_index, List.all_cons, List.all_append, hdigits]
      decide

namespace Path

variable {path : Path}

theorem inPath_text (h : ∀ step ∈ path, step.OfFormat) : path.text.toList.all inPath = true := by
  rw [toList_text, List.all_cons, List.all_flatMap, Bool.and_eq_true, List.all_eq_true]
  exact ⟨by decide, fun step hstep => Step.inPath_text (h step hstep)⟩

theorem colon_notMem_text (h : ∀ step ∈ path, step.OfFormat) : ':' ∉ path.text.toList := by
  intro hcolon
  have hchar := List.all_eq_true.mp (inPath_text h) ':' hcolon
  cases hchar

theorem oneLine_text (h : ∀ step ∈ path, step.OfFormat) : OneLine path.text := by
  intro c hc
  have hchar := List.all_eq_true.mp (inPath_text h) c hc
  rw [inPath, Bool.and_eq_true] at hchar
  exact hchar.2

end Path

end TreeShape
