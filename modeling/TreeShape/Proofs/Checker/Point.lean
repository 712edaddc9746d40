import TreeShape.Checker.Position
import TreeShape.Proofs.Json.Path
import TreeShape.Proofs.Shape.Position
/- What checking a point finds: nothing, just if it is written with coordinates in range and the
document agrees. -/
namespace TreeShape

/-- All findings are errors at plain paths. -/
def Severe (findings : List Finding) : Prop :=
  ∀ f ∈ findings, f.fault.rule.severity = .error ∧ ∀ step ∈ f.path, step.Plain

theorem severe_nil : Severe [] := by
  intro f hf
  cases hf

theorem severe_single {path : Path} {fault : Fault} (hfault : fault.rule.severity = .error)
    (hpath : ∀ step ∈ path, step.Plain) : Severe [⟨path, fault⟩] := by
  intro f hf
  rw [List.mem_singleton.mp hf]
  exact ⟨hfault, hpath⟩

theorem severe_append {first second : List Finding} (h : Severe first) (h' : Severe second) :
    Severe (first ++ second) :=
  List.forall_mem_append.mpr ⟨h, h'⟩

theorem severe_under {findings : List Finding} (steps : Path)
    (hsteps : ∀ step ∈ steps, step.Plain) (h : Severe findings) :
    Severe (findings.map (Finding.under steps)) := by
  intro f hf
  obtain ⟨g, hg, rfl⟩ := List.mem_map.mp hf
  exact ⟨(h g hg).1, List.forall_mem_append.mpr ⟨hsteps, (h g hg).2⟩⟩

section Point

variable {fields : List (String × Json)} {name : String} {least n : Nat}

/-- A coordinate is read without a finding, or there is none and one finding tells why. -/
theorem checkCoordinate_cases (fields : List (String × Json)) (name : String) (least : Nat) :
    (∃ n, Json.Holds name fields n ∧ least ≤ n ∧
      checkCoordinate fields name least = ⟨some n, []⟩) ∨
    (∀ n, Json.Holds name fields n → n < least) ∧
      ∃ f : Finding, checkCoordinate fields name least = ⟨none, [f]⟩ := by
  unfold checkCoordinate
  cases hget : Entries.get? name fields with
  | none => exact .inr ⟨by simp [Json.Holds, hget], _, rfl⟩
  | some value =>
      cases hword : value.word? with
      | some n =>
          obtain ⟨rfl, hlt⟩ := Json.word?_eq_some_iff.mp hword
          by_cases hle : least ≤ n
          · exact .inl ⟨n, ⟨hget, hlt⟩, hle, by simp [hword, hle]⟩
          · refine .inr ⟨?_, ⟨[.key name], .coordinateTooSmall name least n⟩,
              by simp [hword, hle]⟩
            intro m hm
            rw [hm.unique ⟨hget, hlt⟩]
            omega
      | none =>
          refine .inr ⟨?_, ?_⟩
          · intro m hm
            have hsome := Json.word?_eq_some_iff.mpr ⟨rfl, hm.2⟩
            rw [← Option.some.inj (hget.symm.trans hm.1), hword] at hsome
            cases hsome
          · simp only [hword]
            split
            · rename_i h
              cases h
            · exact ⟨_, rfl⟩
            · exact ⟨_, rfl⟩

theorem checkCoordinate_value_iff :
    (checkCoordinate fields name least).value = some n ↔ Json.Holds name fields n ∧ least ≤ n := by
  rcases checkCoordinate_cases fields name least with ⟨m, hm, hle, heq⟩ | ⟨hsmall, f, heq⟩
  · rw [heq, Option.some.injEq]
    constructor
    · rintro rfl
      exact ⟨hm, hle⟩
    · rintro ⟨hn, -⟩
      exact hm.unique hn
  · rw [heq]
    constructor
    · intro h
      cases h
    · rintro ⟨hn, hle⟩
      have := hsmall n hn
      omega

theorem checkCoordinate_findings_iff :
    (checkCoordinate fields name least).findings = [] ↔
      ∃ n, (checkCoordinate fields name least).value = some n := by
  rcases checkCoordinate_cases fields name least with ⟨m, -, -, heq⟩ | ⟨-, f, heq⟩
  · simp [heq]
  · simp [heq]

theorem checkCoordinate_severe (fields : List (String × Json)) (name : String) (least : Nat)
    (hname : ∀ step ∈ [Step.key name], step.Plain) :
    Severe (checkCoordinate fields name least).findings := by
  unfold checkCoordinate
  split
  · exact severe_single rfl (by simp)
  · split
    · split
      · exact severe_nil
      · exact severe_single rfl hname
    · exact severe_single rfl hname
    · exact severe_single rfl hname

theorem sourceFindings_severe (source : Option Source) (p : Point) :
    Severe (sourceFindings source p) := by
  unfold sourceFindings
  split
  · exact severe_nil
  · split
    · exact severe_nil
    · split
      · exact severe_single rfl (by simp)
      · exact severe_single rfl (by simp)

theorem sourceFindings_eq_nil_iff {source : Option Source} {p : Point} :
    sourceFindings source p = [] ↔ ∀ s ∈ source, s.agrees p = true := by
  unfold sourceFindings
  cases source with
  | none => simp
  | some s =>
      cases hagrees : s.agrees p with
      | true => simp [hagrees]
      | false =>
          simp only [hagrees, Bool.false_eq_true, if_false, Option.mem_some_iff, forall_eq',
            iff_false]
          split <;> simp

/-- A point that is written with coordinates in range. -/
def Json.HasPoint (value : Option Json) (p : Point) : Prop :=
  ∃ v, value = some v ∧ v.WritesPoint p ∧ 1 ≤ p.line ∧ 1 ≤ p.column

/-- A point is usable, and only the document may object to it, or it is not, and something is
found. -/
theorem checkPoint_cases (source : Option Source) (name : String) (value : Option Json) :
    (∃ p, Json.HasPoint value p ∧
      checkPoint source name value = ⟨some p, sourceFindings source p⟩) ∨
    (∀ p, ¬ Json.HasPoint value p) ∧ ∃ findings : List Finding,
      checkPoint source name value = ⟨none, findings⟩ ∧ findings ≠ [] := by
  unfold checkPoint
  split
  · refine .inr ⟨?_, _, rfl, by simp⟩
    rintro p ⟨v, hv, -⟩
    cases hv
  · rename_i fields
    simp only
    split
    · rename_i line column offset hline hcolumn hoffset
      obtain ⟨hl, hlle⟩ := checkCoordinate_value_iff.mp hline
      obtain ⟨hc, hcle⟩ := checkCoordinate_value_iff.mp hcolumn
      obtain ⟨ho, -⟩ := checkCoordinate_value_iff.mp hoffset
      refine .inl ⟨⟨line, column, offset⟩, ⟨_, rfl, ⟨fields, rfl, hl, hc, ho⟩, hlle, hcle⟩, ?_⟩
      rw [checkCoordinate_findings_iff.mpr ⟨_, hline⟩, checkCoordinate_findings_iff.mpr ⟨_, hcolumn⟩,
        checkCoordinate_findings_iff.mpr ⟨_, hoffset⟩]
      rfl
    · rename_i hunusable
      refine .inr ⟨?_, _, rfl, ?_⟩
      · rintro p ⟨v, hv, ⟨fields', rfl, hl, hc, ho⟩, hlle, hcle⟩
        cases hv
        exact hunusable p.line p.column p.offset (checkCoordinate_value_iff.mpr ⟨hl, hlle⟩)
          (checkCoordinate_value_iff.mpr ⟨hc, hcle⟩)
          (checkCoordinate_value_iff.mpr ⟨ho, Nat.zero_le _⟩)
      · intro hnil
        simp only [List.append_eq_nil_iff, checkCoordinate_findings_iff] at hnil
        obtain ⟨⟨⟨line, hline⟩, column, hcolumn⟩, offset, hoffset⟩ := hnil
        exact hunusable line column offset hline hcolumn hoffset
  · rename_i v hv
    refine .inr ⟨?_, _, rfl, by simp⟩
    rintro p ⟨w, hw, ⟨fields, rfl, -⟩, -⟩
    cases hw
    exact hv fields rfl

theorem Json.HasPoint.unique {value : Option Json} {p q : Point} (hp : Json.HasPoint value p)
    (hq : Json.HasPoint value q) : p = q := by
  obtain ⟨v, hv, hp, -⟩ := hp
  obtain ⟨w, hw, hq, -⟩ := hq
  cases Option.some.inj (hv.symm.trans hw)
  exact hp.unique hq

theorem checkPoint_of_hasPoint {source : Option Source} {value : Option Json} {p : Point}
    (hp : Json.HasPoint value p) :
    checkPoint source name value = ⟨some p, sourceFindings source p⟩ := by
  rcases checkPoint_cases source name value with ⟨q, hq, heq⟩ | ⟨hnone, -⟩
  · rw [heq, hq.unique hp]
  · exact absurd hp (hnone p)

theorem checkPoint_findings_iff {source : Option Source} {value : Option Json} :
    (checkPoint source name value).findings = [] ↔
      ∃ p, Json.HasPoint value p ∧ ∀ s ∈ source, s.agrees p = true := by
  rcases checkPoint_cases source name value with ⟨p, hp, heq⟩ | ⟨hnone, findings, heq, hne⟩
  · rw [heq, sourceFindings_eq_nil_iff]
    constructor
    · exact fun hagrees => ⟨p, hp, hagrees⟩
    · rintro ⟨q, hq, hagrees⟩
      rwa [hp.unique hq]
  · rw [heq]
    constructor
    · exact fun hnil => absurd hnil hne
    · rintro ⟨p, hp, -⟩
      exact absurd hp (hnone p)

theorem checkPoint_severe (source : Option Source) (name : String) (value : Option Json) :
    Severe (checkPoint source name value).findings := by
  unfold checkPoint
  split
  · exact severe_single rfl (by simp)
  · rename_i fields
    have hcoordinates := severe_append (severe_append
      (checkCoordinate_severe fields "line" 1 (by decide))
      (checkCoordinate_severe fields "column" 1 (by decide)))
      (checkCoordinate_severe fields "offset" 0 (by decide))
    simp only
    split
    · exact severe_append hcoordinates (sourceFindings_severe source _)
    · exact hcoordinates
  · exact severe_single rfl (by simp)

end Point

end TreeShape
