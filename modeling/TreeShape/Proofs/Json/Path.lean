import TreeShape.Json.Path
/- What the text of a path tells: its steps, as long as no key in it looks like the start of one. -/
namespace TreeShape

/-- The characters with which a step starts. -/
def startsStep (c : Char) : Bool := c == '.' || c == '['

namespace Step

/-- A step is plain if no step seems to start within its key. -/
def Plain : Step → Prop
  | key name => name.toList.any startsStep = false
  | index _ => True

instance (step : Step) : Decidable step.Plain :=
  match step with
  | key name => inferInstanceAs (Decidable (name.toList.any startsStep = false))
  | index _ => inferInstanceAs (Decidable True)

theorem toList_text_key (name : String) : (key name).text.toList = '.' :: name.toList := by
  simp [text]

theorem toList_text_index (n : Nat) :
    (index n).text.toList = '[' :: (Nat.toDigits 10 n ++ [']']) := by
  simp [text, Nat.toString_eq_repr]

/-- Characters that go on with a step, if they go on at all. -/
def Opens (cs : List Char) : Prop := ∀ c rest, cs = c :: rest → startsStep c = true

theorem Opens.nil : Opens [] := by
  intro c rest h
  cases h

theorem opens_text_append (step : Step) (rest : List Char) : Opens (step.text.toList ++ rest) := by
  intro c tail h
  cases step with
  | key name =>
      rw [toList_text_key] at h
      cases h
      rfl
  | index n =>
      rw [toList_text_index] at h
      cases h
      rfl

/-- A name that stops where a step starts is read off in one way. -/
theorem name_of_append {name other rest rest' : List Char}
    (hname : name.any startsStep = false) (hother : other.any startsStep = false)
    (hrest : Opens rest) (hrest' : Opens rest') (h : name ++ rest = other ++ rest') :
    name = other := by
  have hstops : ∀ {cs}, Opens cs → cs.takeWhile (fun c => !startsStep c) = [] := by
    intro cs hcs
    cases cs with
    | nil => rfl
    | cons c tail => simp [hcs c tail rfl]
  have hread := congrArg (List.takeWhile fun c => !startsStep c) h
  rwa [List.takeWhile_append_of_pos (by simpa using hname),
    List.takeWhile_append_of_pos (by simpa using hother), hstops hrest, hstops hrest',
    List.append_nil, List.append_nil] at hread

theorem toDigits_injective {m n : Nat} (h : Nat.toDigits 10 m = Nat.toDigits 10 n) : m = n := by
  have hread := congrArg (fun digits => Nat.ofDigitChars 10 digits 0) h
  simpa only [Nat.ofDigitChars_ten_toDigits] using hread

/-- A number that stops at its bracket is read off in one way. -/
theorem number_of_append {m n : Nat} {rest rest' : List Char}
    (h : Nat.toDigits 10 m ++ [']'] ++ rest = Nat.toDigits 10 n ++ [']'] ++ rest') : m = n := by
  have hdigits : ∀ k, ∀ c ∈ Nat.toDigits 10 k, c.isDigit = true := by
    intro k c hc
    exact Nat.isDigit_of_mem_toDigits (by decide) (by decide) hc
  have hread := congrArg (List.takeWhile Char.isDigit) h
  rw [List.append_assoc, List.append_assoc, List.takeWhile_append_of_pos (hdigits m),
    List.takeWhile_append_of_pos (hdigits n)] at hread
  exact toDigits_injective (by simpa using hread)

/-- The first step of a text is read off in one way. -/
theorem eq_of_text_append {step other : Step} {rest rest' : List Char} (hstep : step.Plain)
    (hother : other.Plain) (hrest : Opens rest) (hrest' : Opens rest')
    (h : step.text.toList ++ rest = other.text.toList ++ rest') : step = other ∧ rest = rest' := by
  have hsame : step = other := by
    cases step with
    | key name =>
        cases other with
        | key name' =>
            rw [toList_text_key, toList_text_key, List.cons_append, List.cons_append] at h
            have hname := name_of_append hstep hother hrest hrest' (List.cons.inj h).2
            rw [String.toList_inj.mp hname]
        | index n =>
            rw [toList_text_key, toList_text_index] at h
            cases h
    | index m =>
        cases other with
        | key name =>
            rw [toList_text_key, toList_text_index] at h
            cases h
        | index n =>
            rw [toList_text_index, toList_text_index, List.cons_append, List.cons_append] at h
            rw [number_of_append (List.cons.inj h).2]
  subst hsame
  exact ⟨rfl, List.append_cancel_left h⟩

end Step

namespace Path

theorem toList_text (path : Path) :
    path.text.toList = '$' :: path.flatMap fun step => step.text.toList := by
  simp [text, List.flatMap_map]

theorem opens_flatMap_append (path : Path) {rest : List Char} (hrest : Step.Opens rest) :
    Step.Opens ((path.flatMap fun step => step.text.toList) ++ rest) := by
  cases path with
  | nil => exact hrest
  | cons step below =>
      rw [List.flatMap_cons, List.append_assoc]
      exact step.opens_text_append _

theorem isPrefix_of_flatMap {base path : Path} {rest : List Char}
    (hbase : ∀ step ∈ base, step.Plain) (hpath : ∀ step ∈ path, step.Plain)
    (hrest : Step.Opens rest)
    (h : (path.flatMap fun step => step.text.toList) =
      (base.flatMap fun step => step.text.toList) ++ rest) : base <+: path := by
  -- Both texts are read from the left, one step at a time.
  induction base generalizing path with
  | nil => exact List.nil_prefix
  | cons step below ih =>
      rw [List.forall_mem_cons] at hbase
      cases path with
      | nil =>
          exfalso
          cases step with
          | key name => simp [Step.toList_text_key] at h
          | index n => simp [Step.toList_text_index] at h
      | cons other later =>
          rw [List.forall_mem_cons] at hpath
          rw [List.flatMap_cons, List.flatMap_cons, List.append_assoc] at h
          have hlater : Step.Opens (later.flatMap fun step => step.text.toList) := by
            have := opens_flatMap_append later Step.Opens.nil
            rwa [List.append_nil] at this
          obtain ⟨rfl, hsame⟩ := Step.eq_of_text_append hpath.1 hbase.1 hlater
            (opens_flatMap_append below hrest) h
          exact List.prefix_cons_inj _ |>.mpr (ih hbase.2 hpath.2 hsame)

/-- Of plain paths one starts with the other just if its text goes on from the other's text, step
by step. -/
theorem isPrefix_iff_text {base path : Path} (hbase : ∀ step ∈ base, step.Plain)
    (hpath : ∀ step ∈ path, step.Plain) :
    base <+: path ↔ ∃ more : Path, path.text = Path.text (base ++ more) := by
  constructor
  · rintro ⟨more, rfl⟩
    exact ⟨more, rfl⟩
  · rintro ⟨more, h⟩
    have hchars := congrArg String.toList h
    rw [toList_text, toList_text, List.flatMap_append] at hchars
    have hmore := opens_flatMap_append more Step.Opens.nil
    rw [List.append_nil] at hmore
    exact isPrefix_of_flatMap hbase hpath hmore (List.cons.inj hchars).2

/-- A text spells out plain steps. -/
def Spells (path : Path) (text : String) : Prop := (∀ step ∈ path, step.Plain) ∧ path.text = text

/-- A text is read in one way. -/
theorem Spells.unique {path other : Path} {text : String} (h : path.Spells text)
    (h' : other.Spells text) : path = other := by
  have hleft : path <+: other :=
    (isPrefix_iff_text h.1 h'.1).mpr ⟨[], by rw [List.append_nil, h.2, h'.2]⟩
  have hright : other <+: path :=
    (isPrefix_iff_text h'.1 h.1).mpr ⟨[], by rw [List.append_nil, h.2, h'.2]⟩
  exact hleft.eq_of_length (Nat.le_antisymm hleft.length_le hright.length_le)

end Path

end TreeShape
