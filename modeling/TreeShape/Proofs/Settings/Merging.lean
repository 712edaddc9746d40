import TreeShape.Proofs.Settings.Overrides
/- What a file does to the keys of a group: the values that it says for a key are laid over what the
key has, one after the other, and nothing else in the file has a part in it. -/
namespace TreeShape

namespace Setting

/-- What a key has once values are laid over what it had, one after the other. -/
def laidInTurn (present : Option Setting) (values : List Setting) : Option Setting :=
  values.foldl (fun present value => some (value.laidOver present)) present

theorem laidInTurn_append (present : Option Setting) (first second : List Setting) :
    laidInTurn present (first ++ second) = laidInTurn (laidInTurn present first) second :=
  List.foldl_append

/-- A table is laid over a value entry by entry. -/
theorem get?_overlay (key : String) (incoming : List (String × Setting)) (present : Setting) :
    Entries.get? key (overlay incoming present).entries =
      laidInTurn (Entries.get? key present.entries)
        ((incoming.filter fun entry => lowerKey entry.1 = key).map (·.2)) := by
  induction incoming generalizing present with
  | nil => rfl
  | cons entry rest ih =>
      obtain ⟨name, value⟩ := entry
      rw [overlay, ih, entries, put_eq, List.filter_cons]
      by_cases hname : lowerKey name = key
      · subst hname
        simp only [Entries.get?_insert_self, decide_true, if_true, List.map_cons, laidInTurn,
          List.foldl_cons]
      · simp only [Entries.get?_insert_of_ne (Ne.symm hname), hname, decide_false, if_false,
          Bool.false_eq_true]

theorem valueAt?_put_table (group key : String) (inner target : List (String × Setting))
    {name : String} (hname : lowerKey name = group) :
    valueAt? group key (.table (put name (.table inner) target)) =
      laidInTurn (valueAt? group key (.table target))
        ((inner.filter fun entry => lowerKey entry.1 = key).map (·.2)) := by
  subst hname
  rw [valueAt?, entries, put_eq, Entries.get?_insert_self, Option.bind_some, laidOver, get?_overlay,
    valueAt?, entries]
  cases Entries.get? (lowerKey name) target with
  | none => rfl
  | some present => rfl

/-- A path into another group leaves a group as it is. -/
theorem valueAt?_putAt_of_ne {group name : String} (hname : lowerKey name ≠ group) (key : String)
    (value : Setting) (rest : List Step) (s : Setting) :
    valueAt? group key (putAt value (.key name :: rest) s) = valueAt? group key s := by
  cases rest with
  | nil => simp only [putAt, valueAt?, entries, put_eq, Entries.get?_insert_of_ne (Ne.symm hname)]
  | cons step rest =>
      simp only [putAt, valueAt?, entries, Entries.get?_insert_of_ne (Ne.symm hname)]

/-- Where an entry at the top level of a file leads. -/
def pathOf (key : String) : List Step := (path? key).getD [.key key]

theorem exists_pathOf (key : String) : ∃ name rest, pathOf key = .key name :: rest := by
  unfold pathOf path?
  dsimp only
  split
  · exact ⟨key, [], rfl⟩
  · cases steps? key.toList.length (key.toList.dropWhile isNameCharacter) with
    | none => exact ⟨key, [], rfl⟩
    | some steps => exact ⟨_, steps, rfl⟩

theorem layEntry_eq (s : Setting) (entry : String × Setting) :
    layEntry s entry = putAt entry.2 (pathOf entry.1) s := by
  unfold layEntry pathOf
  cases path? entry.1 with
  | none => rfl
  | some path => rfl

/-- The values that an entry at the top level of a file says for a key of a group: what the group's
table has for the key, or the entry's own value where its name reads as the path to the key. -/
def said (group key : String) (entry : String × Setting) : List Setting :=
  match pathOf entry.1, entry.2 with
  | [.key name], .table inner =>
    if lowerKey name = group then
      (inner.filter fun entry => lowerKey entry.1 = key).map (·.2)
    else []
  | [.key name, .key other], value =>
    if lowerKey name = group ∧ lowerKey other = key then [value] else []
  | _, _ => []

/-- Whether a path leads to a whole group, which the value is a table for, or to a key of one. -/
def setsGroupOrKey : List Step → Setting → Bool
  | [.key _], .table _ => true
  | [.key _, .key _], _ => true
  | _, _ => false

/-- The group that a path leads into. -/
def groupOf? : List Step → Option String
  | .key name :: _ => some (lowerKey name)
  | _ => none

/-- An entry that has to do with a group gives a table for it, or a value for one of its keys. -/
def Sets (group : String) (entry : String × Setting) : Prop :=
  groupOf? (pathOf entry.1) = some group → setsGroupOrKey (pathOf entry.1) entry.2 = true

instance (group : String) (entry : String × Setting) : Decidable (Sets group entry) :=
  inferInstanceAs (Decidable (_ → _))

variable {group name : String} {rest : List Step} {entry : String × Setting}

theorem table_or_key {value : Setting} (h : setsGroupOrKey (.key name :: rest) value = true) :
    (rest = [] ∧ ∃ inner, value = .table inner) ∨ ∃ key, rest = [.key key] := by
  unfold setsGroupOrKey at h
  split at h
  · rename_i heq
    cases heq
    exact .inl ⟨rfl, _, rfl⟩
  · rename_i heq
    cases heq
    exact .inr ⟨_, rfl⟩
  · cases h

theorem said_of_ne (key : String) (hpath : pathOf entry.1 = .key name :: rest)
    (hname : lowerKey name ≠ group) : said group key entry = [] := by
  unfold said
  rw [hpath]
  split
  · rename_i heq _
    cases heq
    exact if_neg hname
  · rename_i heq
    cases heq
    exact if_neg fun h => hname h.1
  · rfl

theorem valueAt?_layEntry (h : Sets group entry) (key : String) (s : Setting) :
    valueAt? group key (layEntry s entry) =
      laidInTurn (valueAt? group key s) (said group key entry) := by
  obtain ⟨name, rest, hpath⟩ := exists_pathOf entry.1
  rw [layEntry_eq, hpath]
  by_cases hname : lowerKey name = group
  · rw [Sets, hpath] at h
    rcases table_or_key (h (congrArg some hname)) with ⟨rfl, inner, hinner⟩ | ⟨other, rfl⟩
    · simp only [putAt, said, hpath, hinner, hname, if_true, valueAt?_put_table group key _ _ hname]
      rfl
    · simp only [said, hpath, valueAt?_putAt, hname, true_and]
      split <;> rfl
  · rw [valueAt?_putAt_of_ne hname, said_of_ne key hpath hname]
    rfl

theorem valueAt?_layFile {file : List (String × Setting)} (h : ∀ entry ∈ file, Sets group entry)
    (key : String) (s : Setting) :
    valueAt? group key (layFile s file) =
      laidInTurn (valueAt? group key s) (file.flatMap (said group key)) := by
  induction file generalizing s with
  | nil => rfl
  | cons entry rest ih =>
      rw [List.forall_mem_cons] at h
      rw [layFile, List.foldl_cons, List.flatMap_cons, laidInTurn_append,
        ← valueAt?_layEntry h.1 key s]
      exact ih h.2 (layEntry s entry)

/-- A table without entries, which changes nothing where it is laid over a value. -/
def isBlank : Setting → Bool
  | .table [] => true
  | _ => false

/-- A table with entries, which keeps those of a table that it is laid over. -/
def isMerged : Setting → Bool
  | .table (_ :: _) => true
  | _ => false

/-- The last of some values that is not blank. -/
def last? (values : List Setting) : Option Setting := (values.filter (!·.isBlank)).getLast?

/-- What a value is where its key has none: the keys of a table are in small letters. -/
def alone (value : Setting) : Setting := value.laidOver none

theorem exists_of_isMerged {value : Setting} (h : value.isMerged = true) :
    ∃ entry rest, value = .table (entry :: rest) := by
  cases value with
  | table entries =>
      cases entries with
      | nil => cases h
      | cons entry rest => exact ⟨entry, rest, rfl⟩
  | _ => cases h

theorem entries_of_not_merged {value : Setting} (h : value.isMerged = false) :
    value.entries = [] := by
  cases value with
  | table entries =>
      cases entries with
      | nil => rfl
      | cons entry rest => cases h
  | _ => rfl

theorem laidOver_of_isBlank {value : Setting} (h : value.isBlank = true) (present : Setting) :
    value.laidOver (some present) = present := by
  cases value with
  | table entries =>
      cases entries with
      | nil => rfl
      | cons entry rest => cases h
  | _ => cases h

/-- What is no table replaces what its key has. -/
theorem laidOver_of_plain {value : Setting} (hblank : value.isBlank = false)
    (hmerged : value.isMerged = false) (present : Option Setting) :
    value.laidOver present = value := by
  cases value with
  | table entries =>
      cases entries with
      | nil => cases hblank
      | cons entry rest => cases hmerged
  | _ => rfl

theorem exists_overlay_cons (entry : String × Setting) (rest : List (String × Setting))
    (present : Setting) : ∃ entries, overlay (entry :: rest) present = .table entries := by
  induction rest generalizing entry present with
  | nil => exact ⟨_, rfl⟩
  | cons next rest ih =>
      obtain ⟨key, value⟩ := entry
      exact ih next _

theorem laidOver_of_not_merged {value present : Setting} (hblank : value.isBlank = false)
    (hpresent : present.isMerged = false) : value.laidOver (some present) = value.alone := by
  cases hmerged : value.isMerged with
  | false => rw [laidOver_of_plain hblank hmerged, alone, laidOver_of_plain hblank hmerged]
  | true =>
      obtain ⟨⟨key, inner⟩, rest, rfl⟩ := exists_of_isMerged hmerged
      rw [alone, laidOver, laidOver, Option.getD_some, Option.getD_none, overlay, overlay,
        entries_of_not_merged hpresent]
      rfl

theorem exists_laidInTurn (present : Setting) (values : List Setting) :
    ∃ value, laidInTurn (some present) values = some value := by
  induction values generalizing present with
  | nil => exact ⟨present, rfl⟩
  | cons value rest ih => exact ih (value.laidOver (some present))

theorem isMerged_laidInTurn {values : List Setting} {present later : Setting}
    (hvalues : ∀ value ∈ values, value.isMerged = false) (hpresent : present.isMerged = false)
    (h : laidInTurn (some present) values = some later) : later.isMerged = false := by
  induction values generalizing present with
  | nil =>
      cases h
      exact hpresent
  | cons value rest ih =>
      rw [List.forall_mem_cons] at hvalues
      refine ih hvalues.2 ?_ h
      cases hblank : value.isBlank with
      | true => rw [laidOver_of_isBlank hblank, hpresent]
      | false => rw [laidOver_of_plain hblank hvalues.1, hvalues.1]

section Reading

variable {α : Type} {read : Setting → Option α}

/-- Laid over what a key has, a value that is not blank is read as it is, unless two tables are
merged that mean something as tables. -/
theorem read_laidOver {value : Setting} (hblank : value.isBlank = false)
    (hmerged : value.isMerged = true → ∀ entries, read (.table entries) = none)
    (present : Option Setting) : read (value.laidOver present) = read value := by
  cases hvalue : value.isMerged with
  | false => rw [laidOver_of_plain hblank hvalue]
  | true =>
      obtain ⟨entry, rest, rfl⟩ := exists_of_isMerged hvalue
      obtain ⟨entries, hentries⟩ := exists_overlay_cons entry rest (present.getD (.table []))
      rw [laidOver, hentries, hmerged hvalue, hmerged hvalue]

/-- Of values that are laid over what a key has the last one that is not blank is read. -/
theorem read_laidInTurn {values : List Setting}
    (hmerged : ∀ value ∈ values, value.isMerged = true → ∀ entries, read (.table entries) = none)
    (present : Setting) :
    (laidInTurn (some present) values).bind read = ((last? values).or (some present)).bind read := by
  induction values generalizing present with
  | nil => rfl
  | cons value rest ih =>
      rw [List.forall_mem_cons] at hmerged
      have hstep : laidInTurn (some present) (value :: rest) =
          laidInTurn (some (value.laidOver (some present))) rest := rfl
      rw [hstep, ih hmerged.2, last?, last?, List.filter_cons]
      cases hblank : value.isBlank with
      | true => simp only [Bool.not_true, Bool.false_eq_true, if_false, laidOver_of_isBlank hblank]
      | false =>
          have hread := read_laidOver hblank hmerged.1 (some present)
          simp only [Bool.not_false, if_true, List.getLast?_cons]
          cases (rest.filter (!·.isBlank)).getLast? with
          | none => exact hread
          | some later => rfl

/-- A value that is laid over what a key has is read as it is alone; a blank one does not count. -/
theorem read_told (told? : Option Setting) {present : Setting}
    (h : present.isMerged = false ∨ ∀ entries, read (.table entries) = none) :
    read ((told?.map (·.laidOver (some present))).getD present) =
      (((told?.filter (!·.isBlank)).map alone).or (some present)).bind read := by
  cases told? with
  | none => rfl
  | some value =>
      rw [Option.map_some, Option.getD_some, Option.filter_some]
      cases hblank : value.isBlank with
      | true =>
          rw [laidOver_of_isBlank hblank]
          rfl
      | false =>
          have halone : read (value.laidOver (some present)) = read value.alone := by
            rcases h with hpresent | hread
            · rw [laidOver_of_not_merged hblank hpresent]
            · rw [read_laidOver hblank fun _ => hread, alone, read_laidOver hblank fun _ => hread]
          rw [halone]
          rfl

end Reading

end Setting

end TreeShape
