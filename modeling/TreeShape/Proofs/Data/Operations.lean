import Mathlib.Data.Finmap
import TreeShape.Proofs.Json.Entries
import TreeShape.Proofs.Node.Tree
/- Data under operations: whatever is done to them, data are a finite map from keys to values that
does not have the reserved key, and an operation that would set it changes nothing. -/
namespace TreeShape

namespace Data

/-- A finite map from keys to values. -/
abbrev Values := Finmap fun _ : String => Json

/-- Data show the entries of a map, in increasing order of keys. -/
structure Shows (d : Data) (m : Values) : Prop where
  get? : ∀ key, d.get? key = m.lookup key
  mem_entries : ∀ key value, (key, value) ∈ d.entries ↔ m.lookup key = some value
  keys : d.keys = d.entries.map (·.1)
  increasing : d.keys.Pairwise (· < ·)
  size : d.size = m.keys.card

/-- Something done to data: a value is set, a key is dropped, or entries take the place of all. -/
inductive Operation where
  | insert (key : String) (value : Json)
  | insertWith (key : String) (value : Json)
  | erase (key : String)
  | ofEntries (entries : List (String × Json))

/-- What an operation gives: the value that the key had, nothing, or the cause of its refusal. -/
inductive Answer where
  | previous (value : Option Json)
  | done
  | refused (cause : ShapeError)

/-- The answer to an operation, and the data after it. Entries that cannot take the place of the data
make none, so that those from before stay. -/
def perform (d : Data) : Operation → Answer × Data
  | .insert key value =>
    match d.insert key value with
    | (.ok previous, changed) => (.previous previous, changed)
    | (.error cause, changed) => (.refused cause, changed)
  | .insertWith key value =>
    match d.insertWith key value with
    | (.ok (), changed) => (.done, changed)
    | (.error cause, changed) => (.refused cause, changed)
  | .erase key => (.previous (d.erase key).1, (d.erase key).2)
  | .ofEntries entries =>
    match ofEntries entries with
    | .ok made => (.done, made)
    | .error cause => (.refused cause, d)

/-- The data after operations, one after the other. -/
def performAll (d : Data) (operations : List Operation) : Data :=
  operations.foldl (fun d operation => (d.perform operation).2) d

namespace Operation

/-- An operation that would set the reserved key. -/
def Reserved : Operation → Prop
  | insert key _ => key = "space"
  | insertWith key _ => key = "space"
  | erase _ => False
  | ofEntries entries => "space" ∈ Entries.keys entries

instance (operation : Operation) : Decidable operation.Reserved :=
  match operation with
  | insert key _ => inferInstanceAs (Decidable (key = "space"))
  | insertWith key _ => inferInstanceAs (Decidable (key = "space"))
  | erase _ => inferInstanceAs (Decidable False)
  | ofEntries entries => inferInstanceAs (Decidable ("space" ∈ Entries.keys entries))

/-- What an operation answers and does if it is one on a map. -/
def onMap (m : Values) : Operation → Answer × Values
  | insert key value => (.previous (m.lookup key), m.insert key value)
  | insertWith key value => (.done, m.insert key value)
  | erase key => (.previous (m.lookup key), m.erase key)
  | ofEntries entries => (.done, entries.foldl (fun m entry => m.insert entry.1 entry.2) ∅)

end Operation

/-- The map after operations, of which those that would set the reserved key are left out. -/
def mapAfter (m : Values) (operations : List Operation) : Values :=
  operations.foldl (fun m operation => if operation.Reserved then m else (operation.onMap m).2) m

variable {d : Data} {m : Values} {key : String} {value : Json} {entries : List (String × Json)}
  {operation : Operation}

theorem shows_iff :
    Shows ⟨entries⟩ m ↔ Entries.Sorted entries ∧ ∀ key, Entries.get? key entries = m.lookup key := by
  constructor
  · intro h
    exact ⟨h.increasing, h.get?⟩
  · rintro ⟨hsorted, hget⟩
    refine ⟨hget, ?_, rfl, hsorted, ?_⟩
    · intro key value
      rw [← hget, hsorted.get?_eq_some_iff]
    · have hkeys : (Entries.keys entries).toFinset = m.keys := by
        ext key
        rw [List.mem_toFinset, Entries.mem_keys_iff, hget, Finmap.mem_keys, ne_eq,
          Finmap.lookup_eq_none, not_not]
      have hdistinct : (Entries.keys entries).Nodup := hsorted.imp fun hlt => String.ne_of_lt hlt
      have hlength : (Entries.keys entries).length = entries.length := List.length_map _
      rw [← hkeys, List.toFinset_card_of_nodup hdistinct, hlength]
      rfl

theorem shows_empty : Shows empty ∅ :=
  shows_iff.mpr ⟨Entries.sorted_nil, fun _ => rfl⟩

theorem Shows.insert (h : Shows ⟨entries⟩ m) (key : String) (value : Json) :
    Shows ⟨Entries.insert key value entries⟩ (m.insert key value) := by
  obtain ⟨hsorted, hget⟩ := shows_iff.mp h
  refine shows_iff.mpr ⟨hsorted.insert, fun other => ?_⟩
  by_cases hother : other = key
  · rw [hother, Entries.get?_insert_self, Finmap.lookup_insert]
  · rw [Entries.get?_insert_of_ne hother, Finmap.lookup_insert_of_ne _ hother, hget]

theorem Shows.erase (h : Shows ⟨entries⟩ m) (key : String) :
    Shows ⟨Entries.erase key entries⟩ (m.erase key) := by
  obtain ⟨hsorted, hget⟩ := shows_iff.mp h
  refine shows_iff.mpr ⟨hsorted.filter _, fun other => ?_⟩
  by_cases hother : other = key
  · rw [hother, Entries.get?_erase_self, Finmap.lookup_erase]
  · rw [Entries.get?_erase_of_ne hother, Finmap.lookup_erase_ne hother, hget]

/-- Entries that are set one after the other are those of the map in which they are set so. -/
theorem shows_ofList (entries : List (String × Json)) :
    Shows ⟨Entries.ofList entries⟩
      (entries.foldl (fun m entry => m.insert entry.1 entry.2) ∅) := by
  have hfold : ∀ {sorted : List (String × Json)} {m : Values}, Shows ⟨sorted⟩ m →
      Shows ⟨entries.foldl (fun sorted entry => Entries.insert entry.1 entry.2 sorted) sorted⟩
        (entries.foldl (fun m entry => m.insert entry.1 entry.2) m) := by
    induction entries with
    | nil => exact id
    | cons entry rest ih => exact fun h => ih (h.insert entry.1 entry.2)
  exact hfold shows_empty

theorem insert_of_ne (hkey : key ≠ "space") (d : Data) (value : Json) :
    d.insert key value = (.ok (d.get? key), ⟨Entries.insert key value d.entries⟩) := by
  have hfree : isReserved key = false := beq_eq_false_iff_ne.mpr hkey
  rw [insert, hfree]
  rfl

theorem insertWith_of_ne (hkey : key ≠ "space") (d : Data) (value : Json) :
    d.insertWith key value = (.ok (), ⟨Entries.insert key value d.entries⟩) := by
  rw [insertWith, insert_of_ne hkey]
  rfl

theorem ofEntries_of_mem (h : "space" ∈ Entries.keys entries) :
    ofEntries entries = .error (.reservedDataKey "space") := by
  have hcontains : contains ⟨Entries.ofList entries⟩ reservedKey = true :=
    Option.isSome_iff_ne_none.mpr fun hnone => Entries.get?_ofList_eq_none_iff.mp hnone h
  simp only [ofEntries, validate, hcontains, if_true]
  rfl

theorem ofEntries_of_notMem (h : "space" ∉ Entries.keys entries) :
    ofEntries entries = .ok ⟨Entries.ofList entries⟩ := by
  have hvalid : validate ⟨Entries.ofList entries⟩ = .ok () :=
    validate_eq_ok_iff.mpr (Entries.get?_ofList_eq_none_iff.mpr h)
  simp only [ofEntries, hvalid]
  rfl

/-- An operation that would set the reserved key changes nothing. -/
theorem perform_of_reserved (h : operation.Reserved) (d : Data) :
    d.perform operation = (.refused (.reservedDataKey "space"), d) := by
  cases operation with
  | insert key value =>
      cases show key = "space" from h
      rfl
  | insertWith key value =>
      cases show key = "space" from h
      rfl
  | erase key => cases h
  | ofEntries entries => rw [perform, ofEntries_of_mem h]

/-- Any other operation answers and does what it does on the map that data show. -/
theorem perform_of_not_reserved (h : ¬ operation.Reserved) (hd : d.Shows m) :
    (d.perform operation).1 = (operation.onMap m).1 ∧
      (d.perform operation).2.Shows (operation.onMap m).2 := by
  cases operation with
  | insert key value =>
      rw [perform, insert_of_ne h]
      exact ⟨congrArg Answer.previous (hd.get? key), hd.insert key value⟩
  | insertWith key value =>
      rw [perform, insertWith_of_ne h]
      exact ⟨rfl, hd.insert key value⟩
  | erase key => exact ⟨congrArg Answer.previous (hd.get? key), hd.erase key⟩
  | ofEntries entries =>
      rw [perform, ofEntries_of_notMem h]
      exact ⟨rfl, shows_ofList entries⟩

/-- No operation on a map that would not set the reserved key brings it in. -/
theorem lookup_onMap (h : ¬ operation.Reserved) (hfree : m.lookup "space" = none) :
    (operation.onMap m).2.lookup "space" = none := by
  cases operation with
  | insert key value => exact (Finmap.lookup_insert_of_ne m (Ne.symm h)).trans hfree
  | insertWith key value => exact (Finmap.lookup_insert_of_ne m (Ne.symm h)).trans hfree
  | erase key =>
      by_cases hkey : "space" = key
      · exact hkey ▸ Finmap.lookup_erase "space" m
      · exact (Finmap.lookup_erase_ne hkey).trans hfree
  | ofEntries entries =>
      have hnone := Entries.get?_ofList_eq_none_iff.mpr h
      exact ((shows_ofList entries).get? "space").symm.trans hnone

/-- Operations keep data and a map together, and both free of the reserved key. -/
theorem Shows.performAll (hd : d.Shows m) (hfree : m.lookup "space" = none)
    (operations : List Operation) :
    (d.performAll operations).Shows (mapAfter m operations) ∧
      (mapAfter m operations).lookup "space" = none := by
  induction operations generalizing d m with
  | nil => exact ⟨hd, hfree⟩
  | cons operation rest ih =>
      rw [Data.performAll, mapAfter, List.foldl_cons, List.foldl_cons]
      by_cases h : operation.Reserved
      · rw [perform_of_reserved h, if_pos h]
        exact ih hd hfree
      · rw [if_neg h]
        exact ih (perform_of_not_reserved h hd).2 (lookup_onMap h hfree)

theorem onMap_ne_refused (operation : Operation) (m : Values) (cause : ShapeError) :
    (operation.onMap m).1 ≠ .refused cause := by
  cases operation with
  | insert key value => exact Answer.noConfusion
  | insertWith key value => exact Answer.noConfusion
  | erase key => exact Answer.noConfusion
  | ofEntries entries => exact Answer.noConfusion

/-- Whatever was done to data that were empty at first, they are valid and show the map on which the
same was done. Refused is what would set the reserved key, and it changes nothing; any other operation
answers and does what it does on the map. -/
theorem operations_on_data (operations : List Operation) :
    let d := empty.performAll operations
    let m := mapAfter ∅ operations
    (d.validate = .ok () ∧ d.get? "space" = none) ∧ d.Shows m ∧
      ∀ operation : Operation,
        ((∃ cause, (d.perform operation).1 = .refused cause) ↔ operation.Reserved) ∧
          (operation.Reserved → d.perform operation = (.refused (.reservedDataKey "space"), d)) ∧
          (¬ operation.Reserved →
            (d.perform operation).1 = (operation.onMap m).1 ∧
              (d.perform operation).2.Shows (operation.onMap m).2) := by
  intro d m
  obtain ⟨hshows, hfree⟩ : d.Shows m ∧ m.lookup "space" = none :=
    shows_empty.performAll (Finmap.lookup_empty _) operations
  have hnone : d.get? "space" = none := (hshows.get? "space").trans hfree
  refine ⟨⟨validate_eq_ok_iff.mpr hnone, hnone⟩, hshows, fun operation => ?_⟩
  refine ⟨⟨?_, ?_⟩, fun h => perform_of_reserved h d, fun h => perform_of_not_reserved h hshows⟩
  · rintro ⟨cause, hcause⟩
    apply Decidable.byContradiction
    intro h
    exact onMap_ne_refused operation m cause
      ((perform_of_not_reserved h hshows).1.symm.trans hcause)
  · intro h
    rw [perform_of_reserved h]
    exact ⟨_, rfl⟩

/-- Refusals leave no trace among other operations. -/
theorem operations_on_data_refused :
    let operations : List Operation :=
      [.insert "b" (.bool true), .ofEntries [("a", .null), ("space", .null)], .insertWith "a" .null,
        .insert "space" (.bool true), .insert "b" (.string "x")]
    let d : Data := ⟨[("a", .null), ("b", .string "x")]⟩
    empty.performAll operations = d ∧ d.validate = .ok () ∧
      d.perform (.insertWith "space" .null) = (.refused (.reservedDataKey "space"), d) ∧
      (d.perform (.erase "b")).1 = .previous (some (.string "x")) := by
  intro operations d
  have hrun : empty.performAll operations = d := rfl
  obtain ⟨⟨hvalid, -⟩, hshows, hperform⟩ := operations_on_data operations
  rw [hrun] at hvalid hshows hperform
  have hreserved : (Operation.insertWith "space" .null).Reserved := rfl
  have herase := (hperform (.erase "b")).2.2 not_false
  refine ⟨hrun, hvalid, (hperform _).2.1 hreserved, herase.1.trans ?_⟩
  exact congrArg Answer.previous (hshows.get? "b").symm

end Data

end TreeShape
