import TreeShape.Settings.Basic
/- What single values do to settings: the last one that is told for a key decides what the key has,
and keys for which none is told keep what the files say. -/
namespace TreeShape

namespace Setting

/-- What a key of a group has, in a group that is a table. -/
def valueAt? (group key : String) (s : Setting) : Option Setting :=
  (Entries.get? group s.entries).bind fun inner => Entries.get? key inner.entries

/-- What a value makes of what its key has: a table is laid over it, and all else replaces it. -/
def laidOver : Setting → Option Setting → Setting
  | .table incoming, present => overlay incoming (present.getD (.table []))
  | value, _ => value

theorem put_eq (key : String) (value : Setting) (target : List (String × Setting)) :
    put key value target =
      Entries.insert (lowerKey key) (value.laidOver (Entries.get? (lowerKey key) target)) target := by
  cases value <;> rfl

theorem valueAt?_putAt (name other : String) (value : Setting) (group key : String) (s : Setting) :
    valueAt? group key (putAt value [.key name, .key other] s) =
      if lowerKey name = group ∧ lowerKey other = key then
        some (value.laidOver (valueAt? group key s))
      else valueAt? group key s := by
  have hinner : Entries.get? key ((Entries.get? group s.entries).getD .absent).entries =
      valueAt? group key s := by
    unfold valueAt?
    cases Entries.get? group s.entries with
    | none => rfl
    | some inner => rfl
  have hentries : (putAt value [.key name, .key other] s).entries =
      Entries.insert (lowerKey name) (.table (put other value
        ((Entries.get? (lowerKey name) s.entries).getD .absent).entries)) s.entries := rfl
  rw [valueAt?, hentries]
  by_cases hname : lowerKey name = group
  · subst hname
    rw [Entries.get?_insert_self, Option.bind_some, entries, put_eq]
    by_cases hother : lowerKey other = key
    · subst hother
      rw [Entries.get?_insert_self, if_pos ⟨rfl, rfl⟩, hinner]
    · rw [Entries.get?_insert_of_ne (Ne.symm hother), if_neg fun h => hother h.2, hinner]
  · rw [Entries.get?_insert_of_ne (Ne.symm hname), if_neg fun h => hname h.1, valueAt?]

end Setting

namespace Settings

open Setting (lowerKey valueAt?)

/-- A file, or a value for one key of a group. -/
inductive Layer.Single : Layer → Prop
  | file (name : String) (required : Bool) : Single (.file name required)
  | override {group key : String} {value : Setting} (hgroup : lowerKey group = group)
      (hkey : lowerKey key = key) : Single (.override [.key group, .key key] value)

/-- The last value that layers tell for a key of a group. -/
def told? (group key : String) : List Layer → Option Setting
  | [] => none
  | .override [.key g, .key k] value :: rest =>
    (told? group key rest).or (if g = group ∧ k = key then some value else none)
  | _ :: rest => told? group key rest

theorem any_isFor (group key : String) (layers : List Layer) :
    layers.any (Layer.isFor [.key group, .key key]) = (told? group key layers).isSome := by
  fun_induction told? group key layers with
  | case1 => rfl
  | case2 name other value rest ih =>
      rw [List.any_cons, ih, Option.isSome_or, Bool.or_comm, Layer.isFor]
      congr 1
      by_cases hkey : name = group ∧ other = key
      · simp [hkey]
      · simp [hkey]
  | case3 layer rest hother ih =>
      have hnot : layer.isFor [.key group, .key key] = false := by
        cases layer with
        | file name required => rfl
        | override path value => exact decide_eq_false fun hpath => hother _ _ _ (by rw [hpath])
      rw [List.any_cons, hnot, Bool.false_or, ih]

/-- Of the values that are told for a key the last is laid over what the key has. -/
theorem valueAt?_layOverrides {layers : List Layer} (hlayers : ∀ layer ∈ layers, layer.Single)
    (group key : String) (s : Setting) :
    valueAt? group key (layOverrides layers s) =
      ((told? group key layers).map (·.laidOver (valueAt? group key s))).or
        (valueAt? group key s) := by
  induction layers generalizing s with
  | nil => rfl
  | cons layer rest ih =>
      rw [List.forall_mem_cons] at hlayers
      cases hlayers.1 with
      | file name required => exact ih hlayers.2 s
      | @override name other value hname hother =>
          rw [layOverrides, any_isFor, told?]
          -- For its own key the value counts unless a later one takes its place.
          by_cases hkey : name = group ∧ other = key
          · obtain ⟨rfl, rfl⟩ := hkey
            cases hlater : told? name other rest with
            | none =>
                rw [if_neg (by simp), ih hlayers.2, hlater, Setting.valueAt?_putAt, hname, hother]
                simp
            | some later => rw [if_pos (by simp), ih hlayers.2, hlater, Option.some_or]
          · have hkept : valueAt? group key (.putAt value [.key name, .key other] s) =
                valueAt? group key s := by
              rw [Setting.valueAt?_putAt, hname, hother, if_neg hkey]
            rw [if_neg hkey, Option.or_none]
            split
            · exact ih hlayers.2 s
            · rw [ih hlayers.2, hkept]

theorem field?_of_valueAt? {group key : String} {s inner value : Setting} (index : Nat)
    (hinner : Entries.get? group s.entries = some inner) (h : valueAt? group key s = some value) :
    field? index key inner = some value := by
  rw [valueAt?, hinner, Option.bind_some] at h
  cases inner with
  | table entries => exact h
  | absent => cases h
  | boolean value => cases h
  | integer value => cases h
  | float value => cases h
  | string value => cases h
  | list items => cases h

/-- Settings are told field by field. -/
theorem ofSetting?_fields {s : Setting} {settings : Settings} (h : ofSetting? s = some settings) :
    ∃ checker output, Entries.get? "checker" s.entries = some checker ∧
      Entries.get? "output" s.entries = some output ∧
      (field? 0 "require_positions" checker).bind bool? = some settings.checker.requirePositions ∧
      (field? 1 "check_sibling_order" checker).bind bool? =
        some settings.checker.checkSiblingOrder ∧
      (field? 2 "check_containment" checker).bind bool? = some settings.checker.checkContainment ∧
      (field? 3 "report_hybrid_nodes" checker).bind bool? =
        some settings.checker.reportHybridNodes ∧
      (field? 4 "warnings_as_errors" checker).bind bool? = some settings.checker.warningsAsErrors ∧
      (field? 0 "format" output).bind format? = some settings.format := by
  simp only [ofSetting?, Option.bind_eq_bind, Option.pure_def] at h
  obtain ⟨checker, hchecker, h⟩ := Option.bind_eq_some_iff.mp h
  obtain ⟨output, houtput, h⟩ := Option.bind_eq_some_iff.mp h
  obtain ⟨requirePositions, hpositions, h⟩ := Option.bind_eq_some_iff.mp h
  obtain ⟨siblingOrder, hsiblings, h⟩ := Option.bind_eq_some_iff.mp h
  obtain ⟨containment, hcontainment, h⟩ := Option.bind_eq_some_iff.mp h
  obtain ⟨hybridNodes, hhybrid, h⟩ := Option.bind_eq_some_iff.mp h
  obtain ⟨warnings, hwarnings, h⟩ := Option.bind_eq_some_iff.mp h
  obtain ⟨format, hformat, h⟩ := Option.bind_eq_some_iff.mp h
  cases h
  exact ⟨checker, output, hchecker, houtput, hpositions, hsiblings, hcontainment, hhybrid, hwarnings,
    hformat⟩

end Settings

end TreeShape
