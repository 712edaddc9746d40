import TreeShape.Proofs.Settings.Merging
/- Settings from layers of files and of values for single keys. For each key the last value that is
told decides, single values before those of files, and only the values that decide have to be
usable. -/
namespace TreeShape

namespace Settings

open Setting (valueAt? laidInTurn said Sets last? alone)

/-- The keys of the checker's options. -/
def flags : List String :=
  ["require_positions", "check_sibling_order", "check_containment", "report_hybrid_nodes",
    "warnings_as_errors"]

/-- The keys of the settings, each after its group. -/
def names : List (String × String) := flags.map (("checker", ·)) ++ [("output", "format")]

def Layer.isFile : Layer → Bool
  | .file _ _ => true
  | .override _ _ => false

/-- What a layer says for a key of a group if it is a file. -/
def Layer.fileValues (files : Files) (group key : String) : Layer → List Setting
  | .file name required => ((fileEntries? files name required).getD []).flatMap (said group key)
  | .override _ _ => []

/-- The value that decides for a key of a group: the last single value, as it is alone, or else the
last value of files, or else the default. A table without entries tells nothing. -/
def winner? (files : Files) (layers : List Layer) (group key : String) : Option Setting :=
  (((told? group key layers).filter (!·.isBlank)).map alone).or
    ((last? (layers.flatMap (Layer.fileValues files group key))).or (valueAt? group key base))

/-- A file that can be read, whose groups are tables, which has no table with entries for the format
and whose names are no paths into a group that lead to anything but a key of it, and which says at
most one value for each key, so that the order of its entries does not matter; or a value for a key
of the settings. -/
def Layer.Regular (files : Files) : Layer → Prop
  | .file name required => ∃ entries ∈ fileEntries? files name required,
      (∀ name ∈ names, (∀ entry ∈ entries, Sets name.1 entry) ∧
        (entries.flatMap (said name.1 name.2)).length ≤ 1) ∧
      ∀ value ∈ entries.flatMap (said "output" "format"), value.isMerged = false
  | .override path _ => ∃ name ∈ names, Setting.path? (name.1 ++ "." ++ name.2) = some path

instance (files : Files) (layer : Layer) : Decidable (layer.Regular files) :=
  match layer with
  | .file _ _ => inferInstanceAs (Decidable (∃ entries ∈ _, _))
  | .override _ _ => inferInstanceAs (Decidable (∃ name ∈ names, _))

/-- Settings are read from one value for each key. -/
structure Told (value? : String → String → Option Setting) (settings : Settings) : Prop where
  requirePositions : (value? "checker" "require_positions").bind bool? =
    some settings.checker.requirePositions
  checkSiblingOrder : (value? "checker" "check_sibling_order").bind bool? =
    some settings.checker.checkSiblingOrder
  checkContainment : (value? "checker" "check_containment").bind bool? =
    some settings.checker.checkContainment
  reportHybridNodes : (value? "checker" "report_hybrid_nodes").bind bool? =
    some settings.checker.reportHybridNodes
  warningsAsErrors : (value? "checker" "warnings_as_errors").bind bool? =
    some settings.checker.warningsAsErrors
  format : (value? "output" "format").bind format? = some settings.format

instance (value? : String → String → Option Setting) (settings : Settings) :
    Decidable (Told value? settings) :=
  decidable_of_iff
    ((value? "checker" "require_positions").bind bool? = some settings.checker.requirePositions ∧
      (value? "checker" "check_sibling_order").bind bool? =
        some settings.checker.checkSiblingOrder ∧
      (value? "checker" "check_containment").bind bool? = some settings.checker.checkContainment ∧
      (value? "checker" "report_hybrid_nodes").bind bool? =
        some settings.checker.reportHybridNodes ∧
      (value? "checker" "warnings_as_errors").bind bool? = some settings.checker.warningsAsErrors ∧
      (value? "output" "format").bind format? = some settings.format)
    ⟨fun ⟨hpositions, hsiblings, hcontainment, hhybrid, hwarnings, hformat⟩ =>
        ⟨hpositions, hsiblings, hcontainment, hhybrid, hwarnings, hformat⟩,
      fun ⟨hpositions, hsiblings, hcontainment, hhybrid, hwarnings, hformat⟩ =>
        ⟨hpositions, hsiblings, hcontainment, hhybrid, hwarnings, hformat⟩⟩

variable {files : Files} {layers : List Layer}

theorem lowerKey_of_mem_names {name : String × String} (h : name ∈ names) :
    Setting.lowerKey name.1 = name.1 ∧ Setting.lowerKey name.2 = name.2 := by
  have hall : ∀ name ∈ names,
      Setting.lowerKey name.1 = name.1 ∧ Setting.lowerKey name.2 = name.2 := by decide +kernel
  exact hall name h

theorem path?_of_mem_names {name : String × String} (h : name ∈ names) :
    Setting.path? (name.1 ++ "." ++ name.2) = some [.key name.1, .key name.2] := by
  have hall : ∀ name ∈ names,
      Setting.path? (name.1 ++ "." ++ name.2) = some [.key name.1, .key name.2] := by decide +kernel
  exact hall name h

theorem Layer.Regular.single {layer : Layer} (h : layer.Regular files) : layer.Single := by
  cases layer with
  | file name required => exact .file name required
  | override path value =>
      obtain ⟨name, hname, hpath⟩ := h
      cases hpath.symm.trans (path?_of_mem_names hname)
      exact .override (lowerKey_of_mem_names hname).1 (lowerKey_of_mem_names hname).2

/-- No file has a table with entries for the format. -/
theorem Layer.Regular.isMerged {layer : Layer} (h : layer.Regular files) {value : Setting}
    (hvalue : value ∈ layer.fileValues files "output" "format") : value.isMerged = false := by
  cases layer with
  | file name required =>
      obtain ⟨entries, hread, -, hformat⟩ := h
      rw [Layer.fileValues, hread] at hvalue
      exact hformat value hvalue
  | override path value => cases hvalue

/-- Files lay their values for a key over the value it has, in order. -/
theorem exists_layFiles? (hlayers : ∀ layer ∈ layers, layer.Regular files) (s : Setting) :
    ∃ s', layFiles? files layers s = some s' ∧ ∀ name ∈ names,
      valueAt? name.1 name.2 s' = laidInTurn (valueAt? name.1 name.2 s)
        (layers.flatMap (Layer.fileValues files name.1 name.2)) := by
  induction layers generalizing s with
  | nil => exact ⟨s, rfl, fun _ _ => rfl⟩
  | cons layer rest ih =>
      rw [List.forall_mem_cons] at hlayers
      cases layer with
      | file name required =>
          obtain ⟨entries, hread, hnamed, -⟩ := hlayers.1
          rw [Option.mem_def] at hread
          obtain ⟨s', hs', hvalues⟩ := ih hlayers.2 (s.layFile entries)
          refine ⟨s', ?_, fun key hkey => ?_⟩
          · rw [layFiles?, hread]
            exact hs'
          · rw [hvalues key hkey, Setting.valueAt?_layFile (hnamed key hkey).1, List.flatMap_cons,
              Setting.laidInTurn_append, Layer.fileValues, hread, Option.getD_some]
      | override path value => exact ih hlayers.2 s

theorem exists_default {name : String × String} (hname : name ∈ names) :
    ∃ value, valueAt? name.1 name.2 base = some value ∧ value.isMerged = false := by
  have hall : ∀ name ∈ names,
      (valueAt? name.1 name.2 base).any (fun value => !value.isMerged) = true := by decide
  obtain ⟨value, hvalue, hmerged⟩ := (Option.any_eq_true _ _).mp (hall name hname)
  exact ⟨value, hvalue, by simpa using hmerged⟩

/-- Values of files are laid over the default of a key, and over them the last single value. -/
theorem exists_valueAt?_layers (hlayers : ∀ layer ∈ layers, layer.Regular files) {s : Setting}
    (hfiles : layFiles? files layers base = some s) {name : String × String} (hname : name ∈ names) :
    ∃ default present, valueAt? name.1 name.2 base = some default ∧ default.isMerged = false ∧
      laidInTurn (some default) (layers.flatMap (Layer.fileValues files name.1 name.2)) =
        some present ∧
      valueAt? name.1 name.2 (layOverrides layers s) =
        some (((told? name.1 name.2 layers).map (·.laidOver (some present))).getD present) := by
  obtain ⟨s', hs', hvalues⟩ := exists_layFiles? hlayers base
  obtain rfl : s' = s := Option.some.inj (hs'.symm.trans hfiles)
  obtain ⟨default, hdefault, hplain⟩ := exists_default hname
  obtain ⟨present, hpresent⟩ := Setting.exists_laidInTurn default
    (layers.flatMap (Layer.fileValues files name.1 name.2))
  refine ⟨default, present, hdefault, hplain, hpresent, ?_⟩
  rw [valueAt?_layOverrides (fun layer hlayer => (hlayers layer hlayer).single),
    hvalues name hname, hdefault, hpresent]
  cases told? name.1 name.2 layers with
  | none => rfl
  | some value => rfl

/-- What the layers make of a key is read as the value that decides for it. -/
theorem read_layers {α : Type} {read : Setting → Option α}
    (hlayers : ∀ layer ∈ layers, layer.Regular files) {s : Setting}
    (hfiles : layFiles? files layers base = some s) {name : String × String} (hname : name ∈ names)
    (hread : name = ("output", "format") ∨ ∀ entries, read (.table entries) = none) :
    (valueAt? name.1 name.2 (layOverrides layers s)).bind read =
      (winner? files layers name.1 name.2).bind read := by
  obtain ⟨default, present, hdefault, hplain, hpresent, hvalue⟩ :=
    exists_valueAt?_layers hlayers hfiles hname
  have hformat : name = ("output", "format") →
      ∀ value ∈ layers.flatMap (Layer.fileValues files name.1 name.2), value.isMerged = false := by
    rintro rfl value hvalue
    obtain ⟨layer, hlayer, hvalue⟩ := List.mem_flatMap.mp hvalue
    exact (hlayers layer hlayer).isMerged hvalue
  have hbelow : read present =
      ((last? (layers.flatMap (Layer.fileValues files name.1 name.2))).or (some default)).bind
        read := by
    rw [← Setting.read_laidInTurn _ default, hpresent, Option.bind_some]
    intro value hvalue hmerged
    rcases hread with hname | hread
    · rw [hformat hname value hvalue] at hmerged
      cases hmerged
    · exact hread
  have htold := Setting.read_told (told? name.1 name.2 layers)
    (hread.imp_left fun hname => Setting.isMerged_laidInTurn (hformat hname) hplain hpresent)
  rw [hvalue, Option.bind_some, htold, winner?, hdefault]
  cases ((told? name.1 name.2 layers).filter (!·.isBlank)).map alone with
  | none => exact hbelow
  | some value => rfl

/-- Where every key has a value, settings are told by these values. -/
theorem ofSetting?_eq_some_iff {s : Setting} {settings : Settings}
    (hvalues : ∀ name ∈ names, ∃ value, valueAt? name.1 name.2 s = some value) :
    ofSetting? s = some settings ↔ Told (fun group key => valueAt? group key s) settings := by
  have hfield : ∀ name ∈ names, ∀ index inner, Entries.get? name.1 s.entries = some inner →
      field? index name.2 inner = valueAt? name.1 name.2 s := by
    intro name hname index inner hinner
    obtain ⟨value, hvalue⟩ := hvalues name hname
    rw [hvalue]
    exact field?_of_valueAt? index hinner hvalue
  obtain ⟨flag, hflag⟩ := hvalues ("checker", "require_positions") (by decide)
  obtain ⟨format, hformat⟩ := hvalues ("output", "format") (by decide)
  obtain ⟨checker, hchecker, -⟩ := Option.bind_eq_some_iff.mp hflag
  obtain ⟨output, houtput, -⟩ := Option.bind_eq_some_iff.mp hformat
  have hpositions := hfield ("checker", "require_positions") (by decide) 0 checker hchecker
  have hsiblings := hfield ("checker", "check_sibling_order") (by decide) 1 checker hchecker
  have hcontainment := hfield ("checker", "check_containment") (by decide) 2 checker hchecker
  have hhybrid := hfield ("checker", "report_hybrid_nodes") (by decide) 3 checker hchecker
  have hwarnings := hfield ("checker", "warnings_as_errors") (by decide) 4 checker hchecker
  have hname := hfield ("output", "format") (by decide) 0 output houtput
  constructor
  · intro h
    obtain ⟨_, _, hchecker', houtput', hfields⟩ := ofSetting?_fields h
    cases Option.some.inj (hchecker.symm.trans hchecker')
    cases Option.some.inj (houtput.symm.trans houtput')
    rw [hpositions, hsiblings, hcontainment, hhybrid, hwarnings, hname] at hfields
    obtain ⟨hpositions, hsiblings, hcontainment, hhybrid, hwarnings, hname⟩ := hfields
    exact ⟨hpositions, hsiblings, hcontainment, hhybrid, hwarnings, hname⟩
  · intro h
    simp only [ofSetting?, hchecker, houtput, hpositions, hsiblings, hcontainment, hhybrid,
      hwarnings, hname, h.requirePositions, h.checkSiblingOrder, h.checkContainment,
      h.reportHybridNodes, h.warningsAsErrors, h.format, Option.bind_eq_bind, Option.bind_some,
      Option.pure_def]

/-- Settings can be told unless a value is not usable. -/
theorem exists_told_iff {value? : String → String → Option Setting} :
    (∃ settings, Told value? settings) ↔
      (∀ key ∈ flags, (value? "checker" key).bind bool? ≠ none) ∧
        (value? "output" "format").bind format? ≠ none := by
  simp only [flags, List.forall_mem_cons, List.not_mem_nil, false_imp_iff, implies_true, and_true,
    Option.ne_none_iff_exists']
  constructor
  · rintro ⟨settings, hpositions, hsiblings, hcontainment, hhybrid, hwarnings, hformat⟩
    exact ⟨⟨⟨_, hpositions⟩, ⟨_, hsiblings⟩, ⟨_, hcontainment⟩, ⟨_, hhybrid⟩, ⟨_, hwarnings⟩⟩,
      ⟨_, hformat⟩⟩
  · rintro ⟨⟨⟨positions, hpositions⟩, ⟨siblings, hsiblings⟩, ⟨containment, hcontainment⟩,
      ⟨hybrid, hhybrid⟩, ⟨warnings, hwarnings⟩⟩, ⟨format, hformat⟩⟩
    exact ⟨⟨⟨positions, siblings, containment, hybrid, warnings⟩, format⟩, hpositions, hsiblings,
      hcontainment, hhybrid, hwarnings, hformat⟩

/-- Values that are read alike tell the same settings. -/
theorem Told.of_read {value? other? : String → String → Option Setting} {settings : Settings}
    (hflags : ∀ key ∈ flags, (value? "checker" key).bind bool? = (other? "checker" key).bind bool?)
    (hformat : (value? "output" "format").bind format? = (other? "output" "format").bind format?)
    (h : Told value? settings) : Told other? settings where
  requirePositions := (hflags "require_positions" (by decide)).symm.trans h.requirePositions
  checkSiblingOrder := (hflags "check_sibling_order" (by decide)).symm.trans h.checkSiblingOrder
  checkContainment := (hflags "check_containment" (by decide)).symm.trans h.checkContainment
  reportHybridNodes := (hflags "report_hybrid_nodes" (by decide)).symm.trans h.reportHybridNodes
  warningsAsErrors := (hflags "warnings_as_errors" (by decide)).symm.trans h.warningsAsErrors
  format := hformat.symm.trans h.format

theorem mem_names_of_mem_flags {key : String} (h : key ∈ flags) : ("checker", key) ∈ names :=
  List.mem_append_left _ (List.mem_map_of_mem h)

theorem build_eq_ok_iff {settings : Settings} :
    build files layers = .ok settings ↔ build? files layers = some settings := by
  unfold build
  cases build? files layers with
  | none => simp
  | some built => simp

/-- Settings are read from the value that decides for each key. -/
theorem build_eq_ok_iff_told (hlayers : ∀ layer ∈ layers, layer.Regular files)
    (settings : Settings) :
    build files layers = .ok settings ↔ Told (winner? files layers) settings := by
  obtain ⟨s, hfiles, -⟩ := exists_layFiles? hlayers base
  have hvalues : ∀ name ∈ names,
      ∃ value, valueAt? name.1 name.2 (layOverrides layers s) = some value := by
    intro name hname
    obtain ⟨_, _, -, -, -, hvalue⟩ := exists_valueAt?_layers hlayers hfiles hname
    exact ⟨_, hvalue⟩
  have hflags : ∀ key ∈ flags,
      (valueAt? "checker" key (layOverrides layers s)).bind bool? =
        (winner? files layers "checker" key).bind bool? := fun key hkey =>
    read_layers hlayers hfiles (mem_names_of_mem_flags hkey) (.inr fun _ => rfl)
  have hname : ("output", "format") ∈ names := by decide
  have hformat : (valueAt? "output" "format" (layOverrides layers s)).bind format? =
      (winner? files layers "output" "format").bind format? :=
    read_layers hlayers hfiles hname (.inl rfl)
  have hbuild : build? files layers = ofSetting? (layOverrides layers s) := by
    simp only [build?, hfiles, Option.bind_eq_bind, Option.bind_some]
  rw [build_eq_ok_iff, hbuild, ofSetting?_eq_some_iff hvalues]
  exact ⟨.of_read hflags hformat, .of_read (fun key hkey => (hflags key hkey).symm) hformat.symm⟩

theorem build_eq_error_iff :
    build files layers = .error .settings ↔ build? files layers = none := by
  unfold build
  cases build? files layers with
  | none => simp
  | some built => simp

theorem layFiles?_filter (layers : List Layer) (s : Setting) :
    layFiles? files (layers.filter Layer.isFile) s = layFiles? files layers s := by
  induction layers generalizing s with
  | nil => rfl
  | cons layer rest ih =>
      cases layer with
      | file name required =>
          simp only [List.filter_cons, Layer.isFile, if_true, layFiles?, ih]
      | override path value => exact ih s

theorem any_isFor_filter (path : List Setting.Step) (layers : List Layer) :
    (layers.filter (!·.isFile)).any (Layer.isFor path) = layers.any (Layer.isFor path) := by
  rw [List.any_filter]
  congr 1
  funext layer
  cases layer with
  | file name required => rfl
  | override other value => rfl

theorem layOverrides_filter (layers : List Layer) (s : Setting) :
    layOverrides (layers.filter (!·.isFile)) s = layOverrides layers s := by
  induction layers generalizing s with
  | nil => rfl
  | cons layer rest ih =>
      cases layer with
      | file name required => exact ih s
      | override path value =>
          rw [List.filter_cons_of_pos rfl, layOverrides, layOverrides, any_isFor_filter, ih, ih]

/-- How files and single values are interleaved does not matter. -/
theorem build_interleaved {other : List Layer}
    (hfiles : other.filter Layer.isFile = layers.filter Layer.isFile)
    (hvalues : other.filter (!·.isFile) = layers.filter (!·.isFile)) :
    build files other = build files layers := by
  have hbuild : build? files other = build? files layers := by
    unfold build?
    rw [← layFiles?_filter other, hfiles, layFiles?_filter]
    simp only [← layOverrides_filter other, hvalues, layOverrides_filter]
  rw [build, build, hbuild]

/-- The last value that is told for a key decides: of single values first, then of files, then the
default. Settings cannot be built only if a value that decides is not usable, and how files and
single values are interleaved does not matter. -/
theorem build_last_told (hlayers : ∀ layer ∈ layers, layer.Regular files) :
    (∀ settings, build files layers = .ok settings ↔ Told (winner? files layers) settings) ∧
      (build files layers = .error .settings ↔
        (∃ key ∈ flags, (winner? files layers "checker" key).bind bool? = none) ∨
          (winner? files layers "output" "format").bind format? = none) ∧
      ∀ other, other.filter Layer.isFile = layers.filter Layer.isFile →
        other.filter (!·.isFile) = layers.filter (!·.isFile) →
          build files other = build files layers := by
  refine ⟨build_eq_ok_iff_told hlayers, ?_, fun other => build_interleaved⟩
  have herror : build files layers = .error .settings ↔
      ¬ ∃ settings, Told (winner? files layers) settings := by
    simp only [build_eq_error_iff, Option.eq_none_iff_forall_ne_some, ne_eq, ← build_eq_ok_iff,
      build_eq_ok_iff_told hlayers, not_exists]
  simp only [herror, exists_told_iff, ne_eq, Classical.not_and_iff_not_or_not, Classical.not_forall,
    Classical.not_not, exists_prop]

/-- A value for the format hides one of a file that is not usable, wherever the file comes. -/
theorem build_last_told_hidden :
    let files : Files := ⟨fun path =>
      if path = "a.toml" then
        .ok "[checker]\nrequire_positions = 7\n[output]\nformat = \"xml\"\n".toUTF8
      else .error .notFound⟩
    let format : Layer := .override [.key "output", .key "format"] (.string "json")
    (∀ layer ∈ [format, .file "a.toml" true, .file "b.toml" false], layer.Regular files) ∧
      build files [format, .file "a.toml" true, .file "b.toml" false] =
        .ok ⟨⟨true, true, true, true, false⟩, .json⟩ ∧
      build files [.file "a.toml" true, format, .file "b.toml" false] =
        .ok ⟨⟨true, true, true, true, false⟩, .json⟩ ∧
      build files [.file "a.toml" true] = .error .settings := by
  intro files format
  have hchecked : (∀ layer ∈ [format, .file "a.toml" true, .file "b.toml" false],
        layer.Regular files) ∧
      Told (winner? files [format, .file "a.toml" true, .file "b.toml" false])
        ⟨⟨true, true, true, true, false⟩, .json⟩ ∧
      (winner? files [.file "a.toml" true] "output" "format").bind format? = none := by
    decide +kernel +revert
  obtain ⟨hlayers, htold, hunusable⟩ := hchecked
  have hfile : ∀ layer ∈ [Layer.file "a.toml" true], layer.Regular files :=
    List.forall_mem_singleton.mpr (hlayers _ (List.mem_cons_of_mem _ List.mem_cons_self))
  obtain ⟨hok, -, hinterleaved⟩ := build_last_told hlayers
  have hbuild := (hok _).mpr htold
  have hmoved := hinterleaved [.file "a.toml" true, format, .file "b.toml" false] rfl rfl
  exact ⟨hlayers, hbuild, hmoved.trans hbuild, (build_last_told hfile).2.1.mpr (.inr hunusable)⟩

/-- The last value that is told need not decide: a table without entries changes nothing, even where
it takes the place of another value, and a name can read as a path into a group. -/
theorem last_told_not_decisive :
    let files : Files := ⟨fun path =>
      if path = "a.toml" then .ok "[checker.require_positions]\n".toUTF8
      else .ok "\"output[0]\" = \"json\"\n".toUTF8⟩
    let format (value : Setting) : Layer := .override [.key "output", .key "format"] value
    ((Layer.fileValues files "checker" "require_positions" (.file "a.toml" true)).map bool? =
          [none] ∧
        build files [.file "a.toml" true] = .ok default) ∧
      (format? (.table []) = none ∧
        build files [format (.string "json"), format (.table [])] = .ok default) ∧
      (fileEntries? files "b.toml" true).map Entries.keys = some ["output[0]"] ∧
        build files [.file "b.toml" true] = .ok ⟨.default, .json⟩ := by
  simp only [build_eq_ok_iff]
  decide +kernel

end Settings

end TreeShape
