import Mathlib.Data.List.Forall2
import TreeShape.Proofs.Settings.Layers
/- Files of settings that need not be there. Whether a file is required makes no difference if it can
be read as text. If it cannot it is passed over unless it is required, even where it is there. -/
namespace TreeShape

namespace Settings

/-- Where the file by a name is: at the name itself, or else with `.toml` after it. -/
def fileAt (files : Files) (name : String) : String :=
  if files.isFile name then name else tomlPath name

/-- A layer as it was, or a file by the name that is no longer required. -/
inductive Layer.Eased (name : String) : Layer → Layer → Prop
  | same {layer : Layer} : Eased name layer layer
  | file : Eased name (.file name true) (.file name false)

/-- A file by the name that need not be there. -/
def Layer.isOptional (name : String) : Layer → Bool
  | .file other required => other = name && !required
  | .override _ _ => false

variable {files : Files} {name : String} {layers others : List Layer} {bytes : ByteArray}

theorem fileText?_eq (hfile : files.read (fileAt files name) = .ok bytes) :
    fileText? files name = String.fromUTF8? bytes := by
  have hpath : fileText? files name = (files.readText (fileAt files name)).toOption := rfl
  simp only [hpath, Files.readText, hfile, bind, Except.bind]
  cases String.fromUTF8? bytes with
  | none => rfl
  | some text => rfl

theorem isSome_fromUTF8?_iff : (String.fromUTF8? bytes).isSome ↔ bytes.IsValidUTF8 := by
  by_cases h : bytes.IsValidUTF8
  · simp [String.fromUTF8?, h]
  · simp [String.fromUTF8?, h]

theorem fileEntries?_of_text (htext : (fileText? files name).isSome) :
    fileEntries? files name false = fileEntries? files name true := by
  obtain ⟨text, htext⟩ := Option.isSome_iff_exists.mp htext
  rw [fileEntries?, fileEntries?, htext]

theorem fileEntries?_of_not_text (htext : fileText? files name = none) (required : Bool) :
    fileEntries? files name required = if required then none else some [] := by
  rw [fileEntries?, htext]

/-- All that layers do is what the files make of any settings, and the single values. -/
theorem build_congr (hfiles : ∀ s, layFiles? files others s = layFiles? files layers s)
    (hvalues : others.filter (!·.isFile) = layers.filter (!·.isFile)) :
    build files others = build files layers := by
  have hlaid : ∀ s, layOverrides others s = layOverrides layers s := by
    intro s
    rw [← layOverrides_filter others, hvalues, layOverrides_filter]
  simp only [build, build?, hfiles, hlaid]

theorem overrides_eased (h : List.Forall₂ (Layer.Eased name) layers others) :
    others.filter (!·.isFile) = layers.filter (!·.isFile) := by
  induction h with
  | nil => rfl
  | cons hlayer _ ih =>
      cases hlayer with
      | same => rw [List.filter_cons, List.filter_cons, ih]
      | file => exact ih

theorem layFiles?_eased (htext : (fileText? files name).isSome)
    (h : List.Forall₂ (Layer.Eased name) layers others) (s : Setting) :
    layFiles? files others s = layFiles? files layers s := by
  induction h generalizing s with
  | nil => rfl
  | @cons layer other _ _ hlayer _ ih =>
      cases hlayer with
      | same =>
          cases layer with
          | file name required => simp only [layFiles?, ih]
          | override path value => exact ih s
      | file => simp only [layFiles?, fileEntries?_of_text htext, ih]

/-- Text is read whether or not the file is required. -/
theorem build_eased (htext : (fileText? files name).isSome)
    (h : List.Forall₂ (Layer.Eased name) layers others) : build files others = build files layers :=
  build_congr (layFiles?_eased htext h) (overrides_eased h)

theorem overrides_filter_isOptional (name : String) (layers : List Layer) :
    (layers.filter (!Layer.isOptional name ·)).filter (!·.isFile) = layers.filter (!·.isFile) := by
  rw [List.filter_filter]
  congr 1
  funext layer
  cases layer with
  | file other required => rfl
  | override path value => rfl

theorem layFiles?_filter_isOptional (htext : fileText? files name = none) (layers : List Layer)
    (s : Setting) :
    layFiles? files (layers.filter (!Layer.isOptional name ·)) s = layFiles? files layers s := by
  induction layers generalizing s with
  | nil => rfl
  | cons layer rest ih =>
      cases layer with
      | override path value => exact ih s
      | file other required =>
          rw [List.filter_cons]
          split
          · simp only [layFiles?, ih]
          · rename_i hdropped
            obtain ⟨rfl, rfl⟩ : other = name ∧ required = false := by
              simpa [Layer.isOptional] using hdropped
            rw [ih, layFiles?, fileEntries?_of_not_text htext]
            rfl

/-- A file that is not text is passed over where it is not required. -/
theorem build_filter_isOptional (htext : fileText? files name = none) (layers : List Layer) :
    build files (layers.filter (!Layer.isOptional name ·)) = build files layers :=
  build_congr (layFiles?_filter_isOptional htext layers) (overrides_filter_isOptional name layers)

theorem layFiles?_of_required (htext : fileText? files name = none)
    (h : Layer.file name true ∈ layers) (s : Setting) : layFiles? files layers s = none := by
  induction layers generalizing s with
  | nil => cases h
  | cons layer rest ih =>
      rcases List.mem_cons.mp h with rfl | hrest
      · rw [layFiles?, fileEntries?_of_not_text htext]
        rfl
      · cases layer with
        | override path value => exact ih hrest s
        | file other required =>
            rw [layFiles?]
            cases fileEntries? files other required with
            | none => rfl
            | some entries => exact ih hrest (s.layFile entries)

theorem build_of_required (htext : fileText? files name = none)
    (h : Layer.file name true ∈ layers) : build files layers = .error .settings := by
  rw [build_eq_error_iff, build?, layFiles?_of_required htext h]
  rfl

/-- If a file that is there is no longer required, the same settings are built provided that it is
text. One that is not is passed over: what was an error remains one only if it is one without the
file. -/
theorem optional_as_required_iff (hfile : files.read (fileAt files name) = .ok bytes)
    (hrequired : Layer.file name true ∈ layers)
    (heased : List.Forall₂ (Layer.Eased name) layers others) :
    (build files others = build files layers ↔ bytes.IsValidUTF8 ∨
        build files (others.filter (!Layer.isOptional name ·)) = .error .settings) ∧
      (¬ bytes.IsValidUTF8 → build files layers = .error .settings ∧
        build files others = build files (others.filter (!Layer.isOptional name ·))) := by
  rw [← isSome_fromUTF8?_iff, ← fileText?_eq hfile]
  cases htext : fileText? files name with
  | some text =>
      have hsome : (fileText? files name).isSome := Option.isSome_iff_exists.mpr ⟨text, htext⟩
      exact ⟨iff_of_true (build_eased hsome heased) (.inl rfl), fun h => absurd rfl h⟩
  | none =>
      have herror := build_of_required htext hrequired
      have hdropped := build_filter_isOptional htext others
      refine ⟨?_, fun _ => ⟨herror, hdropped.symm⟩⟩
      rw [herror, hdropped]
      exact ⟨.inr, fun h => h.resolve_left Bool.false_ne_true⟩

/-- Of two files one is not text, and the other is found with `.toml` after its name. -/
theorem optional_as_required_iff_two_files :
    let files : Files := ⟨fun path =>
      if path = "a.toml" then .ok ("[checker]\nrequire_positions = true\n# ".toUTF8.push 255)
      else if path = "b.toml" then .ok "[checker]\nwarnings_as_errors = true\n".toUTF8
      else .error .notFound⟩
    let format : Layer := .override [.key "output", .key "format"] (.string "json")
    build files [.file "b" true, format, .file "a.toml" true] = .error .settings ∧
      build files [.file "b" true, format, .file "a.toml" false] =
        .ok ⟨⟨false, true, true, true, true⟩, .json⟩ ∧
      build files [.file "b" false, format] = build files [.file "b" true, format] := by
  intro files format
  have hchecked : ¬ ("[checker]\nrequire_positions = true\n# ".toUTF8.push 255).IsValidUTF8 ∧
      build? files [.file "b" true, format] = some ⟨⟨false, true, true, true, true⟩, .json⟩ := by
    decide +kernel +revert
  obtain ⟨hbytes, hbuild⟩ := hchecked
  have hfile : files.read (fileAt files "a.toml") =
      .ok ("[checker]\nrequire_positions = true\n# ".toUTF8.push 255) := rfl
  have hother : files.read (fileAt files "b") =
      .ok "[checker]\nwarnings_as_errors = true\n".toUTF8 := rfl
  have heased : List.Forall₂ (Layer.Eased "a.toml") [.file "b" true, format, .file "a.toml" true]
      [.file "b" true, format, .file "a.toml" false] :=
    .cons .same (.cons .same (.cons .file .nil))
  obtain ⟨herror, hpassed⟩ := (optional_as_required_iff hfile
    (List.mem_cons_of_mem _ (List.mem_cons_of_mem _ List.mem_cons_self)) heased).2 hbytes
  have heased' : List.Forall₂ (Layer.Eased "b") [.file "b" true, format] [.file "b" false, format] :=
    .cons .file (.cons .same .nil)
  have hsame := (optional_as_required_iff hother List.mem_cons_self heased').1
  exact ⟨herror, hpassed.trans (build_eq_ok_iff.mpr hbuild), hsame.mpr (.inl (String.isValidUTF8 _))⟩

/-- A file that is there but is not text is passed over as if it were not there. -/
theorem optional_file_not_text_ignored :
    let files : Files := ⟨fun path =>
      if path = "a.toml" then .ok ("[checker]\nrequire_positions = true\n# ".toUTF8.push 255)
      else .error .notFound⟩
    files.isFile "a.toml" ∧ build files [.file "a.toml" true] = .error .settings ∧
      build files [.file "a.toml" false] = .ok default := by
  simp only [build_eq_ok_iff, build_eq_error_iff]
  decide +kernel

end Settings

end TreeShape
