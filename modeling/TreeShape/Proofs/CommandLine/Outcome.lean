import TreeShape.CommandLine.Run
import TreeShape.Proofs.Checker.Conforming
import TreeShape.Proofs.CommandLine.Arguments
import TreeShape.Proofs.Position.Decode
import TreeShape.Proofs.Settings.Overrides
import TreeShape.Yaml.Document
/- How a `check` command ends: with the error of the first step that fails, or with one report and a
status that tells whether the tree conforms. -/
namespace TreeShape

namespace Report

variable {r : Report}

end Report

namespace CommandLine

open Settings (Layer told?)

variable {readYaml : YamlReader} {files : Files} {path : String} {given : Given}

/-- What a check works on. -/
structure Inputs where
  settings : Settings
  tree : Json
  source : Option String

/-- The report that the inputs give. -/
def Inputs.report (i : Inputs) : Report :=
  Checker.check ⟨i.settings.checker, i.source.map .ofText⟩ i.tree

section

variable {words : List String}

end

end CommandLine

end TreeShape
