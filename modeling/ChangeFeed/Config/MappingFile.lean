import ChangeFeed.File
import ChangeFeed.Routing
import ChangeFeed.Yaml.Mapping

/-!
# Mapping files — targets of captured tables, in YAML

A mapping file is a YAML mapping from identities to targets. A file that is
blank maps nothing, and an identity that is repeated has its last target.
-/

namespace ChangeFeed

/-- Why a mapping file gives no map. The path is the file's. -/
inductive MappingFileFault where
  | unreadable (path : Text) (cause : FileFault)
  | unparsable (path : Text)
deriving Repr, DecidableEq

/-- The message for a mapping file that gives no map. -/
def MappingFileFault.message : MappingFileFault → Text
  | unreadable path cause =>
    "Failed to read table mapping file: ".toList ++ path ++ ": ".toList ++ cause.message
  | unparsable path => "Failed to parse table mapping file: ".toList ++ path

namespace MappingFile

/-- The map that a text writes. -/
def parse? (content : Text) : Option TargetMap :=
  if content.isBlank then some []
  else (Yaml.mapping? content).map fun entries => TargetMap.putAll entries []

/-- **The map of a file**, given what reading the file came to. -/
def decode (path : Text) : Except FileFault Bytes → Except MappingFileFault TargetMap
  | .error cause => .error (.unreadable path cause)
  | .ok bytes =>
    match bytes.text? with
    | none => .error (.unreadable path .notText)
    | some content =>
      match parse? content with
      | none => .error (.unparsable path)
      | some map => .ok map

end MappingFile

end ChangeFeed
