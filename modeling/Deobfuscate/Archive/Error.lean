import Deobfuscate.FileTree.Path
import Deobfuscate.Text.Quoted

/-!
# What can go wrong with archives
-/

namespace Deobfuscate

/-- Why an archive could not be read or written. -/
inductive ArchiveError
  | cannotOpen (archive : Path)
  | notZip (archive : Path)
  | badEntry (index : Nat) (archive : Path)
  | unreadableEntry (name : String) (archive : Path)
  | unsupportedEntry (name : String) (archive : Path)
  | unreadableFile (path : Path)
  | escapes (name : String) (archive : Path)
  | cannotCreate (path : Path)
  | cannotExtract (path : Path)
  | cannotLoad (name : String) (archive : Path)
  | notText (name : String)
  | cannotCreateTemporary (directory : Path)
  | cannotWrite (path : Path)
  | cannotMove (path : Path)
  deriving DecidableEq, Repr

/-- The wording of what went wrong. -/
def ArchiveError.message : ArchiveError → String
  | .cannotOpen archive => s!"failed to open archive {archive.text}"
  | .notZip archive => s!"failed to read zip {archive.text}"
  | .badEntry index archive =>
      s!"failed to read entry #{index} from {archive.text}"
  | .unreadableEntry name archive =>
      s!"failed to read {name} from {archive.text}"
  | .unsupportedEntry name archive =>
      s!"failed to read {name} from zip {archive.text}"
  | .unreadableFile path => s!"failed to read {path.text}"
  | .escapes name archive =>
      s!"refusing to extract {Text.quote name} from {archive.text}: " ++
        "path escapes the destination"
  | .cannotCreate path => s!"failed to create {path.text}"
  | .cannotExtract path => s!"failed to extract {path.text}"
  | .cannotLoad name archive => s!"failed to load {name} from {archive.text}"
  | .notText name => s!"source entry {name} is not valid UTF-8"
  | .cannotCreateTemporary directory =>
      s!"failed to create temp file in {directory.text}"
  | .cannotWrite path => s!"failed to write archive {path.text}"
  | .cannotMove path => s!"failed to move archive into {path.text}"

end Deobfuscate
