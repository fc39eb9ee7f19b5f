/-!
# Problems with files

The reasons for which an operation on the file tree, or on something found in
it, can fail.
-/

namespace Deobfuscate

/-- Why an operation on files failed. -/
inductive Problem
  | notFound
  | isADirectory
  | notADirectory
  | directoryNotEmpty
  | alreadyExists
  | permissionDenied
  | invalidData
  | invalidInput
  | invalidFilename
  | resourceBusy
  | badDescriptor
  | brokenPipe
  | other (text : String)
  deriving DecidableEq, Repr, Inhabited

def Problem.message : Problem → String
  | .notFound => "NotFound"
  | .isADirectory => "IsADirectory"
  | .notADirectory => "NotADirectory"
  | .directoryNotEmpty => "DirectoryNotEmpty"
  | .alreadyExists => "AlreadyExists"
  | .permissionDenied => "PermissionDenied"
  | .invalidData => "InvalidData"
  | .invalidInput => "InvalidInput"
  | .invalidFilename => "InvalidFilename"
  | .resourceBusy => "ResourceBusy"
  | .badDescriptor => "Uncategorized"
  | .brokenPipe => "BrokenPipe"
  | .other text => text

end Deobfuscate
