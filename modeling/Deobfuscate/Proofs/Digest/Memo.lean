import Deobfuscate.Digest.Input
import Deobfuscate.Proofs.FileTree.Lookup

/-!
# Hashing with a memo

A memo is faithful to a file tree when what it knows of the files of the tree is
right.  Hashing inputs with a faithful memo gives what hashing every file anew
gives, errors included, and the memo stays faithful.
-/

namespace Deobfuscate

def FileTree.Holds (tree : FileTree) (file : HashedFile) : Prop :=
  ∃ identity, tree.node? file.location =
    some (.file file.content file.modified identity)

theorem FileTree.Holds.content_eq {tree : FileTree} {left right : HashedFile}
    (leftHeld : tree.Holds left) (rightHeld : tree.Holds right)
    (same : left.location = right.location) : left.content = right.content := by
  obtain ⟨leftIdentity, leftNode⟩ := leftHeld
  obtain ⟨rightIdentity, rightNode⟩ := rightHeld
  rw [same, rightNode] at leftNode
  injection leftNode with node
  injection node with content
  exact content.symm

theorem FileTree.holds_of_hashedFile {tree : FileTree} {path : Path}
    {file : HashedFile} (found : tree.hashedFile path = .ok file) :
    tree.Holds file := by
  unfold hashedFile at found
  split at found
  · cases found
  · cases found
  · rename_i location content modified identity leads
    cases found
    exact ⟨identity, (find_eq_ok.1 leads).2⟩

namespace Memo

/-- What a memo knows of the files of a tree is right. -/
def Faithful (memo : Memo) (tree : FileTree) : Prop :=
  ∀ file, tree.Holds file → ∀ hash, memo.known? file = some hash →
    hash = Sha256.hash file.content

/-- A memo that knows nothing is faithful. -/
theorem faithful_empty (tree : FileTree) : Faithful {} tree := by
  intro file _ hash known
  simp [known?] at known

theorem lookup_remember (memo : Memo) (file : HashedFile) (hash : Bytes)
    (location : Location) :
    (memo.remember file hash).stamps.lookup location =
      if location = file.location then
        some ⟨file.modified, file.content.length, hash⟩
      else memo.stamps.lookup location :=
  lookup_replace memo.stamps file.location _ location

/-- A remembered hash keeps a memo faithful if it is right. -/
theorem Faithful.remember {memo : Memo} {tree : FileTree} {file : HashedFile}
    (faithful : memo.Faithful tree) (held : tree.Holds file) :
    (memo.remember file (Sha256.hash file.content)).Faithful tree := by
  intro other otherHeld hash known
  simp only [known?, lookup_remember] at known
  by_cases same : other.location = file.location
  · rw [otherHeld.content_eq held same]
    simp only [same, if_true] at known
    split at known
    · exact (Option.some.inj known).symm
    · cases known
  · simp only [same, if_false] at known
    exact faithful other otherHeld hash known

/-- A faithful memo gives the hash of a file and stays faithful. -/
theorem Faithful.hashOf {memo : Memo} {tree : FileTree} {file : HashedFile}
    (faithful : memo.Faithful tree) (held : tree.Holds file) :
    (memo.hashOf file).1 = Sha256.hash file.content ∧
      (memo.hashOf file).2.Faithful tree := by
  unfold Memo.hashOf
  cases known : memo.known? file with
  | none => exact ⟨rfl, faithful.remember held⟩
  | some hash => exact ⟨faithful file held hash known, faithful⟩

end Memo

def FileTree.hashAt (tree : FileTree) (path : Path) :
    Except InputError Bytes := do
  let file ← tree.hashedFile path
  return Sha256.hash file.content

def HashInput.resolveAnew (tree : FileTree) :
    HashInput → Except InputError ResolvedInput
  | bytes value => return .bytes value
  | text value => return .text value
  | int32 value => return .int32 value
  | int64 value => return .int64 value
  | bool value => return .bool value
  | file path => return .file (← tree.hashAt path)
  | files paths => return .files (← (Path.sortDistinct paths).mapM tree.hashAt)
  | directory path =>
      match tree.find path with
      | .ok (location, .directory) => do
          let hashes ← (tree.relativeFiles location).mapM fun name =>
            return (name, ← tree.hashAt (path.child name))
          return .directory hashes
      | _ => throw ⟨path, .notFound⟩
  | absent => return .absent

def Computes {α : Type} (tree : FileTree) (action : HashAction α)
    (result : Except InputError α) : Prop :=
  ∀ memo : Memo, memo.Faithful tree →
    (action.run memo).1 = result ∧ (action.run memo).2.Faithful tree

namespace Computes

variable {α β : Type} {tree : FileTree}

theorem pure (value : α) : Computes tree (Pure.pure value) (.ok value) :=
  fun _ faithful => ⟨rfl, faithful⟩

theorem throw (error : InputError) :
    Computes tree (throw error : HashAction α) (.error error) :=
  fun _ faithful => ⟨rfl, faithful⟩

private theorem run_bind (action : HashAction α) (next : α → HashAction β)
    (memo : Memo) :
    (action >>= next).run memo =
      match action.run memo with
      | (.ok value, later) => (next value).run later
      | (.error error, later) => (.error error, later) := by
  show (action.run >>= ExceptT.bindCont next) memo = _
  show (match action.run memo with
    | (result, later) => ExceptT.bindCont next result later) = _
  rcases action.run memo with ⟨_ | _, later⟩ <;> rfl

theorem bind {action : HashAction α} {result : Except InputError α}
    {next : α → HashAction β} {after : α → Except InputError β}
    (first : Computes tree action result)
    (second : ∀ value, Computes tree (next value) (after value)) :
    Computes tree (action >>= next) (result >>= after) := by
  intro memo faithful
  obtain ⟨given, kept⟩ := first memo faithful
  rw [run_bind]
  rcases ran : action.run memo with ⟨answer, later⟩
  rw [ran] at given kept
  subst given
  cases answer with
  | error error => exact ⟨rfl, kept⟩
  | ok value => exact second value later kept

theorem mapM {act : α → HashAction β} {give : α → Except InputError β}
    (each : ∀ item, Computes tree (act item) (give item)) (items : List α) :
    Computes tree (items.mapM act) (items.mapM give) := by
  induction items with
  | nil =>
      exact pure []
  | cons item rest inductionHypothesis =>
      rw [List.mapM_cons, List.mapM_cons]
      refine bind (each item) fun value => ?_
      exact bind inductionHypothesis fun values => pure (value :: values)

/-- The hash of a file does not depend on a faithful memo. -/
theorem fileHash (path : Path) :
    Computes tree (Memo.fileHash tree path) (tree.hashAt path) := by
  intro memo faithful
  unfold Memo.fileHash FileTree.hashAt
  cases found : tree.hashedFile path with
  | error error => exact ⟨rfl, faithful⟩
  | ok file =>
      obtain ⟨right, kept⟩ :=
        faithful.hashOf (FileTree.holds_of_hashedFile found)
      exact ⟨congrArg Except.ok right, kept⟩

theorem resolve (input : HashInput) :
    Computes tree (input.resolve tree) (input.resolveAnew tree) := by
  cases input with
  | bytes value => exact pure _
  | text value => exact pure _
  | int32 value => exact pure _
  | int64 value => exact pure _
  | bool value => exact pure _
  | file path => exact bind (fileHash path) fun hash => pure _
  | files paths =>
      exact bind (mapM fileHash (Path.sortDistinct paths)) fun hashes =>
        pure _
  | directory path =>
      simp only [HashInput.resolve, HashInput.resolveAnew]
      rcases tree.find path with _ | ⟨location, _ | _⟩
      · exact throw _
      · refine bind (mapM (fun name => ?_) _) fun hashes => pure _
        exact bind (fileHash (path.child name)) fun hash => pure _
      · exact throw _
  | absent => exact pure _

theorem resolveInputs (inputs : List HashInput) :
    Computes tree (Deobfuscate.resolveInputs tree inputs)
      (inputs.mapM (HashInput.resolveAnew tree)) :=
  mapM resolve inputs

end Computes

def streamAnew (tree : FileTree) (inputs : List HashInput) :
    Except InputError Bytes := do
  return frameInputs (← inputs.mapM (HashInput.resolveAnew tree))

theorem Computes.digestStream {tree : FileTree} (inputs : List HashInput) :
    Computes tree (Deobfuscate.digestStream tree inputs)
      (streamAnew tree inputs) :=
  bind (resolveInputs inputs) fun _ => pure _

end Deobfuscate
