import Deobfuscate.Proofs.Digest.Untouched

/-!
# What inputs hold

The digest of inputs sees the hashes of files; whoever uses an input sees the
files themselves.  An input that can be hashed holds something, and two file
trees that differ only within places which it avoids give it the same content.
-/

namespace Deobfuscate

/-- What an input holds. -/
inductive InputContent
  /-- An input that stands for itself. -/
  | plain (input : HashInput)
  | file (content : Bytes)
  | files (contents : List Bytes)
  /-- The files below a directory in the order of their names. -/
  | directory (files : List (Location × Bytes))
  deriving DecidableEq

def FileTree.inputAt (tree : FileTree) (path : Path) :
    Except InputError Bytes :=
  (tree.readBytes path).mapError fun problem => ⟨path, problem⟩

theorem FileTree.inputAt_eq_ok {tree : FileTree} {path : Path}
    {content : Bytes} :
    tree.inputAt path = .ok content ↔ tree.readBytes path = .ok content := by
  unfold inputAt
  cases tree.readBytes path <;> simp [Except.mapError]

namespace HashInput

open FileTree

def content (tree : FileTree) : HashInput → Except InputError InputContent
  | file path => return .file (← tree.inputAt path)
  | files paths =>
      return .files (← (Path.sortDistinct paths).mapM tree.inputAt)
  | directory path =>
      match tree.find path with
      | .ok (location, .directory) =>
          return .directory (tree.sortedFilesBelow location)
      | _ => throw ⟨path, .notFound⟩
  | input => return .plain input

variable {tree : FileTree}

theorem content_file_eq_ok {path : Path} {held : InputContent} :
    (file path).content tree = .ok held ↔
      ∃ bytes, tree.readBytes path = .ok bytes ∧ held = .file bytes := by
  simp only [content, bind_eq_ok, inputAt_eq_ok]
  exact exists_congr fun bytes => and_congr_right fun _ =>
    ⟨fun same => (Except.ok.inj same).symm, fun same => same ▸ rfl⟩

theorem content_directory_eq_ok {path : Path} {held : InputContent} :
    (directory path).content tree = .ok held ↔
      ∃ location, tree.find path = .ok (location, .directory) ∧
        held = .directory (tree.sortedFilesBelow location) := by
  constructor
  · intro holds
    rw [content] at holds
    split at holds
    · rename_i location leads
      cases holds
      exact ⟨location, leads, rfl⟩
    · cases holds
  · rintro ⟨location, leads, rfl⟩
    rw [content, leads]
    rfl

/-- An input that can be hashed holds something. -/
theorem exists_content {input : HashInput} {resolved : ResolvedInput}
    (hashed : input.resolveAnew tree = .ok resolved) :
    ∃ content, input.content tree = .ok content := by
  have held : ∀ {path : Path} {hash : Bytes}, tree.hashAt path = .ok hash →
      ∃ content, tree.readBytes path = .ok content := by
    intro path hash given
    obtain ⟨content, read, _⟩ := hashAt_eq_ok.1 given
    exact ⟨content, read⟩
  cases input with
  | file path =>
      obtain ⟨hash, given, _⟩ := bind_eq_ok.1 hashed
      obtain ⟨content, read⟩ := held given
      exact ⟨_, content_file_eq_ok.2 ⟨content, read, rfl⟩⟩
  | files paths =>
      obtain ⟨hashes, given, _⟩ := bind_eq_ok.1 hashed
      obtain ⟨contents, read⟩ := exists_mapM_eq_ok fun path member => by
        obtain ⟨_, _, found⟩ := exists_related (mapM_eq_ok.1 given) member
        obtain ⟨content, read⟩ := held found
        exact ⟨content, inputAt_eq_ok.2 read⟩
      exact ⟨_, bind_eq_ok.2 ⟨contents, read, rfl⟩⟩
  | directory path =>
      have leads : ∃ location,
          tree.find path = .ok (location, Node.directory) := by
        simp only [resolveAnew] at hashed
        split at hashed
        · rename_i location leads
          exact ⟨location, leads⟩
        · cases hashed
      obtain ⟨location, leads⟩ := leads
      exact ⟨_, content_directory_eq_ok.2 ⟨location, leads, rfl⟩⟩
  | bytes _ | text _ | int32 _ | int64 _ | bool _ | absent => exact ⟨_, rfl⟩

variable {roots : List Location} {first second : FileTree}

/-- An input holds the same in two trees that agree outside places which it
avoids. -/
theorem content_eq (agrees : Agrees roots first second) {input : HashInput}
    {value : InputContent} (avoids : ∀ root ∈ roots, input.Avoids root)
    (holds : input.content first = .ok value) :
    input.content second = .ok value := by
  cases input with
  | file path =>
      obtain ⟨bytes, read, rfl⟩ := content_file_eq_ok.1 holds
      exact content_file_eq_ok.2 ⟨bytes, agrees.readBytes avoids read, rfl⟩
  | files paths =>
      obtain ⟨contents, read, _⟩ := bind_eq_ok.1 holds
      have same : ∀ path ∈ Path.sortDistinct paths,
          second.inputAt path = first.inputAt path := by
        intro path member
        have listed := (Path.enumerates_sortDistinct paths).subset member
        obtain ⟨bytes, _, held⟩ := exists_related (mapM_eq_ok.1 read) member
        have kept := agrees.readBytes
          (fun root inside => avoids root inside path listed)
          (inputAt_eq_ok.1 held)
        rw [held, inputAt_eq_ok.2 kept]
      simp only [content, mapM_congr same]
      exact holds
  | directory path =>
      obtain ⟨location, leads, rfl⟩ := content_directory_eq_ok.1 holds
      obtain ⟨rfl, _⟩ := node?_target leads
      have same : second.sortedFilesBelow path.target =
          first.sortedFilesBelow path.target :=
        sortedFilesBelow_congr agrees.secondSound.formed
          agrees.firstSound.formed fun below =>
            agrees.contentAt (not_within_below avoids below)
      refine content_directory_eq_ok.2 ⟨path.target, ?_, by rw [same]⟩
      exact agrees.find (fun root listed => (avoids root listed).1) leads
  | bytes _ | text _ | int32 _ | int64 _ | bool _ | absent => exact holds

end HashInput

end Deobfuscate
