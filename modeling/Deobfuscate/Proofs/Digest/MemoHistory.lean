import Deobfuscate.Proofs.Digest.Memo

/-!
# Histories of a memo

While a memo is in use, files are written with any times, removed and made
anew, and the memo is cleared now and then.  What it knows of a file may come
from any earlier version of that file.  As long as versions of a file that agree
in time and length agree in content, this makes no difference: a file is hashed
as it stands, and the memo answers by itself exactly when the version hashed
last is the version that stands there.
-/

namespace Deobfuscate

/-- The time and the length of a file, by which a memo tells its versions
apart. -/
structure Version where
  modified : Nat
  length : Nat
  deriving DecidableEq, Repr

def HashedFile.version (file : HashedFile) : Version :=
  ⟨file.modified, file.content.length⟩

def Stamp.version (stamp : Stamp) : Version :=
  ⟨stamp.modified, stamp.length⟩

/-- In these trees, versions of a file that agree in time and length agree in
content. -/
def VersionsTellContents (trees : List FileTree) : Prop :=
  ∀ one ∈ trees, ∀ other ∈ trees, ∀ left right : HashedFile,
    one.Holds left → other.Holds right → left.location = right.location →
    left.version = right.version → left.content = right.content

/-- All files among the entries of a tree. -/
def FileTree.files (tree : FileTree) : List HashedFile :=
  tree.nodes.filterMap fun entry =>
    match entry.2 with
    | .file content modified _ => some ⟨entry.1, content, modified⟩
    | .directory => none

theorem FileTree.Holds.mem_files {tree : FileTree} {file : HashedFile}
    (held : tree.Holds file) : file ∈ tree.files := by
  obtain ⟨identity, stands⟩ := held
  unfold FileTree.node? at stands
  split at stands
  · cases stands
  · obtain ⟨before, after, nodes, -⟩ := List.lookup_eq_some_iff.1 stands
    simp [files, nodes]

theorem versionsTellContents_of_files {trees : List FileTree}
    (telling : ∀ one ∈ trees, ∀ other ∈ trees, ∀ left ∈ one.files,
      ∀ right ∈ other.files, left.location = right.location →
        left.version = right.version → left.content = right.content) :
    VersionsTellContents trees :=
  fun one oneIn other otherIn left right leftHeld rightHeld =>
    telling one oneIn other otherIn left leftHeld.mem_files right
      rightHeld.mem_files

namespace Memo

def versionAt (memo : Memo) (location : Location) : Option Version :=
  (memo.stamps.lookup location).map Stamp.version

/-- A memo knows the hash of a file in the version in which it knows the
file. -/
theorem known?_eq (memo : Memo) (file : HashedFile) :
    memo.known? file =
      if memo.versionAt file.location = some file.version then
        (memo.stamps.lookup file.location).map Stamp.hash
      else none := by
  unfold known? versionAt
  cases memo.stamps.lookup file.location with
  | none => rfl
  | some stamp => simp [Stamp.version, HashedFile.version]

/-- A file that stands in the version the memo knows counts as a hit, and the
memo knows what it knew. -/
theorem hashOf_of_known {memo : Memo} {file : HashedFile}
    (known : memo.versionAt file.location = some file.version) :
    (memo.hashOf file).2 = { memo with hits := memo.hits + 1 } := by
  obtain ⟨stamp, recorded, -⟩ := Option.map_eq_some_iff.1 known
  have answer : memo.known? file = some stamp.hash := by
    rw [known?_eq, if_pos known, recorded]
    rfl
  simp only [hashOf, answer]

theorem hashOf_of_unknown {memo : Memo} {file : HashedFile}
    (unknown : memo.versionAt file.location ≠ some file.version) :
    (memo.hashOf file).2 = memo.remember file (Sha256.hash file.content) := by
  have answer : memo.known? file = none := by
    rw [known?_eq, if_neg unknown]
  simp only [hashOf, answer]

/-- After a file has been hashed, the memo knows it as it stands, and knows of
other files what it knew. -/
theorem versionAt_hashOf (memo : Memo) (file : HashedFile)
    (location : Location) :
    (memo.hashOf file).2.versionAt location =
      if file.location = location then some file.version
      else memo.versionAt location := by
  by_cases known : memo.versionAt file.location = some file.version
  · rw [hashOf_of_known known]
    split
    · next same => exact same ▸ known
    · rfl
  · rw [hashOf_of_unknown known, versionAt, lookup_remember]
    by_cases same : location = file.location
    · simp [same, Stamp.version, HashedFile.version]
    · simp [same, Ne.symm same, versionAt]

theorem uses_hashOf (memo : Memo) (file : HashedFile) :
    (memo.hashOf file).2.hits + (memo.hashOf file).2.misses =
      memo.hits + memo.misses + 1 := by
  by_cases known : memo.versionAt file.location = some file.version
  · simp only [hashOf_of_known known]
    omega
  · simp only [hashOf_of_unknown known, remember]
    omega

theorem stamp_hashOf {memo : Memo} {file : HashedFile} {location : Location}
    {stamp : Stamp}
    (recorded : (memo.hashOf file).2.stamps.lookup location = some stamp) :
    memo.stamps.lookup location = some stamp ∨
      location = file.location ∧ stamp.version = file.version ∧
        stamp.hash = Sha256.hash file.content := by
  by_cases known : memo.versionAt file.location = some file.version
  · rw [hashOf_of_known known] at recorded
    exact .inl recorded
  · rw [hashOf_of_unknown known, lookup_remember] at recorded
    split at recorded
    · next same =>
        cases recorded
        exact .inr ⟨same, rfl, rfl⟩
    · exact .inl recorded

/-- What happens while a memo is in use. -/
inductive Event
  /-- Files are written, with any times, or removed. -/
  | edit (change : FileTree → FileTree)
  /-- The memo is cleared. -/
  | clear
  /-- The hash of the file at a path is asked for. -/
  | hash (path : Path)

def treeAfter (tree : FileTree) : List Event → FileTree
  | [] => tree
  | .edit change :: earlier => change (treeAfter tree earlier)
  | .clear :: earlier => treeAfter tree earlier
  | .hash _ :: earlier => treeAfter tree earlier

/-- The memo after a history that began with a fresh one. -/
def memoAfter (tree : FileTree) : List Event → Memo
  | [] => {}
  | .edit _ :: earlier => memoAfter tree earlier
  | .clear :: earlier => (memoAfter tree earlier).clear
  | .hash path :: earlier =>
      ((fileHash (treeAfter tree earlier) path).run
        (memoAfter tree earlier)).2

/-! What is said of a history without looking at the memo. -/

def treesOf (tree : FileTree) : List Event → List FileTree
  | [] => [tree]
  | event :: earlier =>
      treeAfter tree (event :: earlier) :: treesOf tree earlier

/-- How many calls have found a file. -/
def filesFound (tree : FileTree) : List Event → Nat
  | .hash path :: earlier =>
      filesFound tree earlier +
        ((treeAfter tree earlier).hashedFile path).toOption.toList.length
  | _ :: earlier => filesFound tree earlier
  | [] => 0

def lastHashed (tree : FileTree) (location : Location) :
    List Event → Option Version
  | [] => none
  | .clear :: _ => none
  | .edit _ :: earlier => lastHashed tree location earlier
  | .hash path :: earlier =>
      match (treeAfter tree earlier).hashedFile path with
      | .ok file =>
          if file.location = location then some file.version
          else lastHashed tree location earlier
      | .error _ => lastHashed tree location earlier

variable {tree : FileTree} {path : Path}

theorem treeAfter_mem_treesOf (tree : FileTree) (history : List Event) :
    treeAfter tree history ∈ treesOf tree history := by
  cases history with
  | nil => exact List.mem_singleton_self tree
  | cons event earlier => exact List.mem_cons_self

/-! ## Steps -/

theorem run_fileHash_of_found {file : HashedFile}
    (found : tree.hashedFile path = .ok file) (memo : Memo) :
    (fileHash tree path).run memo =
      (.ok (memo.hashOf file).1, (memo.hashOf file).2) := by
  unfold fileHash
  rw [found]
  rfl

theorem run_fileHash_of_error {error : InputError}
    (failed : tree.hashedFile path = .error error) (memo : Memo) :
    (fileHash tree path).run memo = (.error error, memo) := by
  unfold fileHash
  rw [failed]
  rfl

theorem versionAt_memoAfter (tree : FileTree) (location : Location)
    (history : List Event) :
    (memoAfter tree history).versionAt location =
      lastHashed tree location history := by
  induction history with
  | nil => rfl
  | cons event earlier inductionHypothesis =>
      cases event with
      | edit change => exact inductionHypothesis
      | clear => rfl
      | hash path =>
          cases found : (treeAfter tree earlier).hashedFile path with
          | error error =>
              simp only [memoAfter, lastHashed, found,
                run_fileHash_of_error found, inductionHypothesis]
          | ok file =>
              simp only [memoAfter, lastHashed, found,
                run_fileHash_of_found found, versionAt_hashOf,
                inductionHypothesis]

theorem uses_memoAfter (tree : FileTree) (history : List Event) :
    (memoAfter tree history).hits + (memoAfter tree history).misses =
      filesFound tree history := by
  induction history with
  | nil => rfl
  | cons event earlier inductionHypothesis =>
      cases event with
      | edit change => exact inductionHypothesis
      | clear => exact inductionHypothesis
      | hash path =>
          cases found : (treeAfter tree earlier).hashedFile path with
          | error error =>
              simp only [memoAfter, filesFound, found,
                run_fileHash_of_error found, inductionHypothesis]
              rfl
          | ok file =>
              simp only [memoAfter, filesFound, found,
                run_fileHash_of_found found, uses_hashOf,
                inductionHypothesis]
              rfl

/-- Whatever a memo knows it has learned from a file as it once stood. -/
theorem exists_version_of_known (tree : FileTree) (history : List Event)
    {location : Location} {stamp : Stamp}
    (recorded :
      (memoAfter tree history).stamps.lookup location = some stamp) :
    ∃ past ∈ treesOf tree history, ∃ file, past.Holds file ∧
      file.location = location ∧ file.version = stamp.version ∧
      stamp.hash = Sha256.hash file.content := by
  induction history with
  | nil => cases recorded
  | cons event earlier inductionHypothesis =>
      -- What was known before comes from a state that is among the later ones.
      have earlierKnown :
          (memoAfter tree earlier).stamps.lookup location = some stamp →
          ∃ past ∈ treesOf tree (event :: earlier), ∃ file,
            past.Holds file ∧ file.location = location ∧
            file.version = stamp.version ∧
            stamp.hash = Sha256.hash file.content := by
        intro known
        obtain ⟨past, occurred, origin⟩ := inductionHypothesis known
        exact ⟨past, List.mem_cons_of_mem _ occurred, origin⟩
      cases event with
      | edit change => exact earlierKnown recorded
      | clear => cases recorded
      | hash path =>
          cases found : (treeAfter tree earlier).hashedFile path with
          | error error =>
              simp only [memoAfter, run_fileHash_of_error found] at recorded
              exact earlierKnown recorded
          | ok file =>
              simp only [memoAfter, run_fileHash_of_found found] at recorded
              obtain known | ⟨same, version, hash⟩ := stamp_hashOf recorded
              · exact earlierKnown known
              · exact ⟨treeAfter tree (.hash path :: earlier),
                  treeAfter_mem_treesOf tree _, file,
                  FileTree.holds_of_hashedFile found, same.symm,
                  version.symm, hash⟩

/-- If versions tell contents, stale entries are harmless: they are not used, or
they are right all the same. -/
theorem faithful_memoAfter {history : List Event}
    (telling : VersionsTellContents (treesOf tree history)) :
    (memoAfter tree history).Faithful (treeAfter tree history) := by
  intro file held hash known
  rw [known?_eq] at known
  split at known
  · next version =>
      obtain ⟨stamp, recorded, stampVersion⟩ := Option.map_eq_some_iff.1 version
      rw [recorded, Option.map_some, Option.some.injEq] at known
      obtain ⟨past, occurred, old, oldHeld, location, oldVersion, oldHash⟩ :=
        exists_version_of_known tree history recorded
      have content : old.content = file.content :=
        telling past occurred _ (treeAfter_mem_treesOf tree history) old file
          oldHeld held location (oldVersion.trans stampVersion)
      rw [← known, oldHash, content]
  · cases known

/-- After any history in which versions tell contents, a call gives what a call
without a memo gives.  The memo has counted the calls that found a file; it
counts a hit for this one exactly when the file stands in the version in which
it was hashed last, and otherwise a miss, and counts nothing where there is no
file. -/
theorem fileHash_transparent (tree : FileTree) (history : List Event)
    (path : Path)
    (telling : VersionsTellContents (treesOf tree history)) :
    memoAfter tree (.hash path :: history) =
        ((fileHash (treeAfter tree history) path).run
          (memoAfter tree history)).2 ∧
      ((fileHash (treeAfter tree history) path).run
          (memoAfter tree history)).1 =
        (treeAfter tree history).hashAt path ∧
      (memoAfter tree history).hits + (memoAfter tree history).misses =
        filesFound tree history ∧
      (∀ error, (treeAfter tree history).hashedFile path = .error error →
        memoAfter tree (.hash path :: history) = memoAfter tree history) ∧
      ∀ file, (treeAfter tree history).hashedFile path = .ok file →
        if lastHashed tree file.location history = some file.version then
          (memoAfter tree (.hash path :: history)).hits =
              (memoAfter tree history).hits + 1 ∧
            (memoAfter tree (.hash path :: history)).misses =
              (memoAfter tree history).misses
        else
          (memoAfter tree (.hash path :: history)).hits =
              (memoAfter tree history).hits ∧
            (memoAfter tree (.hash path :: history)).misses =
              (memoAfter tree history).misses + 1 := by
  refine ⟨rfl, ?_, uses_memoAfter tree history, ?_, ?_⟩
  · exact (Computes.fileHash path _ (faithful_memoAfter telling)).1
  · intro error failed
    rw [memoAfter, run_fileHash_of_error failed]
  · intro file found
    rw [memoAfter, run_fileHash_of_found found, ← versionAt_memoAfter]
    split
    · next known =>
        rw [hashOf_of_known known]
        exact ⟨rfl, rfl⟩
    · next unknown =>
        rw [hashOf_of_unknown unknown]
        exact ⟨rfl, rfl⟩

/-- A file is overwritten, gets its old content and time back, is removed and
made anew. -/
def restoredHistory : List Event :=
  let write (content : Bytes) (time : Nat) : Event :=
    .edit fun tree => tree.place ⟨"names.csv"⟩ content time
  [write [1, 2] 7,
    .hash ⟨"names.csv"⟩,
    .edit fun tree => tree.removeAt ["names.csv"],
    .hash ⟨"names.csv"⟩, write [1, 2] 7,
    .hash ⟨"names.csv"⟩, write [8, 9] 30,
    .hash ⟨"names.csv"⟩, write [1, 2] 7]

/-- The file stands again as it was hashed last. -/
theorem fileHash_transparent_restored :
    VersionsTellContents (treesOf {} restoredHistory) ∧
      lastHashed {} ["names.csv"] restoredHistory = some ⟨7, 2⟩ ∧
      ((fileHash (treeAfter {} restoredHistory) ⟨"names.csv"⟩).run
          (memoAfter {} restoredHistory)).1 =
        (treeAfter {} restoredHistory).hashAt ⟨"names.csv"⟩ ∧
      (memoAfter {} restoredHistory).hits +
        (memoAfter {} restoredHistory).misses = 3 ∧
      (memoAfter {} (.hash ⟨"names.csv"⟩ :: restoredHistory)).hits =
        (memoAfter {} restoredHistory).hits + 1 := by
  have telling : VersionsTellContents (treesOf {} restoredHistory) :=
    versionsTellContents_of_files (by decide)
  have last :
      lastHashed {} ["names.csv"] restoredHistory = some ⟨7, 2⟩ := by
    decide
  have found : (treeAfter {} restoredHistory).hashedFile ⟨"names.csv"⟩ =
      .ok ⟨["names.csv"], [1, 2], 7⟩ := by
    rfl
  obtain ⟨-, answer, uses, -, counted⟩ :=
    fileHash_transparent {} restoredHistory ⟨"names.csv"⟩ telling
  have hit := (if_pos last).mp (counted _ found)
  exact ⟨telling, last, answer, uses.trans (by decide), hit.1⟩

end Memo

end Deobfuscate
