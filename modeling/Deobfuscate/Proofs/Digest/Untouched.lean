import Deobfuscate.Proofs.Digest.Stream
import Deobfuscate.Proofs.FileTree.Change

/-!
# Inputs that are not touched

Two file trees that differ only within some places, and in directories that hold
no files, look the same through every path that avoids these places.  An input
that avoids them is hashed alike in both, with whatever memo.
-/

namespace Deobfuscate

namespace FileTree

variable {roots : List Location} {first second third : FileTree} {path : Path}

/-- At or below one of some places. -/
def Within (roots : List Location) (location : Location) : Prop :=
  ∃ root ∈ roots, root <+: location

/-- Two sound trees that differ only within some places, except for directories
that one of them has more. -/
structure Agrees (roots : List Location) (first second : FileTree) : Prop where
  firstSound : first.Sound
  secondSound : second.Sound
  kept : ∀ location, ¬Within roots location →
    Kept (fun _ => True) first second location

namespace Agrees

theorem refl (sound : first.Sound) : Agrees roots first first where
  firstSound := sound
  secondSound := sound
  kept := fun _ _ => Or.inl rfl

theorem trans (before : Agrees roots first second)
    (after : Agrees roots second third) : Agrees roots first third where
  firstSound := before.firstSound
  secondSound := after.secondSound
  kept := fun location outside =>
    (before.kept location outside).trans (after.kept location outside)

theorem of_alters {made region : Location → Prop}
    (alters : Alters made region first second) (sound : first.Sound)
    (covers : ∀ location, region location → Within roots location) :
    Agrees roots first second where
  firstSound := sound
  secondSound := (alters sound).1
  kept := fun location outside =>
    ((alters sound).2 location fun inside =>
      outside (covers location inside)).mono fun _ => trivial

variable (agrees : Agrees roots first second)
  (avoids : ∀ root ∈ roots, path.Avoids root)

include agrees

theorem contentAt {location : Location} (outside : ¬Within roots location) :
    second.contentAt location = first.contentAt location :=
  (agrees.kept location outside).contentAt_eq

include avoids

omit agrees in
theorem not_within_of_places {place : Location}
    (member : place ∈ path.places) : ¬Within roots place := by
  rintro ⟨root, listed, inside⟩
  exact avoids root listed place member inside

/-- What an untouched path leads to, it still leads to. -/
theorem find {location : Location} {node : Node}
    (found : first.find path = .ok (location, node)) :
    second.find path = .ok (location, node) := by
  obtain ⟨located, _⟩ := find_eq_ok.1 found
  refine find_of_passed found (fun place passed => ?_) ?_
  · have outside := not_within_of_places avoids
      (List.mem_append_left _ passed)
    exact (agrees.kept place outside).stands
      (directory_of_places located passed)
  · have outside := not_within_of_places avoids
      (show path.target ∈ path.places by simp [Path.places])
    exact (agrees.kept _ outside).stands (node?_target found).2

theorem readBytes {content : Bytes}
    (read : first.readBytes path = .ok content) :
    second.readBytes path = .ok content := by
  obtain ⟨⟨location, node⟩, found, result⟩ := bind_eq_ok.1 read
  exact bind_eq_ok.2 ⟨_, agrees.find avoids found, result⟩

theorem hashedFile {file : HashedFile}
    (hashed : first.hashedFile path = .ok file) :
    second.hashedFile path = .ok file := by
  unfold FileTree.hashedFile at hashed ⊢
  split at hashed
  · cases hashed
  · cases hashed
  · rename_i found
    rw [agrees.find avoids found]
    exact hashed

end Agrees

section Directory

variable {location : Location} (agrees : Agrees roots first second)
  (avoids : ∀ root ∈ roots, path.Avoids root ∧ ¬path.target <+: root)

include avoids

theorem not_within_below (below : Location) :
    ¬Within roots (path.target ++ below) := by
  rintro ⟨root, listed, inside⟩
  have beyond : path.target <+: path.target ++ below :=
    List.prefix_append _ _
  rcases List.prefix_or_prefix_of_prefix inside beyond with above | under
  · exact (avoids root listed).1.target above
  · exact (avoids root listed).2 under

include agrees

theorem Agrees.relativeFiles
    (directory : first.find path = .ok (location, .directory)) :
    second.relativeFiles location = first.relativeFiles location := by
  obtain ⟨rfl, stands⟩ := node?_target directory
  have laterStands : second.node? path.target = some .directory :=
    (node?_target (agrees.find (fun root listed => (avoids root listed).1)
      directory)).2
  have firstIncreasing :=
    relativeFiles_increasing agrees.firstSound.formed stands
  have secondIncreasing :=
    relativeFiles_increasing agrees.secondSound.formed laterStands
  have distinct : ∀ {names : List String},
      names.Pairwise (fun left right => left < right) → names.Nodup := by
    intro names increasing
    exact increasing.imp fun before same =>
      absurd (same ▸ before) (String.lt_irrefl _)
  refine List.Perm.eq_of_pairwise ?_ secondIncreasing firstIncreasing ?_
  · intro left right _ _ before after
    exact absurd (String.lt_trans before after) (String.lt_irrefl _)
  · refine (List.perm_ext_iff_of_nodup (distinct secondIncreasing)
      (distinct firstIncreasing)).2 fun name => ?_
    rw [mem_relativeFiles agrees.secondSound.formed,
      mem_relativeFiles agrees.firstSound.formed]
    simp only [agrees.contentAt (not_within_below avoids _)]

end Directory

end FileTree

namespace HashInput

open FileTree

def Avoids (location : Location) : HashInput → Prop
  | file path => path.Avoids location
  | files paths => ∀ path ∈ paths, path.Avoids location
  | directory path => path.Avoids location ∧ ¬path.target <+: location
  | _ => True

instance (location : Location) :
    DecidablePred (Avoids location)
  | file path => inferInstanceAs (Decidable (path.Avoids location))
  | files paths =>
      inferInstanceAs (Decidable (∀ path ∈ paths, path.Avoids location))
  | directory path =>
      inferInstanceAs (Decidable (path.Avoids location ∧ _))
  | bytes _ | text _ | int32 _ | int64 _ | bool _ | absent =>
      inferInstanceAs (Decidable True)

theorem mapM_congr {m : Type → Type} [Monad m] [LawfulMonad m] {α β : Type}
    {act other : α → m β} {items : List α}
    (same : ∀ item ∈ items, act item = other item) :
    items.mapM act = items.mapM other := by
  induction items with
  | nil =>
      rfl
  | cons item rest inductionHypothesis =>
      rw [List.mapM_cons, List.mapM_cons, same item (by simp),
        inductionHypothesis fun item member => same item (by simp [member])]

variable {roots : List Location} {first second : FileTree}

theorem fileHash_eq (agrees : Agrees roots first second) {path : Path}
    (avoids : ∀ root ∈ roots, path.Avoids root) {hash : Bytes}
    (hashed : first.HashesTo path hash) :
    Memo.fileHash second path = Memo.fileHash first path := by
  obtain ⟨file, found, _⟩ :=
    bind_eq_ok.1 (FileTree.hashAt_eq_ok_iff.2 hashed)
  unfold Memo.fileHash
  rw [found, agrees.hashedFile avoids found]

/-- An input that has a value is hashed alike in two trees that agree outside
places which it avoids. -/
theorem resolve_eq (agrees : Agrees roots first second) {input : HashInput}
    {value : InputValue} (avoids : ∀ root ∈ roots, input.Avoids root)
    (denoted : input.Denotes first value) :
    input.resolve second = input.resolve first := by
  cases denoted with
  | file hashed =>
      simp only [resolve, fileHash_eq agrees avoids hashed]
  | files enumerates hashed =>
      rename_i paths listed hashes
      have same : ∀ path ∈ Path.sortDistinct paths,
          Memo.fileHash second path = Memo.fileHash first path := by
        intro path member
        rw [← enumerates.unique (Path.enumerates_sortDistinct paths)] at member
        obtain ⟨hash, _, found⟩ := exists_related hashed member
        exact fileHash_eq agrees
          (fun root listed => avoids root listed path (enumerates.subset member))
          found
      simp only [resolve, mapM_congr same]
  | directory leads opened hashed =>
      rename_i path _ hashes
      have formed := agrees.firstSound.formed
      obtain ⟨rfl, stands⟩ := node?_target leads
      have written : path.text ≠ "" := by
        intro empty
        simp [FileTree.find, locate, checkPath, empty, bind, Except.bind] at leads
      have same : ∀ name ∈ first.relativeFiles path.target,
          Memo.fileHash second (path.child name) =
            Memo.fileHash first (path.child name) := by
        intro name member
        obtain ⟨below, content, held, rfl⟩ :=
          (FileTree.mem_relativeFiles formed).1 member
        obtain ⟨hash, found⟩ := opened below content held
        have proper := properLocation_of_contentAt formed held
        have nonempty := ne_nil_of_contentAt stands held
        refine fileHash_eq agrees (fun root listed => ?_) found
        exact (avoids root listed).1.child (avoids root listed).2 written
          nonempty proper
      simp only [resolve, leads,
        agrees.find (fun root listed => (avoids root listed).1) leads,
        agrees.relativeFiles avoids leads]
      rw [mapM_congr fun name member => by rw [same name member]]
  | bytes value => rfl
  | text value => rfl
  | int32 value => rfl
  | int64 value => rfl
  | bool value => rfl
  | absent => rfl

end HashInput

theorem Computes.digestOf {tree : FileTree} (inputs : List HashInput) :
    Computes tree (Deobfuscate.digestOf tree inputs)
      ((streamAnew tree inputs).map Fingerprint.ofBytes) :=
  bind (digestStream inputs) fun _ => pure _

end Deobfuscate
