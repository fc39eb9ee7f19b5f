import Deobfuscate.Archive.Artifact
import Deobfuscate.Cache.Replace
import Deobfuscate.Proofs.Action

/-!
# What files hold does not matter for changing them

Where a path leads, and whether a file can be written, renamed or removed, does
not depend on what the files of a tree hold.  Every operation does to a tree
without contents what it does to the tree itself.  So two trees that differ in
contents only, changed by the same steps but with other contents written, differ
in contents only, and one change fails exactly when the other does.
-/

namespace Deobfuscate

def Node.blank : Node → Node
  | .directory => .directory
  | .file _ modified identity => .file [] modified identity

namespace FileTree

def blank (tree : FileTree) : FileTree :=
  { tree with nodes := tree.nodes.map fun entry => (entry.1, entry.2.blank) }

section Lookups

variable (tree : FileTree)

theorem node?_blank (location : Location) :
    tree.blank.node? location = (tree.node? location).map Node.blank := by
  unfold node? blank
  split
  · rfl
  · induction tree.nodes with
    | nil => rfl
    | cons entry rest inductionHypothesis =>
        rw [List.map_cons, List.lookup_cons, List.lookup_cons]
        cases location == entry.1 with
        | true => rfl
        | false => exact inductionHypothesis

theorem isNone_node?_blank (location : Location) :
    (tree.blank.node? location).isNone = (tree.node? location).isNone := by
  rw [node?_blank, Option.isNone_map]

@[simp]
theorem follow_blank (location : Location) (pieces : List String) :
    tree.blank.follow location pieces = tree.follow location pieces := by
  induction pieces generalizing location with
  | nil => rfl
  | cons piece rest inductionHypothesis =>
      simp only [follow, inductionHypothesis, node?_blank]
      rcases tree.node? (location ++ [piece]) with _ | _ | _ <;> rfl

@[simp]
theorem locate_blank (path : Path) :
    tree.blank.locate path = tree.locate path := by
  simp only [locate, follow_blank]

@[simp]
theorem locateStep_blank (path : Path) :
    tree.blank.locateStep path = tree.locateStep path := by
  simp only [locateStep, follow_blank]

@[simp]
theorem locateFile_blank (path : Path) :
    tree.blank.locateFile path = tree.locateFile path := by
  simp only [locateFile, locateStep_blank]

theorem find_blank (path : Path) :
    tree.blank.find path =
      (tree.find path).map fun found => (found.1, found.2.blank) := by
  unfold find
  rw [locate_blank]
  rcases tree.locate path with problem | location
  · rfl
  · dsimp only [bind, Except.bind]
    rw [node?_blank]
    cases tree.node? location <;> rfl

@[simp]
theorem exists?_blank (path : Path) :
    tree.blank.exists? path = tree.exists? path := by
  unfold exists?
  rw [find_blank]
  cases tree.find path <;> rfl

@[simp]
theorem isDirectory_blank (path : Path) :
    tree.blank.isDirectory path = tree.isDirectory path := by
  unfold isDirectory
  rw [find_blank]
  rcases tree.find path with _ | ⟨_, _ | _⟩ <;> rfl

@[simp]
theorem isEmptyAt_blank (location : Location) :
    tree.blank.isEmptyAt location = tree.isEmptyAt location := by
  simp only [isEmptyAt, blank, List.all_map, Function.comp_def]

@[simp]
theorem freshPath_blank (directory : Path) (start ending : String) :
    tree.blank.freshPath directory start ending =
      tree.freshPath directory start ending := by
  simp only [freshPath, exists?_blank]
  simp only [blank, List.length_map]

end Lookups

section Changes

variable (tree : FileTree)

theorem blank_setNode (location : Location) (node : Node) :
    (tree.setNode location node).blank =
      tree.blank.setNode location node.blank := by
  simp only [blank, setNode, List.map_cons, List.filter_map, Function.comp_def]

theorem blank_removeAt (location : Location) :
    (tree.removeAt location).blank = tree.blank.removeAt location := by
  simp only [blank, removeAt, List.filter_map, Function.comp_def]

theorem blank_emptyAt (location : Location) :
    (tree.emptyAt location).blank = tree.blank.emptyAt location := by
  simp only [blank, emptyAt, List.filter_map, Function.comp_def]

theorem blank_moveAt (source target : Location) :
    (tree.moveAt source target).blank = tree.blank.moveAt source target := by
  simp only [blank, moveAt, removeAt, List.filter_map, List.map_append,
    List.map_map, Function.comp_def]

theorem writeBytes_blank (path : Path) (content : Bytes) :
    tree.blank.writeBytes path [] =
      (tree.writeBytes path content).map blank := by
  unfold writeBytes
  rw [locateFile_blank]
  rcases tree.locateFile path with problem | location
  · rfl
  · change tree.blank.writeAt location [] _ =
      (tree.writeAt location content _).map blank
    unfold writeAt
    rw [node?_blank]
    rcases tree.node? location with _ | _ | ⟨_, _, identity⟩
    · exact congrArg (fun made => Except.ok (tick made))
        (blank_setNode tree location (.file content _ _)).symm
    · rfl
    · exact congrArg (fun made => Except.ok (tick made))
        (blank_setNode tree location (.file content _ identity)).symm

theorem createDirectory_blank (path : Path) :
    tree.blank.createDirectory path =
      (tree.createDirectory path).map blank := by
  unfold createDirectory
  rw [locateStep_blank]
  rcases tree.locateStep path with problem | ⟨above, _ | _ | _ | ⟨name, _⟩⟩
  · rfl
  · rfl
  · rfl
  · rfl
  · dsimp only [bind, Except.bind]
    cases checkName name with
    | error problem => rfl
    | ok _ =>
        dsimp only
        rw [node?_blank]
        cases tree.node? (above ++ [name]) with
        | some node => rfl
        | none =>
            exact congrArg Except.ok
              (blank_setNode tree (above ++ [name]) .directory).symm

theorem createChain_blank (paths : List Path) :
    tree.blank.createChain paths =
      ((tree.createChain paths).1, (tree.createChain paths).2.blank) := by
  induction paths generalizing tree with
  | nil => rfl
  | cons path above inductionHypothesis =>
      unfold createChain
      split
      · rfl
      · rw [createDirectory_blank, inductionHypothesis]
        dsimp only
        rw [isDirectory_blank]
        cases tree.createDirectory path with
        | ok made => rfl
        | error problem =>
            cases problem with
            | notFound =>
                dsimp only [Except.map]
                rcases tree.createChain above with ⟨_ | problem, later⟩
                · dsimp only
                  rw [createDirectory_blank, isDirectory_blank]
                  cases later.createDirectory path <;> rfl
                · rfl
            | _ => rfl

theorem createDirectories_blank (path : Path) :
    tree.blank.createDirectories path =
      ((tree.createDirectories path).1,
        (tree.createDirectories path).2.blank) :=
  createChain_blank tree path.ancestors

theorem renameAt_blank (old new : Location) (slashed : Bool) :
    tree.blank.renameAt old new slashed =
      (tree.renameAt old new slashed).map blank := by
  unfold renameAt
  rw [node?_blank, node?_blank, isEmptyAt_blank, ← blank_moveAt]
  rcases tree.node? old with _ | node
  · rfl
  · have kind : (node.blank != .directory) = (node != .directory) := by
      cases node <;> rfl
    dsimp only [Option.map_some]
    rw [kind]
    by_cases blocked : (slashed && node != .directory) = true
    · rw [if_pos blocked, if_pos blocked]
      rfl
    · rw [if_neg blocked, if_neg blocked]
      by_cases same : old = new
      · rw [if_pos same, if_pos same]
        rfl
      · rw [if_neg same, if_neg same]
        by_cases below : old.isPrefixOf new = true
        · rw [if_pos below, if_pos below]
          rfl
        · rw [if_neg below, if_neg below]
          by_cases above : new.isPrefixOf old = true
          · rw [if_pos above, if_pos above]
            rfl
          · rw [if_neg above, if_neg above]
            rcases node with _ | _ <;>
              rcases tree.node? new with _ | _ | _ <;>
              first
                | rfl
                | cases tree.isEmptyAt new <;> rfl

theorem rename_blank (source target : Path) :
    tree.blank.rename source target =
      (tree.rename source target).map blank := by
  unfold rename
  simp only [locateStep_blank, isNone_node?_blank, renameAt_blank]
  cases checkPath source with
  | error problem => rfl
  | ok _ =>
  cases checkPath target with
  | error problem => rfl
  | ok _ =>
  rcases tree.locateStep source with problem | ⟨above, step⟩
  · rfl
  · rcases tree.locateStep target with problem | ⟨below, last⟩
    · rfl
    · cases step with
      | name old oldSlashed =>
          cases last with
          | name new newSlashed =>
              change (checkName old >>= fun _ => _) =
                Except.map blank (checkName old >>= fun _ => _)
              rcases checkName old with _ | _
              · rfl
              · dsimp only [bind, Except.bind]
                split
                · rfl
                · cases checkName new <;> rfl
          | _ => rfl
      | _ => rfl

theorem removeFile_blank (path : Path) :
    tree.blank.removeFile path = (tree.removeFile path).map blank := by
  unfold removeFile
  rw [find_blank]
  rcases tree.find path with _ | ⟨location, _ | _⟩
  · rfl
  · rfl
  · exact congrArg Except.ok (blank_removeAt tree location).symm

theorem removeEmptyDirectory_blank (path : Path) :
    tree.blank.removeEmptyDirectory path =
      (tree.removeEmptyDirectory path).map blank := by
  unfold removeEmptyDirectory
  rw [locateStep_blank]
  rcases tree.locateStep path with _ | ⟨above, _ | _ | _ | ⟨name, _⟩⟩
  · rfl
  · rfl
  · rfl
  · rfl
  · exact congrArg Except.ok (blank_removeAt tree (above ++ [name])).symm

theorem removeDirectories_blank (path : Path) :
    tree.blank.removeDirectories path =
      ((tree.removeDirectories path).1,
        (tree.removeDirectories path).2.blank) := by
  unfold removeDirectories
  rw [find_blank]
  rcases tree.find path with _ | ⟨location, _ | _⟩
  · rfl
  · dsimp only [Except.map, Node.blank]
    rw [← blank_emptyAt, removeEmptyDirectory_blank]
    cases (tree.emptyAt location).removeEmptyDirectory path with
    | ok removed => rfl
    | error problem => cases problem <;> rfl
  · rfl

theorem discard_blank (path : Path) :
    tree.blank.discard path = (tree.discard path).blank := by
  unfold discard
  rw [isDirectory_blank, removeDirectories_blank, removeFile_blank]
  split
  · rfl
  · cases tree.removeFile path <;> rfl

end Changes

/-! ## Trees of one shape -/

/-- Two trees differ in what their files hold only. -/
def SameShape (left right : FileTree) : Prop :=
  left.blank = right.blank

theorem readBytes_blank (tree : FileTree) (path : Path) :
    tree.blank.readBytes path = (tree.readBytes path).map fun _ => [] := by
  unfold readBytes
  rw [find_blank]
  rcases tree.find path with _ | ⟨_, _ | _⟩ <;> rfl

/-- Trees of one shape in which a path reads the same content, if any, read the
same or fail alike. -/
theorem readBytes_eq_of_shape {left right : FileTree} {path : Path}
    (shape : left.SameShape right)
    (same : ∀ first second, left.readBytes path = .ok first →
      right.readBytes path = .ok second → first = second) :
    left.readBytes path = right.readBytes path := by
  have blanks : (left.readBytes path).map (fun _ => ([] : Bytes)) =
      (right.readBytes path).map fun _ => [] := by
    rw [← readBytes_blank, ← readBytes_blank, shape]
  generalize left.readBytes path = leftRead at same blanks ⊢
  generalize right.readBytes path = rightRead at same blanks ⊢
  cases leftRead with
  | error problem =>
      cases rightRead with
      | error other =>
          cases blanks
          rfl
      | ok _ => cases blanks
  | ok first =>
      cases rightRead with
      | error _ => cases blanks
      | ok second => rw [same first second rfl rfl]

end FileTree

open FileTree

namespace FileAction

variable {ε α β : Type}

def SameSteps (first second : FileAction ε α) : Prop :=
  ∀ left right, SameShape left right →
    (runFrom first left).1 = (runFrom second right).1 ∧
      SameShape (runFrom first left).2 (runFrom second right).2

theorem SameSteps.bind {first second : FileAction ε α}
    {next other : α → FileAction ε β} (same : SameSteps first second)
    (later : ∀ value, SameSteps (next value) (other value)) :
    SameSteps (first >>= next) (second >>= other) := by
  intro left right shape
  have ran := same left right shape
  rw [runFrom_bind, runFrom_bind]
  generalize runFrom first left = leftRan at ran ⊢
  generalize runFrom second right = rightRan at ran ⊢
  obtain ⟨result, leftAfter⟩ := leftRan
  obtain ⟨_, rightAfter⟩ := rightRan
  obtain ⟨rfl, shapes⟩ := ran
  cases result with
  | error error => exact ⟨rfl, shapes⟩
  | ok value => exact later value leftAfter rightAfter shapes

theorem sameSteps_throw (error : ε) :
    SameSteps (throw error : FileAction ε α) (throw error) :=
  fun _ _ shape => ⟨rfl, shape⟩

/-- Looking at the shape only gives the same in both trees. -/
theorem sameSteps_look {view : FileTree → α}
    (shaped : ∀ tree, view tree.blank = view tree) :
    SameSteps (look view : FileAction ε α) (look view) := by
  intro left right shape
  rw [runFrom_look, runFrom_look]
  refine ⟨?_, shape⟩
  rw [← shaped left, ← shaped right, shape]

theorem sameSteps_change {first second : FileTree → Except Problem FileTree}
    {wrap : Problem → ε}
    (shaped : ∀ left right, SameShape left right →
      (first left).map blank = (second right).map blank) :
    SameSteps (change first wrap) (change second wrap) := by
  intro left right shape
  have same := shaped left right shape
  rw [runFrom_change, runFrom_change]
  generalize first left = leftMade at same ⊢
  generalize second right = rightMade at same ⊢
  cases leftMade with
  | error problem =>
      cases rightMade with
      | error other =>
          cases same
          exact ⟨rfl, shape⟩
      | ok _ => cases same
  | ok leftAfter =>
      cases rightMade with
      | error _ => cases same
      | ok rightAfter => exact ⟨rfl, Except.ok.inj same⟩

theorem sameSteps_advance {steps : FileTree → Outcome} {wrap : Problem → ε}
    (shaped : ∀ tree, steps tree.blank =
      ((steps tree).1, (steps tree).2.blank)) :
    SameSteps (advance steps wrap) (advance steps wrap) := by
  intro left right shape
  have same : ((steps left).1, (steps left).2.blank) =
      ((steps right).1, (steps right).2.blank) := by
    rw [← shaped left, ← shaped right, shape]
  rw [runFrom_advance, runFrom_advance]
  generalize steps left = leftMade at same ⊢
  generalize steps right = rightMade at same ⊢
  obtain ⟨problem?, leftAfter⟩ := leftMade
  obtain ⟨_, rightAfter⟩ := rightMade
  obtain ⟨rfl, shapes⟩ := Prod.mk.inj same
  cases problem? with
  | none => exact ⟨rfl, shapes⟩
  | some problem => exact ⟨rfl, shapes⟩

theorem SameSteps.finallyDo {first second : FileAction ε α}
    {after : FileTree → FileTree} (same : SameSteps first second)
    (shaped : ∀ tree, after tree.blank = (after tree).blank) :
    SameSteps (finallyDo first after) (finallyDo second after) := by
  intro left right shape
  obtain ⟨results, shapes⟩ := same left right shape
  rw [runFrom_finallyDo, runFrom_finallyDo]
  refine ⟨results, ?_⟩
  change (after _).blank = (after _).blank
  rw [← shaped, ← shaped, shapes]

theorem SameSteps.onError {first second : FileAction ε α}
    {after : FileTree → FileTree} (same : SameSteps first second)
    (shaped : ∀ tree, after tree.blank = (after tree).blank) :
    SameSteps (onError first after) (onError second after) := by
  intro left right shape
  have ran := same left right shape
  rw [runFrom_onError, runFrom_onError]
  generalize runFrom first left = leftRan at ran ⊢
  generalize runFrom second right = rightRan at ran ⊢
  obtain ⟨result, leftAfter⟩ := leftRan
  obtain ⟨_, rightAfter⟩ := rightRan
  obtain ⟨rfl, shapes⟩ := ran
  cases result with
  | ok value => exact ⟨rfl, shapes⟩
  | error error =>
      refine ⟨rfl, ?_⟩
      change (after leftAfter).blank = (after rightAfter).blank
      rw [← shaped, ← shaped, shapes]

/-- A file is written and renamed in the same way whatever is written. -/
theorem sameSteps_replace {wrapFirst wrapSecond : Problem → ε}
    (temporary path : Path) (first second : Bytes) :
    SameSteps
      (do
        change (·.writeBytes temporary first) wrapFirst
        finallyDo (change (·.rename temporary path) wrapSecond)
          (·.discard temporary))
      (do
        change (·.writeBytes temporary second) wrapFirst
        finallyDo (change (·.rename temporary path) wrapSecond)
          (·.discard temporary)) := by
  refine SameSteps.bind (sameSteps_change ?_) fun _ =>
    SameSteps.finallyDo (sameSteps_change ?_) ?_
  · intro left right shape
    rw [← writeBytes_blank, ← writeBytes_blank, shape]
  · intro left right shape
    rw [← rename_blank, ← rename_blank, shape]
  · intro tree
    exact discard_blank tree temporary

end FileAction

open FileAction

theorem Cache.sameSteps_atomicWrite (path : Path) (first second : Bytes) :
    SameSteps (atomicWrite path first) (atomicWrite path second) := by
  unfold atomicWrite
  by_cases rootless : path.parent.isNone = true
  · rw [if_pos rootless, if_pos rootless]
    exact sameSteps_throw _
  · rw [if_neg rootless, if_neg rootless]
    refine SameSteps.bind (sameSteps_advance fun tree =>
      createDirectories_blank tree path.directory) fun _ => ?_
    cases path.fileName with
    | none => exact sameSteps_throw _
    | some name =>
        refine SameSteps.bind (sameSteps_look fun tree =>
          freshPath_blank tree path.directory (name ++ ".tmp.") "") ?_
        intro temporary
        exact sameSteps_replace temporary path first second

theorem Artifact.sameSteps_save (path : Path) (artifact : Artifact) :
    SameSteps (artifact.save path) (artifact.save path) := by
  refine SameSteps.bind (sameSteps_advance fun tree =>
    createDirectories_blank tree path.directory) fun _ => ?_
  refine SameSteps.bind (sameSteps_look fun tree =>
    freshPath_blank tree path.directory ".artifact-" ".tmp") ?_
  intro temporary
  refine SameSteps.bind (sameSteps_change ?_) fun _ =>
    SameSteps.onError ?_ fun tree => discard_blank tree temporary
  · intro left right shape
    rw [← writeBytes_blank, ← writeBytes_blank, shape]
  · cases artifact.isAmbiguous with
    | true => exact sameSteps_throw _
    | false =>
        refine sameSteps_change fun left right shape => ?_
        rw [← rename_blank, ← rename_blank, shape]

end Deobfuscate
