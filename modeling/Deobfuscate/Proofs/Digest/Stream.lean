import Deobfuscate.Proofs.Digest.Framing
import Deobfuscate.Proofs.Digest.Walk
import Deobfuscate.Proofs.FileTree.PathOrder

/-!
# What the digest of inputs depends on

An input stands for a value: a scalar for itself, a file for the hash of its
content, a directory for the hashes of the files below it by their relative
paths.  Values say nothing about the order in which files were met or given.

Inputs that stand for values are framed, and their bytes determine the values
and nothing else.
-/

namespace Deobfuscate

/-- What an input stands for. -/
inductive InputValue
  | bytes (value : Bytes)
  | text (value : String)
  | int32 (value : Int32)
  | int64 (value : Int64)
  | bool (value : Bool)
  | file (hash : Bytes)
  | files (hashes : List Bytes)
  | directory (hashes : Dict Bytes)
  | absent
  deriving DecidableEq

namespace InputValue

/-- All lengths and counts fit into eight bytes. -/
def Fits : InputValue → Prop
  | bytes value => value.length < lengthLimit
  | text value => (Text.encode value).length < lengthLimit
  | files hashes => hashes.length < lengthLimit
  | directory hashes =>
      hashes.size < lengthLimit ∧
        ∀ name ∈ hashes.keys, (Text.encode name).length < lengthLimit
  | _ => True

instance : DecidablePred Fits
  | bytes _ | text _ | files _ => inferInstanceAs (Decidable (_ < _))
  | directory _ => inferInstanceAs (Decidable (_ ∧ _))
  | int32 _ | int64 _ | bool _ | file _ | absent =>
      inferInstanceAs (Decidable True)

def resolved : InputValue → ResolvedInput
  | bytes value => .bytes value
  | text value => .text value
  | int32 value => .int32 value
  | int64 value => .int64 value
  | bool value => .bool value
  | file hash => .file hash
  | files hashes => .files hashes
  | directory hashes => .directory hashes.toList
  | absent => .absent

theorem resolved_injective {left right : InputValue}
    (same : left.resolved = right.resolved) : left = right := by
  cases left <;> cases right <;> simp_all [resolved]
  exact Dict.toList_injective same

end InputValue

def FileTree.HashesTo (tree : FileTree) (path : Path) (hash : Bytes) : Prop :=
  ∃ content, tree.readBytes path = .ok content ∧ hash = Sha256.hash content

def FileTree.HashesBelow (tree : FileTree) (location : Location)
    (hashes : Dict Bytes) : Prop :=
  ∀ name hash, hashes.get? name = some hash ↔
    ∃ below content, tree.contentAt (location ++ below) = some content ∧
      name = relativeText below ∧ hash = Sha256.hash content

/-- The value an input has in a file tree.  Paths that are too long to be opened
have none. -/
inductive HashInput.Denotes (tree : FileTree) : HashInput → InputValue → Prop
  | bytes (value : Bytes) : Denotes tree (.bytes value) (.bytes value)
  | text (value : String) : Denotes tree (.text value) (.text value)
  | int32 (value : Int32) : Denotes tree (.int32 value) (.int32 value)
  | int64 (value : Int64) : Denotes tree (.int64 value) (.int64 value)
  | bool (value : Bool) : Denotes tree (.bool value) (.bool value)
  | file {path : Path} {hash : Bytes} (hashed : tree.HashesTo path hash) :
      Denotes tree (.file path) (.file hash)
  | files {paths listed : List Path} {hashes : List Bytes}
      (enumerates : Path.Enumerates listed paths)
      (hashed : List.Forall₂ tree.HashesTo listed hashes) :
      Denotes tree (.files paths) (.files hashes)
  | directory {path : Path} {location : Location} {hashes : Dict Bytes}
      (leads : tree.find path = .ok (location, .directory))
      (opened : ∀ below content,
        tree.contentAt (location ++ below) = some content →
          ∃ hash,
            tree.HashesTo (path.child (FileTree.relativeText below)) hash)
      (hashed : tree.HashesBelow location hashes) :
      Denotes tree (.directory path) (.directory hashes)
  | absent : Denotes tree .absent .absent

def Resolves (tree : FileTree) (inputs : List HashInput)
    (values : List InputValue) : Prop :=
  List.Forall₂ (HashInput.Denotes tree) inputs values

namespace FileTree

variable {tree : FileTree} {path other : Path}

theorem hashAt_eq_ok_iff {hash : Bytes} :
    tree.hashAt path = .ok hash ↔ tree.HashesTo path hash :=
  hashAt_eq_ok

/-- Two spellings of a path lead to the same hash. -/
theorem HashesTo.eq_of_components {left right : Bytes}
    (leftHashed : tree.HashesTo path left)
    (rightHashed : tree.HashesTo other right)
    (same : path.components = other.components) : left = right := by
  obtain ⟨leftContent, leftRead, rfl⟩ := leftHashed
  obtain ⟨rightContent, rightRead, rfl⟩ := rightHashed
  have leftHeld := contentAt_target leftRead
  have rightHeld := contentAt_target rightRead
  rw [Path.target_eq_of_components same, rightHeld] at leftHeld
  rw [Option.some.inj leftHeld]

theorem hashes_eq_of_components {left right : List Path}
    {leftHashes rightHashes : List Bytes}
    (leftHashed : List.Forall₂ tree.HashesTo left leftHashes)
    (rightHashed : List.Forall₂ tree.HashesTo right rightHashes)
    (same : left.map Path.components = right.map Path.components) :
    leftHashes = rightHashes := by
  induction leftHashed generalizing right rightHashes with
  | nil =>
      have empty : right = [] := by simpa using same.symm
      subst empty
      exact (List.forall₂_nil_left_iff.1 rightHashed).symm
  | cons first _ inductionHypothesis =>
      cases rightHashed with
      | nil => simp at same
      | cons second later =>
          obtain ⟨sameFirst, sameRest⟩ := List.cons.inj same
          rw [first.eq_of_components second sameFirst,
            inductionHypothesis later sameRest]

/-- The hashes below a location are determined by the contents there, wherever
it is. -/
theorem HashesBelow.eq_of_contents {leftTree rightTree : FileTree}
    {left right : Location} {leftHashes rightHashes : Dict Bytes}
    (leftHashed : leftTree.HashesBelow left leftHashes)
    (rightHashed : rightTree.HashesBelow right rightHashes)
    (same : ∀ below,
      leftTree.contentAt (left ++ below) =
        rightTree.contentAt (right ++ below)) :
    leftHashes = rightHashes := by
  apply Dict.ext_get?
  intro name
  apply Option.ext
  intro hash
  rw [leftHashed, rightHashed]
  simp only [same]

end FileTree

namespace HashInput

variable {tree : FileTree}

/-- An input has at most one value. -/
theorem Denotes.unique {input : HashInput} {left right : InputValue}
    (leftDenoted : input.Denotes tree left)
    (rightDenoted : input.Denotes tree right) : left = right := by
  cases leftDenoted with
  | bytes => cases rightDenoted; rfl
  | text => cases rightDenoted; rfl
  | int32 => cases rightDenoted; rfl
  | int64 => cases rightDenoted; rfl
  | bool => cases rightDenoted; rfl
  | file leftHashed =>
      cases rightDenoted with
      | file rightHashed =>
          rw [leftHashed.eq_of_components rightHashed rfl]
  | files leftEnumerates leftHashed =>
      cases rightDenoted with
      | files rightEnumerates rightHashed =>
          have same := leftEnumerates.unique rightEnumerates
          rw [FileTree.hashes_eq_of_components leftHashed rightHashed
            (by rw [same])]
  | directory leftLeads _ leftHashed =>
      cases rightDenoted with
      | directory rightLeads _ rightHashed =>
          rw [leftLeads] at rightLeads
          cases rightLeads
          rw [leftHashed.eq_of_contents rightHashed fun _ => rfl]
  | absent => cases rightDenoted; rfl

/-- Directories with the same contents have the same value. -/
theorem Denotes.directory_eq {leftTree rightTree : FileTree}
    {leftPath rightPath : Path} {leftValue rightValue : InputValue}
    (leftDenoted : (HashInput.directory leftPath).Denotes leftTree leftValue)
    (rightDenoted : (HashInput.directory rightPath).Denotes rightTree rightValue)
    (same : ∀ below,
      leftTree.contentAt (leftPath.target ++ below) =
        rightTree.contentAt (rightPath.target ++ below)) :
    leftValue = rightValue := by
  cases leftDenoted with
  | directory leftLeads _ leftHashed =>
      cases rightDenoted with
      | directory rightLeads _ rightHashed =>
          rw [← (FileTree.node?_target leftLeads).1,
            ← (FileTree.node?_target rightLeads).1] at same
          rw [leftHashed.eq_of_contents rightHashed same]

/-- The value of files depends neither on their order nor on repetitions. -/
theorem Denotes.files_eq {leftPaths rightPaths : List Path}
    {leftValue rightValue : InputValue}
    (leftDenoted : (HashInput.files leftPaths).Denotes tree leftValue)
    (rightDenoted : (HashInput.files rightPaths).Denotes tree rightValue)
    (same : ∀ path, path ∈ leftPaths ↔ path ∈ rightPaths) :
    leftValue = rightValue := by
  cases leftDenoted with
  | files leftEnumerates leftHashed =>
      cases rightDenoted with
      | files rightEnumerates rightHashed =>
          have listed := leftEnumerates.map_components_eq rightEnumerates same
          rw [FileTree.hashes_eq_of_components leftHashed rightHashed listed]

/-- Files that can all be read have a value. -/
theorem exists_denotes_files {paths : List Path}
    (readable : ∀ path ∈ paths, ∃ content,
      tree.readBytes path = .ok content) :
    ∃ value, (HashInput.files paths).Denotes tree value := by
  have enumerates := Path.enumerates_sortDistinct paths
  have hashable : ∀ path ∈ Path.sortDistinct paths, ∃ hash,
      tree.hashAt path = .ok hash := by
    intro path member
    obtain ⟨content, read⟩ := readable path (enumerates.subset member)
    exact ⟨_, FileTree.hashAt_eq_ok_iff.2 ⟨content, read, rfl⟩⟩
  obtain ⟨hashes, mapped⟩ := exists_mapM_eq_ok hashable
  have hashed := (mapM_eq_ok.1 mapped).imp
    fun _ _ given => FileTree.hashAt_eq_ok_iff.1 given
  exact ⟨_, .files enumerates hashed⟩

theorem resolves_unique {inputs : List HashInput}
    {left right : List InputValue} (leftResolves : Resolves tree inputs left)
    (rightResolves : Resolves tree inputs right) : left = right := by
  have functional : Relator.RightUnique (Denotes tree) :=
    fun _ _ _ leftDenoted rightDenoted => leftDenoted.unique rightDenoted
  exact List.right_unique_forall₂' functional leftResolves rightResolves

/-! ## Resolving gives the value -/

private theorem mapM_named_eq_ok {give : String → Except InputError Bytes}
    {names : List String} {entries : List (String × Bytes)}
    (mapped : (names.mapM fun name => do return (name, ← give name)) =
      .ok entries) :
    entries.map Prod.fst = names ∧
      ∀ entry ∈ entries, give entry.1 = .ok entry.2 := by
  have pointwise := mapM_eq_ok.1 mapped
  clear mapped
  induction pointwise with
  | nil =>
      exact ⟨rfl, fun _ member => absurd member List.not_mem_nil⟩
  | cons given _ inductionHypothesis =>
      obtain ⟨hash, hashed, pair⟩ := bind_eq_ok.1 given
      cases pair
      obtain ⟨named, each⟩ := inductionHypothesis
      exact ⟨by rw [List.map_cons, named],
        List.forall_mem_cons.2 ⟨hashed, each⟩⟩

section Directory

variable {path : Path} {location : Location}
  {entries : List (String × Bytes)} (formed : tree.WellFormed)
  (leads : tree.find path = .ok (location, .directory))
  (mapped : ((tree.relativeFiles location).mapM fun name => do
    return (name, ← tree.hashAt (path.child name))) = .ok entries)

include mapped

theorem entries_of_mapM :
    entries.map Prod.fst = tree.relativeFiles location ∧
      ∀ name hash, (name, hash) ∈ entries →
        tree.hashAt (path.child name) = .ok hash := by
  obtain ⟨named, each⟩ := mapM_named_eq_ok mapped
  exact ⟨named, fun name hash member => each (name, hash) member⟩

include formed

/-- Every file below a directory that was hashed can be opened. -/
theorem opened_of_mapM {below : Location} {content : Bytes}
    (held : tree.contentAt (location ++ below) = some content) :
    ∃ hash,
      tree.HashesTo (path.child (FileTree.relativeText below)) hash := by
  obtain ⟨named, each⟩ := entries_of_mapM mapped
  have listed := (FileTree.mem_relativeFiles formed).2
    ⟨below, content, held, rfl⟩
  rw [← named] at listed
  obtain ⟨⟨name, hash⟩, member, same⟩ := List.mem_map.1 listed
  dsimp only at same
  subst same
  exact ⟨hash, FileTree.hashAt_eq_ok_iff.1 (each _ hash member)⟩

include leads

/-- Hashing the files below a directory lists the hashes below it. -/
theorem hashesBelow_of_mapM :
    ∃ hashes : Dict Bytes,
      hashes.toList = entries ∧ tree.HashesBelow location hashes := by
  have directory := (FileTree.find_eq_ok.1 leads).2
  obtain ⟨named, each⟩ := entries_of_mapM mapped
  have sorted : Bindings.Sorted entries := by
    have increasing := FileTree.relativeFiles_increasing formed directory
    rw [← named] at increasing
    exact List.pairwise_map.1 increasing
  refine ⟨⟨entries, sorted⟩, rfl, ?_⟩
  intro name hash
  rw [Dict.get?_eq_some_iff]
  constructor
  · intro member
    have listed : name ∈ tree.relativeFiles location := by
      rw [← named]
      exact List.mem_map_of_mem member
    obtain ⟨below, content, held, rfl⟩ :=
      (FileTree.mem_relativeFiles formed).1 listed
    have hashed := each (FileTree.relativeText below) hash member
    exact ⟨below, content, held, rfl,
      FileTree.hashAt_child formed directory leads held hashed⟩
  · rintro ⟨below, content, held, rfl, rfl⟩
    have listed := (FileTree.mem_relativeFiles formed).2
      ⟨below, content, held, rfl⟩
    rw [← named] at listed
    obtain ⟨⟨name, hash⟩, member, same⟩ := List.mem_map.1 listed
    dsimp only at same
    subst same
    have hashed := each (FileTree.relativeText below) hash member
    rw [← FileTree.hashAt_child formed directory leads held hashed]
    exact member

end Directory

theorem resolveAnew_directory (formed : tree.WellFormed) {path : Path}
    {resolved : ResolvedInput} :
    (directory path).resolveAnew tree = .ok resolved ↔
      ∃ value, (directory path).Denotes tree value ∧
        value.resolved = resolved := by
  constructor
  · intro resolves
    simp only [resolveAnew] at resolves
    split at resolves
    · rename_i location leads
      obtain ⟨entries, mapped, result⟩ := bind_eq_ok.1 resolves
      cases result
      obtain ⟨hashes, listed, hashed⟩ := hashesBelow_of_mapM formed leads mapped
      refine ⟨_, .directory leads ?_ hashed, ?_⟩
      · intro below content held
        exact opened_of_mapM formed mapped held
      · rw [InputValue.resolved, listed]
    · cases resolves
  · rintro ⟨value, denoted, rfl⟩
    cases denoted with
    | directory leads opened hashed =>
        rename_i location hashes
        simp only [resolveAnew, leads]
        have total : ∀ name ∈ tree.relativeFiles location, ∃ entry,
            (do return (name, ← tree.hashAt (path.child name)) :
              Except InputError (String × Bytes)) = .ok entry := by
          intro name listed
          obtain ⟨below, content, held, rfl⟩ :=
            (FileTree.mem_relativeFiles formed).1 listed
          obtain ⟨hash, hashes⟩ := opened below content held
          exact ⟨_, bind_eq_ok.2
            ⟨hash, FileTree.hashAt_eq_ok_iff.2 hashes, rfl⟩⟩
        obtain ⟨entries, mapped⟩ := exists_mapM_eq_ok total
        -- The contents leave no choice, so the entries are the given hashes.
        obtain ⟨others, listed, otherHashed⟩ :=
          hashesBelow_of_mapM formed leads mapped
        have same : others = hashes :=
          otherHashed.eq_of_contents hashed fun _ => rfl
        refine bind_eq_ok.2 ⟨entries, mapped, ?_⟩
        rw [InputValue.resolved, ← same, listed]
        rfl

private theorem resolveAnew_constant {input : HashInput}
    {value : InputValue} {resolved : ResolvedInput}
    (denoted : input.Denotes tree value)
    (given : input.resolveAnew tree = .ok value.resolved) :
    input.resolveAnew tree = .ok resolved ↔
      ∃ other, input.Denotes tree other ∧ other.resolved = resolved := by
  rw [given]
  constructor
  · intro same
    exact ⟨value, denoted, Except.ok.inj same⟩
  · rintro ⟨other, otherDenoted, rfl⟩
    rw [otherDenoted.unique denoted]

/-- An input resolves to its value, and to nothing if it has none. -/
theorem resolveAnew_eq_ok (formed : tree.WellFormed) {input : HashInput}
    {resolved : ResolvedInput} :
    input.resolveAnew tree = .ok resolved ↔
      ∃ value, input.Denotes tree value ∧ value.resolved = resolved := by
  cases input with
  | file path =>
      constructor
      · intro resolves
        obtain ⟨hash, hashed, result⟩ := bind_eq_ok.1 resolves
        cases result
        exact ⟨_, .file (FileTree.hashAt_eq_ok_iff.1 hashed), rfl⟩
      · rintro ⟨value, denoted, rfl⟩
        cases denoted with
        | file hashed =>
            exact bind_eq_ok.2
              ⟨_, FileTree.hashAt_eq_ok_iff.2 hashed, rfl⟩
  | files paths =>
      constructor
      · intro resolves
        obtain ⟨hashes, hashed, result⟩ := bind_eq_ok.1 resolves
        cases result
        have pointwise := (mapM_eq_ok.1 hashed).imp
          fun _ _ given => FileTree.hashAt_eq_ok_iff.1 given
        exact ⟨_, .files (Path.enumerates_sortDistinct paths) pointwise, rfl⟩
      · rintro ⟨value, denoted, rfl⟩
        cases denoted with
        | files enumerates hashed =>
            rw [enumerates.unique (Path.enumerates_sortDistinct paths)]
              at hashed
            have pointwise := hashed.imp
              fun _ _ given => FileTree.hashAt_eq_ok_iff.2 given
            exact bind_eq_ok.2 ⟨_, mapM_eq_ok.2 pointwise, rfl⟩
  | directory path => exact resolveAnew_directory formed
  | bytes value => exact resolveAnew_constant (.bytes value) rfl
  | text value => exact resolveAnew_constant (.text value) rfl
  | int32 value => exact resolveAnew_constant (.int32 value) rfl
  | int64 value => exact resolveAnew_constant (.int64 value) rfl
  | bool value => exact resolveAnew_constant (.bool value) rfl
  | absent => exact resolveAnew_constant .absent rfl

/-- The values of inputs are carried by what the inputs resolve to. -/
theorem mapM_resolveAnew_eq_ok (formed : tree.WellFormed)
    {inputs : List HashInput} {results : List ResolvedInput} :
    inputs.mapM (resolveAnew tree) = .ok results ↔
      ∃ values, Resolves tree inputs values ∧
        values.map InputValue.resolved = results := by
  rw [mapM_eq_ok]
  constructor
  · intro pointwise
    induction pointwise with
    | nil =>
        exact ⟨[], .nil, rfl⟩
    | cons given _ inductionHypothesis =>
        obtain ⟨value, denoted, rfl⟩ := (resolveAnew_eq_ok formed).1 given
        obtain ⟨values, resolves, rfl⟩ := inductionHypothesis
        exact ⟨value :: values, .cons denoted resolves, rfl⟩
  · rintro ⟨values, resolves, rfl⟩
    refine List.forall₂_map_right_iff.2 (resolves.imp ?_)
    intro input value denoted
    exact (resolveAnew_eq_ok formed).2 ⟨value, denoted, rfl⟩

/-! ## Sizes -/

theorem hashLength_of_hashesTo {path : Path} {hash : Bytes}
    (hashed : tree.HashesTo path hash) : hash.length = hashLength := by
  obtain ⟨content, _, rfl⟩ := hashed
  exact Sha256.length_hash content

theorem Denotes.sized {input : HashInput} {value : InputValue}
    (denoted : input.Denotes tree value) (fits : value.Fits) :
    value.resolved.Sized := by
  cases denoted with
  | file hashed => exact hashLength_of_hashesTo hashed
  | files enumerates hashed =>
      refine ⟨fits, ?_⟩
      clear fits enumerates
      induction hashed with
      | nil => exact fun _ member => absurd member List.not_mem_nil
      | cons first _ inductionHypothesis =>
          exact List.forall_mem_cons.2
            ⟨hashLength_of_hashesTo first, inductionHypothesis⟩
  | directory _ _ hashed =>
      obtain ⟨few, short⟩ := fits
      refine ⟨few, ?_⟩
      rintro ⟨name, hash⟩ member
      obtain ⟨_, content, _, _, rfl⟩ :=
        (hashed name hash).1 (Dict.get?_eq_some_iff.2 member)
      exact ⟨short name (List.mem_map_of_mem member),
        Sha256.length_hash content⟩
  | _ => exact fits

theorem resolves_sized {inputs : List HashInput} {values : List InputValue}
    (resolves : Resolves tree inputs values)
    (fits : ∀ value ∈ values, value.Fits) :
    ∀ resolved ∈ values.map InputValue.resolved, resolved.Sized := by
  induction resolves with
  | nil =>
      exact fun _ member => absurd member List.not_mem_nil
  | cons denoted _ inductionHypothesis =>
      obtain ⟨first, later⟩ := List.forall_mem_cons.1 fits
      exact List.forall_mem_cons.2
        ⟨denoted.sized first, inductionHypothesis later⟩

end HashInput

/-- With a faithful memo, the bytes fed to the digest are the frames of the
values of the inputs. -/
theorem digestStream_eq_ok {tree : FileTree} {memo : Memo}
    (formed : tree.WellFormed) (faithful : memo.Faithful tree)
    {inputs : List HashInput} {stream : Bytes} :
    ((digestStream tree inputs).run memo).1 = .ok stream ↔
      ∃ values, Resolves tree inputs values ∧
        stream = frameInputs (values.map InputValue.resolved) := by
  rw [(Computes.digestStream inputs memo faithful).1, streamAnew, bind_eq_ok]
  constructor
  · rintro ⟨results, resolved, framed⟩
    obtain ⟨values, resolves, rfl⟩ :=
      (HashInput.mapM_resolveAnew_eq_ok formed).1 resolved
    exact ⟨values, resolves, (Except.ok.inj framed).symm⟩
  · rintro ⟨values, resolves, rfl⟩
    exact ⟨_, (HashInput.mapM_resolveAnew_eq_ok formed).2
      ⟨values, resolves, rfl⟩, rfl⟩

/-- Frames of values that fit determine the values. -/
theorem frame_values_injective {leftTree rightTree : FileTree}
    {leftInputs rightInputs : List HashInput}
    {leftValues rightValues : List InputValue}
    (leftResolves : Resolves leftTree leftInputs leftValues)
    (rightResolves : Resolves rightTree rightInputs rightValues)
    (leftFits : ∀ value ∈ leftValues, value.Fits)
    (rightFits : ∀ value ∈ rightValues, value.Fits)
    (same : frameInputs (leftValues.map InputValue.resolved) =
      frameInputs (rightValues.map InputValue.resolved)) :
    leftValues = rightValues := by
  have resolved := frameInputs_injective
    (HashInput.resolves_sized leftResolves leftFits)
    (HashInput.resolves_sized rightResolves rightFits) same
  exact List.map_injective_iff.2
    (fun _ _ => InputValue.resolved_injective) resolved

/-- Inputs are digested exactly when they have values, and the bytes fed to the
digest are the same for two lists of inputs exactly when their values are: no
list runs together into the bytes of another.  The value of a directory depends
on the contents below it, not on where it is or in which order it is walked; the
value of files, which they have if all can be read, depends on neither order nor
repetition. -/
theorem digestStream_unambiguous {leftTree rightTree : FileTree}
    {leftMemo rightMemo : Memo} (leftFormed : leftTree.WellFormed)
    (rightFormed : rightTree.WellFormed)
    (leftFaithful : leftMemo.Faithful leftTree)
    (rightFaithful : rightMemo.Faithful rightTree)
    (leftInputs rightInputs : List HashInput) :
    ((∃ stream,
        ((digestStream leftTree leftInputs).run leftMemo).1 = .ok stream) ↔
      ∃! values, Resolves leftTree leftInputs values) ∧
    (∀ leftValues rightValues,
      Resolves leftTree leftInputs leftValues →
      Resolves rightTree rightInputs rightValues →
      (∀ value ∈ leftValues, value.Fits) →
      (∀ value ∈ rightValues, value.Fits) →
      ∃ leftStream rightStream,
        ((digestStream leftTree leftInputs).run leftMemo).1 =
          .ok leftStream ∧
        ((digestStream rightTree rightInputs).run rightMemo).1 =
          .ok rightStream ∧
        (leftStream = rightStream ↔ leftValues = rightValues)) ∧
    (∀ leftPath rightPath leftValue rightValue,
      (HashInput.directory leftPath).Denotes leftTree leftValue →
      (HashInput.directory rightPath).Denotes rightTree rightValue →
      (∀ below,
        leftTree.contentAt (leftPath.target ++ below) =
          rightTree.contentAt (rightPath.target ++ below)) →
      leftValue = rightValue) ∧
    (∀ leftPaths rightPaths : List Path,
      (∀ path, path ∈ leftPaths ↔ path ∈ rightPaths) →
      (∀ leftValue rightValue,
        (HashInput.files leftPaths).Denotes leftTree leftValue →
        (HashInput.files rightPaths).Denotes leftTree rightValue →
        leftValue = rightValue) ∧
      ((∀ path ∈ leftPaths, ∃ content,
          leftTree.readBytes path = .ok content) →
        ∃ value, (HashInput.files leftPaths).Denotes leftTree value ∧
          (HashInput.files rightPaths).Denotes leftTree value)) := by
  refine ⟨⟨?_, ?_⟩, ?_, ?_, ?_⟩
  · rintro ⟨stream, ran⟩
    obtain ⟨values, resolves, _⟩ :=
      (digestStream_eq_ok leftFormed leftFaithful).1 ran
    exact ⟨values, resolves,
      fun others resolved => HashInput.resolves_unique resolved resolves⟩
  · rintro ⟨values, resolves, _⟩
    exact ⟨_, (digestStream_eq_ok leftFormed leftFaithful).2
      ⟨values, resolves, rfl⟩⟩
  · intro leftValues rightValues leftResolves rightResolves leftFits rightFits
    refine ⟨_, _, (digestStream_eq_ok leftFormed leftFaithful).2
        ⟨leftValues, leftResolves, rfl⟩,
      (digestStream_eq_ok rightFormed rightFaithful).2
        ⟨rightValues, rightResolves, rfl⟩, ?_⟩
    constructor
    · exact frame_values_injective leftResolves rightResolves leftFits rightFits
    · rintro rfl
      rfl
  · intro leftPath rightPath leftValue rightValue leftDenoted rightDenoted
    exact leftDenoted.directory_eq rightDenoted
  · intro leftPaths rightPaths same
    refine ⟨fun leftValue rightValue leftDenoted rightDenoted =>
      leftDenoted.files_eq rightDenoted same, fun readable => ?_⟩
    obtain ⟨value, leftDenoted⟩ := HashInput.exists_denotes_files readable
    obtain ⟨other, rightDenoted⟩ := HashInput.exists_denotes_files
      fun path member => readable path ((same path).2 member)
    rw [← leftDenoted.files_eq rightDenoted same] at rightDenoted
    exact ⟨value, leftDenoted, rightDenoted⟩

/-- A directory with two files. -/
def plantedTree : FileTree :=
  { nodes := [(["src"], .directory), (["src", "a"], .file [65] 0 0),
      (["src", "b"], .file [66] 1 1)] }

/-- The same files at another place, made in another order. -/
def transplantedTree : FileTree :=
  { nodes := [(["lib", "b"], .file [66] 0 0), (["lib"], .directory),
      (["lib", "a"], .file [65] 1 1)] }

def plantedHashes : Dict Bytes :=
  Dict.ofList [("a", Sha256.hash [65]), ("b", Sha256.hash [66])]

private theorem plantedHashes_eq_some {name : String} {hash : Bytes} :
    plantedHashes.get? name = some hash ↔
      (name = "a" ∧ hash = Sha256.hash [65]) ∨
        (name = "b" ∧ hash = Sha256.hash [66]) := by
  have listed : plantedHashes.toList =
      [("a", Sha256.hash [65]), ("b", Sha256.hash [66])] := rfl
  rw [Dict.get?_eq_some_iff, listed]
  simp

private theorem planted_fits : (InputValue.directory plantedHashes).Fits := by
  have listed : plantedHashes.toList =
      [("a", Sha256.hash [65]), ("b", Sha256.hash [66])] := rfl
  refine ⟨by simp [Dict.size, listed, lengthLimit], ?_⟩
  intro name member
  have named : name = "a" ∨ name = "b" := by
    simpa [Dict.keys, listed] using member
  rcases named with rfl | rfl <;> decide

/-- A directory with the two files and nothing else has their hashes for its
value. -/
private theorem denotes_planted {tree : FileTree} {path : Path}
    {location : Location} (leads : tree.find path = .ok (location, .directory))
    (contents : ∀ below content,
      tree.contentAt (location ++ below) = some content ↔
        (below = ["a"] ∧ content = [65]) ∨ (below = ["b"] ∧ content = [66]))
    (first : tree.readBytes (path.child "a") = .ok [65])
    (second : tree.readBytes (path.child "b") = .ok [66]) :
    (HashInput.directory path).Denotes tree (.directory plantedHashes) := by
  refine .directory leads ?_ ?_
  · intro below content held
    rcases (contents below content).1 held with ⟨rfl, rfl⟩ | ⟨rfl, rfl⟩
    · exact ⟨_, [65], first, rfl⟩
    · exact ⟨_, [66], second, rfl⟩
  · intro name hash
    rw [plantedHashes_eq_some]
    constructor
    · rintro (⟨rfl, rfl⟩ | ⟨rfl, rfl⟩)
      · exact ⟨["a"], [65], (contents _ _).2 (Or.inl ⟨rfl, rfl⟩), rfl, rfl⟩
      · exact ⟨["b"], [66], (contents _ _).2 (Or.inr ⟨rfl, rfl⟩), rfl, rfl⟩
    · rintro ⟨below, content, held, rfl, rfl⟩
      rcases (contents below content).1 held with ⟨rfl, rfl⟩ | ⟨rfl, rfl⟩
      · exact Or.inl ⟨rfl, rfl⟩
      · exact Or.inr ⟨rfl, rfl⟩

private theorem planted_denotes :
    (HashInput.directory ⟨"src"⟩).Denotes plantedTree
      (.directory plantedHashes) := by
  have leads : plantedTree.find ⟨"src"⟩ = .ok (["src"], .directory) := rfl
  refine denotes_planted leads ?_ rfl rfl
  intro below content
  constructor
  · intro held
    simp [FileTree.contentAt, FileTree.node?, plantedTree,
      List.lookup_cons] at held
    grind
  · rintro (⟨rfl, rfl⟩ | ⟨rfl, rfl⟩) <;> rfl

private theorem transplanted_denotes :
    (HashInput.directory ⟨"lib"⟩).Denotes transplantedTree
      (.directory plantedHashes) := by
  have leads : transplantedTree.find ⟨"lib"⟩ =
      .ok (["lib"], .directory) := rfl
  refine denotes_planted leads ?_ rfl rfl
  intro below content
  constructor
  · intro held
    simp [FileTree.contentAt, FileTree.node?, transplantedTree,
      List.lookup_cons] at held
    grind
  · rintro (⟨rfl, rfl⟩ | ⟨rfl, rfl⟩) <;> rfl

/-- The two directories, whose files are met in different orders, are fed to the
digest alike, and texts that run together into the same characters are not. -/
theorem digestStream_unambiguous_planted :
    plantedTree.filesBelow ["src"] ≠ transplantedTree.filesBelow ["lib"] ∧
    (∃ left right,
      ((digestStream plantedTree [.directory ⟨"src"⟩]).run {}).1 = .ok left ∧
      ((digestStream transplantedTree [.directory ⟨"lib"⟩]).run {}).1 =
        .ok right ∧ left = right) ∧
    ∃ left right,
      ((digestStream plantedTree
        [.directory ⟨"src"⟩, .text "ab", .text "c"]).run {}).1 = .ok left ∧
      ((digestStream transplantedTree
        [.directory ⟨"lib"⟩, .text "a", .text "bc"]).run {}).1 = .ok right ∧
      left ≠ right := by
  have planted : plantedTree.WellFormed := by decide
  have transplanted : transplantedTree.WellFormed := by decide
  refine ⟨by decide, ?_, ?_⟩
  · obtain ⟨left, right, ranLeft, ranRight, same⟩ :=
      (digestStream_unambiguous planted transplanted
        (Memo.faithful_empty _) (Memo.faithful_empty _)
        [.directory ⟨"src"⟩] [.directory ⟨"lib"⟩]).2.1
        [.directory plantedHashes] [.directory plantedHashes]
        (.cons planted_denotes .nil) (.cons transplanted_denotes .nil)
        (by simpa using planted_fits) (by simpa using planted_fits)
    exact ⟨left, right, ranLeft, ranRight, same.2 rfl⟩
  · have short : ∀ text ∈ ["ab", "c", "a", "bc"],
        (InputValue.text text).Fits := by
      intro text member
      simp only [List.mem_cons, List.not_mem_nil, or_false] at member
      rcases member with rfl | rfl | rfl | rfl <;> decide
    obtain ⟨left, right, ranLeft, ranRight, same⟩ :=
      (digestStream_unambiguous planted transplanted
        (Memo.faithful_empty _) (Memo.faithful_empty _)
        [.directory ⟨"src"⟩, .text "ab", .text "c"]
        [.directory ⟨"lib"⟩, .text "a", .text "bc"]).2.1
        [.directory plantedHashes, .text "ab", .text "c"]
        [.directory plantedHashes, .text "a", .text "bc"]
        (.cons planted_denotes (.cons (.text _) (.cons (.text _) .nil)))
        (.cons transplanted_denotes (.cons (.text _) (.cons (.text _) .nil)))
        (by simp [planted_fits, short]) (by simp [planted_fits, short])
    exact ⟨left, right, ranLeft, ranRight, fun equal => by
      simpa using same.1 equal⟩

end Deobfuscate
