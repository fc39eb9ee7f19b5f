import Deobfuscate.Pipeline
import Deobfuscate.Proofs.Cache.Replacing

/-!
# Publishing mapping tables

Mapping tables are written one after another while the lock of the cache is held
alone, so nobody who asks for the lock sees some of them new and some of them
old.  What the tables are derived from is read before the first of them is
written; the exception files are read only after the last.  So an input that
cannot be used leaves everything as it was, unless it is an exception file: then
the tables are new and the merged exception tables are old when the lock is
released.
-/

namespace Deobfuscate

open FileTree

namespace Mapping

/-- Files hold texts. -/
def Written (tree : FileTree) (files : List (Path × String)) : Prop :=
  ∀ file ∈ files, tree.contentAt file.1.target = some (Text.encode file.2)

/-- What stands at the places of paths is what stood there, unless nothing did:
then a directory may have been made. -/
def Untouched (before after : FileTree) (paths : List Path) : Prop :=
  ∀ path ∈ paths, Kept (fun _ => True) before after path.target

def places (files : List (Path × String)) : List Location :=
  files.map fun file => file.1.target

section Writing

variable {before after : FileTree} {files done left : List (Path × String)}
  {result : Except Error Unit}

theorem Written.append (first : Written after done)
    (second : Written after left) : Written after (done ++ left) := by
  intro file member
  obtain early | late := List.mem_append.1 member
  · exact first file early
  · exact second file late

/-- Files keep their texts while others are written. -/
theorem Written.of_altered (written : Written before files)
    (altered : Alters (fun _ => True) (· ∈ places done) before after)
    (sound : before.Sound)
    (apart : ∀ file ∈ files, file.1.target ∉ places done) :
    Written after files := by
  intro file member
  rw [((altered sound).2 _ (apart file member)).contentAt_eq]
  exact written file member

theorem Untouched.of_altered
    (altered : Alters (fun _ => True) (· ∈ places done) before after)
    (sound : before.Sound)
    (apart : ∀ file ∈ files, file.1.target ∉ places done) :
    Untouched before after (files.map Prod.fst) := by
  intro path member
  obtain ⟨file, listed, rfl⟩ := List.mem_map.1 member
  exact (altered sound).2 _ (apart file listed)

/-- Files with places of their own are told apart when they are cut in two. -/
theorem not_mem_places_of_nodup (distinct : (places (done ++ left)).Nodup) :
    (∀ file ∈ done, file.1.target ∉ places left) ∧
      ∀ file ∈ left, file.1.target ∉ places done := by
  rw [places, List.map_append] at distinct
  have apart := (List.nodup_append.1 distinct).2.2
  constructor
  · intro file inside member
    exact apart _ (List.mem_map_of_mem inside) _ member rfl
  · intro file inside member
    exact apart _ member _ (List.mem_map_of_mem inside) rfl

/-- Texts are written up to the first that cannot be, and the places of the
others stay as they are. -/
theorem writeTexts_cases (distinct : (places files).Nodup)
    (sound : before.Sound)
    (ran : runFrom (writeTexts files) before = (result, after)) :
    ∃ done left, files = done ++ left ∧ Written after done ∧
      Alters (fun _ => True) (· ∈ places done) before after ∧
      (∀ location, before.node? location = some .directory →
        after.node? location = some .directory) ∧
      (result = .ok () ∧ left = [] ∨
        left ≠ [] ∧ ∃ error, result = .error (.unwritable error)) := by
  induction files generalizing before with
  | nil =>
      cases ran
      exact ⟨[], [], rfl, by simp [Written], .refl _ _ _, fun _ => id,
        .inl ⟨rfl, rfl⟩⟩
  | cons file rest inductionHypothesis =>
      obtain ⟨path, text⟩ := file
      obtain ⟨apart, distinct⟩ := List.nodup_cons.1 distinct
      rw [writeTexts, runFrom_bind] at ran
      rw [FileAction.runFrom_mapError] at ran
      rcases wrote : runFrom (Cache.atomicWrite path (Text.encode text)) before
        with ⟨first, middle⟩
      rw [wrote] at ran
      have stays := fun location =>
        @Cache.directory_of_atomicWrite _ _ _ _ sound _ wrote location
      obtain ⟨⟨error, rfl⟩, extended⟩ | ⟨rfl, altered, _, _, found⟩ :=
        Cache.atomicWrite_cases sound wrote
      · cases ran
        refine ⟨[], (path, text) :: rest, rfl, by simp [Written], ?_, stays,
          .inr ⟨List.cons_ne_nil _ _, error, rfl⟩⟩
        exact extended.of_extends.mono (fun _ _ => trivial) fun _ => id
      · have middleSound := (altered sound).1
        obtain ⟨done, left, rfl, written, later, stay, outcome⟩ :=
          inductionHypothesis distinct middleSound ran
        have here : path.target ∉ places done := by
          intro member
          refine apart ?_
          simp only [List.map_append, List.mem_append]
          exact .inl member
        have first : Written middle [(path, text)] := by
          intro file member
          rw [List.mem_singleton.1 member]
          exact contentAt_eq_some.2 ⟨_, _, (node?_target found).2⟩
        refine ⟨(path, text) :: done, left, rfl, ?_, ?_, ?_, outcome⟩
        · refine (first.of_altered later middleSound ?_).append written
          intro file member
          rwa [List.mem_singleton.1 member]
        · refine Alters.trans (altered.mono (fun _ _ => trivial) ?_)
            (later.mono (fun _ => id) ?_)
          · rintro location rfl
            simp [places]
          · intro location member
            exact List.mem_cons_of_mem _ member
        · exact fun location directory => stay _ (stays _ directory)

theorem keepsLocks_writeTexts (files : List (Path × String)) :
    KeepsLocks (writeTexts files) := by
  induction files with
  | nil => exact fun _ => rfl
  | cons file rest inductionHypothesis =>
      exact (Cache.keepsLocks_atomicWrite file.1 _).mapError.bind
        fun _ => inductionHypothesis

end Writing

/-- When results are asked for one by one and this fails, it fails at one of the
items. -/
theorem exists_of_mapM_eq_error {ε α β : Type} {give : α → Except ε β}
    {items : List α} {error : ε} (failed : items.mapM give = .error error) :
    ∃ item ∈ items, give item = .error error := by
  by_contra none
  push Not at none
  induction items with
  | nil => cases failed
  | cons item rest inductionHypothesis =>
      rw [List.mapM_cons] at failed
      cases given : give item with
      | error other =>
          rw [given] at failed
          cases failed
          exact none item (by simp) given
      | ok result =>
          rw [given] at failed
          cases later : rest.mapM give with
          | error other =>
              rw [later] at failed
              cases failed
              exact inductionHypothesis later
                fun other member => none other (by simp [member])
          | ok results =>
              rw [later] at failed
              cases failed

def HoldsText (tree : FileTree) (path : Path) (text : String) : Prop :=
  ∃ content, tree.contentAt path.target = some content ∧
    Text.decode content = some text

section Reading

variable {tree : FileTree} {path : Path}

theorem readText_eq_ok {text : String} :
    readText tree path = .ok text ↔ tree.readText path = .ok text := by
  unfold readText
  cases tree.readText path <;> simp [Except.mapError]

theorem holdsText_of_readText {text : String}
    (read : readText tree path = .ok text) :
    HoldsText tree path text := by
  obtain ⟨content, bytes, decoded⟩ := bind_eq_ok.1 (readText_eq_ok.1 read)
  refine ⟨content, contentAt_target bytes, ?_⟩
  cases text? : Text.decode content with
  | none =>
      rw [text?] at decoded
      cases decoded
  | some other =>
      rw [text?] at decoded
      cases decoded
      rfl

theorem unreadable_of_readText {error : Error}
    (failed : readText tree path = .error error) :
    ∃ problem, error = .unreadable path problem := by
  unfold readText at failed
  cases read : tree.readText path with
  | ok text =>
      rw [read] at failed
      cases failed
  | error problem =>
      rw [read] at failed
      cases failed
      exact ⟨problem, rfl⟩

end Reading

/-! ## Generating tables -/

def Sources.tables (sources : Sources) : Generated :=
  generate sources.base sources.fields sources.methods

namespace Outputs

variable (outputs : Outputs)

/-- The files of the tables, in the order in which they are written. -/
def tablePaths : List Path :=
  [outputs.notchToIntermediate, outputs.notchToHuman,
    outputs.intermediateToHuman, outputs.humanToIntermediate,
    outputs.humanToNotch]

/-- The files of the merged exception tables, which are written last. -/
def exceptionPaths : List Path :=
  [outputs.intermediateExceptions, outputs.humanExceptions]

def paths : List Path :=
  outputs.tablePaths ++ outputs.exceptionPaths

def texts (sources : Sources) (exceptions : List String) :
    List (Path × String) :=
  outputs.tableTexts sources.tables ++
    outputs.exceptionTexts (mergeExceptions exceptions sources.methods)

/-- The outputs are seven files of their own: neither exception files nor the
lock file of the cache.  What the tables are derived from is read first, and may
be written over. -/
structure Apart (cache : Cache) (inputs : Inputs) : Prop where
  distinct : (outputs.paths.map Path.target).Nodup
  inputs : ∀ output ∈ outputs.paths, ∀ input ∈ inputs.exceptions,
    output.target ≠ input.target
  lock : ∀ output ∈ outputs.paths, output.target ≠ cache.lockPath.target

instance (cache : Cache) (inputs : Inputs) :
    Decidable (outputs.Apart cache inputs) :=
  decidable_of_iff
    ((outputs.paths.map Path.target).Nodup ∧
      (∀ output ∈ outputs.paths, ∀ input ∈ inputs.exceptions,
        output.target ≠ input.target) ∧
      ∀ output ∈ outputs.paths, output.target ≠ cache.lockPath.target)
    ⟨fun apart => ⟨apart.1, apart.2.1, apart.2.2⟩,
      fun apart => ⟨apart.distinct, apart.inputs, apart.lock⟩⟩

end Outputs

/-- How generating tables ends, as far as files are concerned. -/
inductive Ending (inputs : Inputs) (outputs : Outputs)
    (before after : FileTree) : Except Error Generated → Prop
  /-- The base table, the field names or the method names cannot be used, and
  nothing is written. -/
  | refused {error : Error}
      (unusable : Sources.load before inputs = .error error)
      (unchanged : ∀ location, after.node? location = before.node? location) :
      Ending inputs outputs before after (.error error)
  /-- Some exception file cannot be read, and the tables are new while the
  merged exception tables are as before. -/
  | torn {sources : Sources} {path : Path} {problem : Problem}
      (loaded : Sources.load before inputs = .ok sources)
      (listed : path ∈ inputs.exceptions)
      (unread : ∀ text, readText before path ≠ .ok text)
      (written : Written after (outputs.tableTexts sources.tables))
      (untouched : Untouched before after outputs.exceptionPaths) :
      Ending inputs outputs before after (.error (.unreadable path problem))
  /-- An output cannot be written, and those before it are new. -/
  | stopped {sources : Sources} {exceptions : List String}
      {done left : List (Path × String)} {error : CacheError}
      (loaded : Sources.load before inputs = .ok sources)
      (split : outputs.texts sources exceptions = done ++ left)
      (read : outputs.tablePaths.length < done.length →
        List.Forall₂ (HoldsText before) inputs.exceptions exceptions)
      (more : left ≠ [])
      (written : Written after done)
      (untouched : Untouched before after (left.map Prod.fst)) :
      Ending inputs outputs before after (.error (.unwritable error))
  /-- All outputs are new. -/
  | complete {sources : Sources} {exceptions : List String}
      (loaded : Sources.load before inputs = .ok sources)
      (read : List.Forall₂ (HoldsText before) inputs.exceptions exceptions)
      (written : Written after (outputs.texts sources exceptions)) :
      Ending inputs outputs before after (.ok sources.tables)

section Generating

variable {cache : Cache} {inputs : Inputs} {outputs : Outputs}
  {before after : FileTree} {result : Except Error Generated}

variable (apart : outputs.Apart cache inputs) (sound : before.Sound)

include apart

theorem Outputs.Apart.nodup_texts (sources : Sources)
    (exceptions : List String) :
    (places (outputs.texts sources exceptions)).Nodup :=
  apart.distinct

theorem Outputs.Apart.nodup_parts (sources : Sources)
    (exceptions : List String) :
    (places (outputs.tableTexts sources.tables)).Nodup ∧
      (places (outputs.exceptionTexts
        (mergeExceptions exceptions sources.methods))).Nodup := by
  have distinct := apart.nodup_texts sources exceptions
  rw [Outputs.texts, places, List.map_append] at distinct
  exact ⟨(List.nodup_append.1 distinct).1, (List.nodup_append.1 distinct).2.1⟩

/-- An exception file is not written over. -/
theorem Outputs.Apart.not_mem_places {sources : Sources}
    {exceptions : List String} {path : Path}
    (listed : path ∈ inputs.exceptions) :
    path.target ∉ places (outputs.texts sources exceptions) := by
  intro member
  obtain ⟨file, inside, same⟩ := List.mem_map.1 member
  have output : file.1 ∈
      (outputs.texts sources exceptions).map Prod.fst :=
    List.mem_map_of_mem inside
  exact apart.inputs _ output path listed same

section Exceptions

variable {sources : Sources}
  (altered : Alters (fun _ => True)
    (· ∈ places (outputs.tableTexts sources.tables)) before after)

include sound altered

/-- While the tables are written, exception files stay as they are. -/
theorem Outputs.Apart.kept {path : Path} (listed : path ∈ inputs.exceptions) :
    Kept (fun _ => True) before after path.target := by
  refine (altered sound).2 _ fun member => ?_
  have among : path.target ∈ places (outputs.texts sources []) := by
    rw [Outputs.texts, places, List.map_append]
    exact List.mem_append_left _ member
  exact apart.not_mem_places listed among

/-- What is read from exception files after the tables have been written is what
they held before. -/
theorem Outputs.Apart.holdsTexts {exceptions : List String}
    (read : inputs.exceptions.mapM (readText after) = .ok exceptions) :
    List.Forall₂ (HoldsText before) inputs.exceptions exceptions := by
  obtain ⟨sameLength, each⟩ := List.forall₂_iff_zip.1 (mapM_eq_ok.1 read)
  refine List.forall₂_iff_zip.2 ⟨sameLength, fun {path text} pair => ?_⟩
  obtain ⟨content, held, decoded⟩ := holdsText_of_readText (each pair)
  rw [(apart.kept sound altered (List.of_mem_zip pair).1).contentAt_eq] at held
  exact ⟨content, held, decoded⟩

/-- An exception file that could be read before the tables were written still
can. -/
theorem Outputs.Apart.not_readable {path : Path} {error : Error}
    (stay : ∀ location, before.node? location = some .directory →
      after.node? location = some .directory)
    (listed : path ∈ inputs.exceptions)
    (failed : readText after path = .error error) (text : String) :
    readText before path ≠ .ok text := by
  intro given
  have still := readText_of_kept stay (apart.kept sound altered listed)
    (readText_eq_ok.1 given)
  rw [readText_eq_ok.2 still] at failed
  cases failed

end Exceptions

include sound

/-- A table that cannot be written ends it. -/
theorem ending_of_tables {sources : Sources} {problem : Error}
    (loaded : Sources.load before inputs = .ok sources)
    (ran : runFrom (writeTexts (outputs.tableTexts sources.tables)) before =
      (.error problem, after)) :
    Ending inputs outputs before after (.error problem) := by
  have distinct := apart.nodup_texts sources []
  obtain ⟨done, left, tables, written, altered, _, outcome⟩ :=
    writeTexts_cases (apart.nodup_parts sources []).1 sound ran
  obtain ⟨impossible, _⟩ | ⟨more, error, failed⟩ := outcome
  · cases impossible
  · cases failed
    have split : outputs.texts sources [] = done ++ (left ++
        outputs.exceptionTexts (mergeExceptions [] sources.methods)) := by
      rw [Outputs.texts, tables, List.append_assoc]
    rw [split] at distinct
    refine .stopped loaded split (fun longer => ?_) (by simp [more]) written
      (.of_altered altered sound (not_mem_places_of_nodup distinct).2)
    have lengths := congrArg List.length tables
    have some := List.length_pos_of_ne_nil more
    rw [List.length_append] at lengths
    change 5 < done.length at longer
    change 5 = _ at lengths
    omega

/-- After the tables have been written and the exception files read, the merged
exception tables are written. -/
theorem ending_of_merged {sources : Sources} {exceptions : List String}
    {middle : FileTree} {last : Except Error Unit}
    (loaded : Sources.load before inputs = .ok sources)
    (read : List.Forall₂ (HoldsText before) inputs.exceptions exceptions)
    (tables : Written middle (outputs.tableTexts sources.tables))
    (altered : Alters (fun _ => True)
      (· ∈ places (outputs.tableTexts sources.tables)) before middle)
    (ran : runFrom (writeTexts (outputs.exceptionTexts
      (mergeExceptions exceptions sources.methods))) middle = (last, after)) :
    Ending inputs outputs before after (last.map fun _ => sources.tables) := by
  have distinct := apart.nodup_texts sources exceptions
  have middleSound := (altered sound).1
  obtain ⟨done, left, split, written, later, _, outcome⟩ :=
    writeTexts_cases (apart.nodup_parts sources exceptions).2 middleSound ran
  have whole : outputs.texts sources exceptions =
      outputs.tableTexts sources.tables ++ done ++ left := by
    rw [Outputs.texts, split, List.append_assoc]
  rw [whole] at distinct
  have rest := not_mem_places_of_nodup distinct
  rw [places, List.map_append] at distinct
  have still : Written after (outputs.tableTexts sources.tables) :=
    tables.of_altered later middleSound
      (not_mem_places_of_nodup (List.nodup_append.1 distinct).1).1
  obtain ⟨rfl, rfl⟩ | ⟨more, error, rfl⟩ := outcome
  · refine .complete loaded read ?_
    rw [whole, List.append_nil]
    exact still.append written
  · have both : Alters (fun _ => True)
        (· ∈ places (outputs.tableTexts sources.tables ++ done))
        before after := by
      refine Alters.trans
        (altered.mono (fun _ => id) fun location inside => ?_)
        (later.mono (fun _ => id) fun location inside => ?_)
      · rw [places, List.map_append]
        exact List.mem_append_left _ inside
      · rw [places, List.map_append]
        exact List.mem_append_right _ inside
    exact .stopped loaded whole (fun _ => read) more (still.append written)
      (.of_altered both sound rest.2)

/-- After the tables have been written, the exception files are read. -/
theorem ending_of_exceptions {sources : Sources} {middle : FileTree}
    (loaded : Sources.load before inputs = .ok sources)
    (wrote : runFrom (writeTexts (outputs.tableTexts sources.tables)) before =
      (.ok (), middle))
    (ran : runFrom (do
        let texts ← FileAction.consult fun tree =>
          inputs.exceptions.mapM (readText tree)
        writeTexts
          (outputs.exceptionTexts (mergeExceptions texts sources.methods))
        return sources.tables) middle = (result, after)) :
    Ending inputs outputs before after result := by
  obtain ⟨done, left, tables, written, altered, stay, outcome⟩ :=
    writeTexts_cases (apart.nodup_parts sources []).1 sound wrote
  obtain ⟨_, rfl⟩ | ⟨_, _, impossible⟩ := outcome
  · rw [List.append_nil] at tables
    subst tables
    rw [runFrom_bind, FileAction.runFrom_consult] at ran
    cases read : inputs.exceptions.mapM (readText middle) with
    | error error =>
        rw [read] at ran
        cases ran
        obtain ⟨path, listed, unread⟩ := exists_of_mapM_eq_error read
        obtain ⟨problem, rfl⟩ := unreadable_of_readText unread
        have distinct := apart.nodup_texts sources []
        exact .torn loaded listed
          (apart.not_readable sound altered stay listed unread) written
          (.of_altered altered sound (not_mem_places_of_nodup distinct).2)
    | ok exceptions =>
        rw [read] at ran
        dsimp only at ran
        rw [runFrom_bind] at ran
        rcases wroteLast : runFrom (writeTexts (outputs.exceptionTexts
          (mergeExceptions exceptions sources.methods))) middle with
          ⟨last, ending⟩
        have ends := ending_of_merged apart sound loaded
          (apart.holdsTexts sound altered read) written altered wroteLast
        rw [wroteLast] at ran
        cases last
        all_goals
          cases ran
          exact ends
  · cases impossible

/-- Tables are generated as a whole, or refused before anything is written, or
they end in one of two ways halfway. -/
theorem generateFiles_ends
    (ran : runFrom (generateFiles inputs outputs) before = (result, after)) :
    Ending inputs outputs before after result := by
  rw [generateFiles, runFrom_bind, FileAction.runFrom_consult] at ran
  cases loaded : Sources.load before inputs with
  | error error =>
      rw [loaded] at ran
      cases ran
      exact .refused loaded fun _ => rfl
  | ok sources =>
      rw [loaded] at ran
      change runFrom (writeTexts (outputs.tableTexts sources.tables) >>= _)
        before = _ at ran
      rw [runFrom_bind] at ran
      rcases wrote : runFrom (writeTexts (outputs.tableTexts sources.tables))
        before with ⟨problem | _, middle⟩
      · rw [wrote] at ran
        cases ran
        exact ending_of_tables apart sound loaded wrote
      · rw [wrote] at ran
        exact ending_of_exceptions apart sound loaded wrote ran

omit apart sound in
/-- Releasing a lock changes nothing about files. -/
theorem Ending.release (ends : Ending inputs outputs before after result)
    (held : HeldLock) :
    Ending inputs outputs before (after.release held) result := by
  cases ends with
  | refused unusable unchanged => exact .refused unusable unchanged
  | torn loaded listed unread written untouched =>
      exact .torn loaded listed unread written untouched
  | stopped loaded split read more written untouched =>
      exact .stopped loaded split read more written untouched
  | complete loaded read written => exact .complete loaded read written

/-- While outputs are being written, nobody else gets the lock. -/
theorem Outputs.Apart.not_tryLock {held other : HeldLock} {mode : LockMode}
    {locked reached later : FileTree} {sources : Sources}
    {exceptions : List String} {files : List (Path × String)}
    (took : runFrom (tryLock cache.lockPath .exclusive) before =
      (.ok (some held), locked))
    (first : files <+: outputs.texts sources exceptions)
    (wrote : runFrom (writeTexts files) locked = (.ok (), reached)) :
    runFrom (tryLock cache.lockPath mode) reached ≠
      (.ok (some other), later) := by
  have lockedSound := (alters_tryLock took sound).1
  obtain ⟨taken, content, modified, stands⟩ := held_of_tryLock took
  have distinct : (places files).Nodup :=
    (apart.nodup_texts sources exceptions).sublist (first.sublist.map _)
  obtain ⟨done, left, split, _, altered, _⟩ :=
    writeTexts_cases distinct lockedSound wrote
  obtain ⟨reachedSound, kept⟩ := altered lockedSound
  have outside : cache.lockPath.target ∉ places done := by
    intro member
    obtain ⟨file, inside, same⟩ := List.mem_map.1 member
    have output : file.1 ∈ (outputs.texts sources exceptions).map Prod.fst :=
      List.mem_map_of_mem (first.subset
        (split ▸ List.mem_append_left left inside))
    exact apart.lock _ output same
  have locks := keepsLocks_writeTexts files locked
  rw [wrote] at locks
  exact not_tryLock_of_exclusive reachedSound ((kept _ outside).stands stands)
    (locks ▸ taken) (mode_of_tryLock took)

end Generating

end Mapping

open Mapping

/-- Tables that are generated under the lock of the cache are all new, or an
input was refused and all outputs are as before, unless an exception file could
not be read or an output not be written.  Until the lock is released nobody else
gets it. -/
theorem generateMappingsTo_ends {cache : Cache} {inputs : Inputs}
    {outputs : Outputs} {before after : FileTree}
    {result : Except StageError Generated} (apart : outputs.Apart cache inputs)
    (sound : before.Sound)
    (ran : runFrom (generateMappingsTo cache inputs outputs) before =
      (result, after)) :
    (∃ error, result = .error (.cache error)) ∧
        Untouched before after outputs.paths ∨
      ∃ held locked ending,
        runFrom (tryLock cache.lockPath .exclusive) before =
          (.ok (some held), locked) ∧
        (∀ location, location ≠ cache.lockPath.target →
          Kept (fun _ => True) before locked location) ∧
        result = ending.mapError .mapping ∧
        Ending inputs outputs locked after ending ∧
        ∀ sources exceptions files reached mode other later,
          files <+: outputs.texts sources exceptions →
          runFrom (writeTexts files) locked = (.ok (), reached) →
          runFrom (tryLock cache.lockPath mode) reached ≠
            (.ok (some other), later) := by
  unfold generateMappingsTo at ran
  rcases took : runFrom (tryLock cache.lockPath .exclusive) before with
    ⟨error | _ | held, locked⟩
  all_goals obtain ⟨lockedSound, kept⟩ := alters_tryLock took sound
  · rw [runFrom_withLock_of_error _ took] at ran
    cases ran
    exact .inl ⟨⟨_, rfl⟩, fun path output => kept _ (apart.lock path output)⟩
  · rw [runFrom_withLock_of_contend _ took] at ran
    cases ran
    exact .inl ⟨⟨_, rfl⟩, fun path output => kept _ (apart.lock path output)⟩
  · rw [runFrom_withLock_of_lock _ took, FileAction.runFrom_mapError] at ran
    rcases ended : runFrom (generateFiles inputs outputs) locked with
      ⟨ending, reached⟩
    rw [ended] at ran
    cases ran
    exact .inr ⟨held, locked, ending, rfl, kept, rfl,
      (generateFiles_ends apart lockedSound ended).release held,
      fun _ _ _ _ _ _ _ first wrote =>
        apart.not_tryLock sound took first wrote⟩

/-! ## Calls with an exception file -/

/-- Inputs in the root, with one exception file. -/
def sampleInputs (exceptions : String) : Inputs :=
  ⟨⟨"joined.srg"⟩, ⟨"fields.csv"⟩, ⟨"methods.csv"⟩, [⟨exceptions⟩]⟩

def sampleOutputs : Outputs :=
  .inDirectory ⟨"out"⟩

def sampleCache : Cache :=
  ⟨⟨"cache"⟩⟩

/-- The inputs and two outputs of an earlier call. -/
def outdated : FileTree :=
  { nodes := [(["joined.srg"], .file (Text.encode "CL: a A\n") 0 0),
      (["fields.csv"], .file [] 1 1), (["methods.csv"], .file [] 2 2),
      (["joined.exc"], .file (Text.encode "A.b()V=E\n") 3 3),
      (["out"], .directory),
      (["out", "notch-srg.srg"], .file (Text.encode "CL: a B\n") 4 4),
      (["out", "srg.exc"], .file (Text.encode "B.b()V=E\n") 5 5)]
    clock := 6 }

/-- With exception files that can be read, all outputs are new. -/
theorem generateMappingsTo_ends_complete :
    ∃ tables after sources exceptions,
      runFrom (generateMappingsTo sampleCache (sampleInputs "joined.exc")
        sampleOutputs) outdated = (.ok tables, after) ∧
      Written after (sampleOutputs.texts sources exceptions) := by
  have apart : sampleOutputs.Apart sampleCache (sampleInputs "joined.exc") := by
    decide +kernel
  have succeeds : (runFrom (generateMappingsTo sampleCache
      (sampleInputs "joined.exc") sampleOutputs) outdated).1.toBool = true := by
    decide +kernel
  generalize ran : runFrom (generateMappingsTo sampleCache
    (sampleInputs "joined.exc") sampleOutputs) outdated = call at succeeds ⊢
  obtain ⟨error | tables, after⟩ := call
  · cases succeeds
  · obtain ⟨⟨_, impossible⟩, _⟩ | ⟨_, _, _, _, _, same, ends, _⟩ :=
      generateMappingsTo_ends apart (by decide) ran
    · cases impossible
    · cases ends with
      | complete loaded read written =>
          exact ⟨tables, after, _, _, rfl, written⟩
      | refused | torn | stopped => cases same

def mappingError? {α : Type} : Except StageError α → Option Mapping.Error
  | .error (.mapping error) => some error
  | _ => none

theorem eq_of_mappingError? {α : Type} {result : Except StageError α}
    {error : Mapping.Error} (failed : mappingError? result = some error) :
    result = .error (.mapping error) := by
  unfold mappingError? at failed
  split at failed
  · cases failed
    rfl
  · cases failed

/-- A missing exception file leaves a new table beside an old exception table,
and a reader gets the lock. -/
theorem missing_exceptions_tear :
    (sampleOutputs.Apart sampleCache (sampleInputs "missing.exc") ∧
      outdated.Sound) ∧
    ∃ after held later,
      runFrom (generateMappingsTo sampleCache (sampleInputs "missing.exc")
        sampleOutputs) outdated =
          (.error (.mapping (.unreadable ⟨"missing.exc"⟩ .notFound)), after) ∧
      runFrom (tryLock sampleCache.lockPath .shared) after =
        (.ok (some held), later) ∧
      later.contentAt ["out", "notch-srg.srg"] =
        some (Text.encode "CL: a A\n") ∧
      outdated.contentAt ["out", "notch-srg.srg"] =
        some (Text.encode "CL: a B\n") ∧
      later.contentAt ["out", "srg.exc"] =
        outdated.contentAt ["out", "srg.exc"] := by
  refine ⟨⟨by decide +kernel, by decide +kernel⟩, ?_⟩
  have old : outdated.contentAt ["out", "notch-srg.srg"] =
      some (Text.encode "CL: a B\n") := by
    decide
  have torn : ∀ call reader,
      runFrom (generateMappingsTo sampleCache (sampleInputs "missing.exc")
        sampleOutputs) outdated = call →
      runFrom (tryLock sampleCache.lockPath .shared) call.2 = reader →
      mappingError? call.1 = some (.unreadable ⟨"missing.exc"⟩ .notFound) ∧
        reader.1.toOption.join.isSome = true ∧
        reader.2.contentAt ["out", "notch-srg.srg"] =
          some (Text.encode "CL: a A\n") ∧
        reader.2.contentAt ["out", "srg.exc"] =
          outdated.contentAt ["out", "srg.exc"] := by
    rintro _ _ rfl rfl
    decide +kernel
  generalize called : runFrom (generateMappingsTo sampleCache
    (sampleInputs "missing.exc") sampleOutputs) outdated = call at torn ⊢
  obtain ⟨result, after⟩ := call
  generalize took : runFrom (tryLock sampleCache.lockPath .shared) after =
    reader at torn
  obtain ⟨failed, locked, new, same⟩ := torn _ _ rfl took
  obtain ⟨error | _ | held, later⟩ := reader
  · cases locked
  · cases locked
  · exact ⟨after, held, later, Prod.ext (eq_of_mappingError? failed) rfl, took, new,
      old, same⟩

end Deobfuscate
