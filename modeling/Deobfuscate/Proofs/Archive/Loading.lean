import Deobfuscate.Proofs.Archive.Saving
import Deobfuscate.Proofs.Archive.Separate
import Deobfuscate.Proofs.Digest.Record

/-!
# Loading what was saved

Loading puts every entry where its name says: descriptions are left out, names
of sources become sources, and all others resources.  So an artifact that was
saved comes back with the same entries, each where loading would have put it,
and one that was loaded comes back as it was.
-/

namespace Deobfuscate

namespace Text

/-- A text that was stored takes the bytes it was read from. -/
theorem encode_of_decode {bytes : Bytes} {text : String}
    (decoded : decode bytes = some text) : encode text = bytes := by
  unfold decode String.fromUTF8? at decoded
  split at decoded
  · cases decoded
    simp [encode, String.fromUTF8]
  · cases decoded

end Text

namespace Artifact

def held (artifact : Artifact) (name : String) :
    Option String × Option Bytes :=
  (artifact.sources.get? name, artifact.resources.get? name)

def content (artifact : Artifact) (name : String) : Option Bytes :=
  (artifact.resources.get? name).or
    ((artifact.sources.get? name).map Text.encode)

def route (name : String) (bytes : Bytes) : Option String × Option Bytes :=
  if isSourceName name then (Text.decode bytes, none) else (none, some bytes)

def routed (entries : String → Option Bytes) (name : String) :
    Option String × Option Bytes :=
  if isDescription name then (none, none)
  else ((entries name).map (route name)).getD (none, none)

def Fits (name : String) (bytes : Bytes) : Prop :=
  isSourceName name = true → (Text.decode bytes).isSome = true

theorem ext_held {left right : Artifact}
    (same : ∀ name, left.held name = right.held name) : left = right := by
  have sources : left.sources = right.sources :=
    Dict.ext_get? fun name => congrArg Prod.fst (same name)
  have resources : left.resources = right.resources :=
    Dict.ext_get? fun name => congrArg Prod.snd (same name)
  cases left
  cases right
  cases sources
  cases resources
  rfl

theorem insert_isOk_iff (artifact : Artifact) {name : String}
    {bytes : Bytes} :
    (∃ changed, artifact.insert name bytes = .ok changed) ↔
      Fits name bytes := by
  unfold insert Fits
  cases isSource : isSourceName name with
  | false =>
      exact ⟨fun _ isSource => absurd isSource Bool.false_ne_true,
        fun _ => ⟨_, rfl⟩⟩
  | true =>
      rw [if_pos rfl]
      cases Text.decode bytes with
      | none =>
          constructor
          · rintro ⟨changed, impossible⟩
            cases impossible
          · intro impossible
            cases impossible rfl
      | some text => exact ⟨fun _ _ => rfl, fun _ => ⟨_, rfl⟩⟩

theorem held_insert {artifact changed : Artifact} {name : String}
    {bytes : Bytes} (inserted : artifact.insert name bytes = .ok changed)
    (other : String) :
    changed.held other =
      if name = other then route name bytes else artifact.held other := by
  unfold insert at inserted
  unfold held route
  split at inserted
  · rename_i isSource
    split at inserted
    · rename_i text decoded
      cases inserted
      unfold insertSource
      rw [Dict.get?_insert, Dict.get?_erase, if_pos isSource, decoded]
      split <;> rfl
    · cases inserted
  · rename_i isResource
    cases inserted
    unfold insertResource
    rw [Dict.get?_insert, Dict.get?_erase, if_neg isResource]
    split <;> rfl

theorem insertEntries_isOk_iff {archive : Path} {artifact : Artifact}
    {entries : List (String × Bytes)} :
    (∃ changed, insertEntries archive artifact entries = .ok changed) ↔
      ∀ entry ∈ entries, isDescription entry.1 = false →
        Fits entry.1 entry.2 := by
  induction entries generalizing artifact with
  | nil =>
      exact ⟨fun _ entry member => absurd member List.not_mem_nil,
        fun _ => ⟨artifact, rfl⟩⟩
  | cons entry rest inductionHypothesis =>
      rw [insertEntries, List.forall_mem_cons]
      cases describes : isDescription entry.1 with
      | true =>
          rw [if_pos rfl, inductionHypothesis]
          exact ⟨fun later =>
            ⟨fun kept => absurd kept.symm Bool.false_ne_true, later⟩, And.right⟩
      | false =>
          rw [if_neg Bool.false_ne_true]
          cases inserted : artifact.insert entry.1 entry.2 with
          | error error =>
              constructor
              · rintro ⟨changed, impossible⟩
                cases impossible
              · rintro ⟨fits, _⟩
                obtain ⟨changed, impossible⟩ :=
                  (insert_isOk_iff artifact).2 (fits rfl)
                rw [inserted] at impossible
                cases impossible
          | ok changed =>
              dsimp only
              rw [inductionHypothesis]
              exact ⟨fun later =>
                ⟨fun _ => (insert_isOk_iff artifact).1 ⟨changed, inserted⟩, later⟩,
                And.right⟩

/-- Entries of different names are held as they are routed, and other names hold
what they held. -/
theorem held_insertEntries {archive : Path} {artifact changed : Artifact}
    {entries : List (String × Bytes)}
    (distinct : (entries.map Prod.fst).Nodup)
    (inserted : insertEntries archive artifact entries = .ok changed)
    (name : String) :
    changed.held name =
      if isDescription name then artifact.held name
      else ((Bindings.get? name entries).map (route name)).getD
        (artifact.held name) := by
  induction entries generalizing artifact with
  | nil =>
      cases inserted
      rw [Bindings.get?]
      split <;> rfl
  | cons entry rest inductionHypothesis =>
      obtain ⟨fresh, distinctRest⟩ := List.nodup_cons.1 distinct
      rw [insertEntries] at inserted
      rw [Bindings.get?]
      split at inserted
      · rename_i describes
        rw [inductionHypothesis distinctRest inserted]
        by_cases same : entry.1 = name
        · rw [← same, if_pos describes, if_pos describes]
        · rw [if_neg same]
      · rename_i kept
        split at inserted
        · rename_i _ next placed
          rw [inductionHypothesis distinctRest inserted,
            held_insert placed]
          by_cases same : entry.1 = name
          · rw [same] at fresh kept
            rw [Bindings.get?_eq_none_iff.2 fresh, if_neg kept, if_neg kept,
              if_pos same, if_pos same, same]
            rfl
          · rw [if_neg same, if_neg same]
        · cases inserted

section Load

variable {tree : FileTree} {path : Path} {entries : Dict Bytes}

theorem load_eq (found : Archive.entries tree path = .ok entries) :
    load tree path = insertEntries path {} entries.toList := by
  unfold load
  rw [found]
  rfl

/-- Entries are loaded just if they fit. -/
theorem load_isOk_iff (found : Archive.entries tree path = .ok entries) :
    (∃ artifact, load tree path = .ok artifact) ↔
      ∀ name bytes, entries.get? name = some bytes →
        isDescription name = false → Fits name bytes := by
  rw [load_eq found, insertEntries_isOk_iff]
  exact ⟨fun each name bytes bound =>
      each (name, bytes) (Dict.get?_eq_some_iff.1 bound),
    fun each entry member =>
      each entry.1 entry.2 (Dict.get?_eq_some_iff.2 member)⟩

/-- An artifact is loaded just if the entries fit and it holds them as they are
routed. -/
theorem load_eq_ok_iff {artifact : Artifact}
    (found : Archive.entries tree path = .ok entries) :
    load tree path = .ok artifact ↔
      (∀ name bytes, entries.get? name = some bytes →
        isDescription name = false → Fits name bytes) ∧
      ∀ name, artifact.held name = routed entries.get? name := by
  have holds : ∀ changed, load tree path = .ok changed →
      ∀ name, changed.held name = routed entries.get? name := by
    intro changed loaded
    rw [load_eq found] at loaded
    exact held_insertEntries (Dict.nodup_keys entries) loaded
  rw [← load_isOk_iff found]
  constructor
  · exact fun loaded => ⟨⟨artifact, loaded⟩, holds artifact loaded⟩
  · rintro ⟨⟨changed, loaded⟩, same⟩
    rw [loaded, ext_held fun name =>
      (same name).trans (holds changed loaded name).symm]

end Load

/-! ## Where loading puts entries -/

/-- Every entry is where loading would put it. -/
def Routed (artifact : Artifact) : Prop :=
  ∀ name, artifact.held name = routed artifact.content name

/-- The bytes of routed entries are those that were loaded. -/
theorem content_of_held {artifact : Artifact}
    {entries : String → Option Bytes}
    (fits : ∀ name bytes, entries name = some bytes →
      isDescription name = false → Fits name bytes)
    (same : ∀ name, artifact.held name = routed entries name)
    (name : String) :
    artifact.content name =
      if isDescription name then none else entries name := by
  have sources : artifact.sources.get? name = (routed entries name).1 :=
    congrArg Prod.fst (same name)
  have resources : artifact.resources.get? name = (routed entries name).2 :=
    congrArg Prod.snd (same name)
  unfold content
  rw [sources, resources]
  unfold routed
  cases describes : isDescription name with
  | true => rfl
  | false =>
      rw [if_neg Bool.false_ne_true, if_neg Bool.false_ne_true]
      cases bound : entries name with
      | none => rfl
      | some bytes =>
          rw [Option.map_some, Option.getD_some]
          unfold route
          split
          · rename_i isSource
            obtain ⟨text, decoded⟩ := Option.isSome_iff_exists.1
              (fits name bytes bound describes isSource)
            rw [decoded]
            exact congrArg some (Text.encode_of_decode decoded)
          · rfl

/-- Routing twice is routing once. -/
theorem routed_of_held {artifact : Artifact}
    {entries : String → Option Bytes}
    (fits : ∀ name bytes, entries name = some bytes →
      isDescription name = false → Fits name bytes)
    (same : ∀ name, artifact.held name = routed entries name) :
    artifact.Routed := by
  intro name
  rw [same, routed, routed, content_of_held fits same]
  split <;> rfl

/-- What is loaded is where loading puts it. -/
theorem routed_load {tree : FileTree} {path : Path} {artifact : Artifact}
    (loaded : load tree path = .ok artifact) : artifact.Routed := by
  cases found : Archive.entries tree path with
  | error error =>
      unfold load at loaded
      rw [found] at loaded
      cases loaded
  | ok entries =>
      obtain ⟨fits, same⟩ := (load_eq_ok_iff found).1 loaded
      exact routed_of_held fits same

/-- The entries of a routed artifact fit, for they were texts before. -/
theorem Routed.fits {artifact : Artifact} (isRouted : artifact.Routed)
    {name : String} {bytes : Bytes}
    (bound : artifact.content name = some bytes)
    (kept : isDescription name = false) : Fits name bytes := by
  intro isSource
  have same := isRouted name
  unfold routed at same
  rw [kept, if_neg Bool.false_ne_true, bound, Option.map_some,
    Option.getD_some, route, if_pos isSource] at same
  have resource : artifact.resources.get? name = none :=
    congrArg Prod.snd same
  unfold content at bound
  rw [resource, Option.none_or] at bound
  obtain ⟨text, _, rfl⟩ := Option.map_eq_some_iff.1 bound
  rw [Text.decode_encode]
  rfl

/-- The entries are saved under their names. -/
theorem get?_savedEntries {artifact : Artifact} (separate : artifact.Separate)
    (name : String) :
    (Dict.ofList artifact.savedEntries).get? name = artifact.content name := by
  rw [Dict.get?_ofList (nodup_savedNames_iff.2 separate), savedEntries,
    Bindings.get?_append, Bindings.get?_map]
  rfl

end Artifact

namespace Archive

def IsFileName (name : String) : Prop :=
  ∃ last, name.toList.getLast? = some last ∧ last ≠ '/' ∧ last ≠ '\\'

/-- A zip file gives back the names and bytes that were written into it. -/
def Returns (written : List (String × Bytes)) : Prop :=
  ∃ zipped, readZip (writeZip written) = some zipped ∧
    (∀ entry ∈ zipped, entry.isReadable = true) ∧
    (zipped.map fun entry => (entry.name, entry.content)) =
      written.map fun entry => (entry.1, entry.2, true)

instance (written : List (String × Bytes)) : Decidable (Returns written) :=
  decidable_of_iff
    (∃ zipped ∈ readZip (writeZip written),
      (∀ entry ∈ zipped, entry.isReadable = true) ∧
      (zipped.map fun entry => (entry.name, entry.content)) =
        written.map fun entry => (entry.1, entry.2, true))
    Iff.rfl

instance (name : String) : Decidable (IsFileName name) :=
  decidable_of_iff
    (name.toList.getLast?.any (fun last => last != '/' && last != '\\') = true)
    (by simp [IsFileName, Option.any_eq_true])

theorem collectEntries_eq {archive : Path} {zipped : List ZipEntry}
    {written : List (String × Bytes)}
    (readable : ∀ entry ∈ zipped, entry.isReadable = true)
    (same : (zipped.map fun entry => (entry.name, entry.content)) =
      written.map fun entry => (entry.1, entry.2, true))
    (files : ∀ entry ∈ written, IsFileName entry.1) (index : Nat)
    (entries : Dict Bytes) :
    collectEntries archive index zipped entries =
      .ok (entries.insertAll written) := by
  induction zipped generalizing index entries written with
  | nil =>
      rw [List.map_nil] at same
      rw [List.map_eq_nil_iff.1 same.symm]
      rfl
  | cons entry rest inductionHypothesis =>
      cases written with
      | nil => cases same
      | cons first others =>
          rw [List.map_cons, List.map_cons, List.cons.injEq,
            Prod.mk.injEq] at same
          obtain ⟨⟨name, content⟩, later⟩ := same
          obtain ⟨last, ends, notSlash, notBackslash⟩ :=
            files first List.mem_cons_self
          have file : entry.isDirectory = false := by
            unfold ZipEntry.isDirectory
            rw [name, ends]
            simp [notSlash, notBackslash]
          rw [collectEntries, readable entry List.mem_cons_self, file,
            readEntryData, content]
          simp only [Bool.not_true, Bool.false_eq_true, if_false]
          rw [name]
          exact inductionHypothesis
            (fun entry member => readable entry (List.mem_cons_of_mem _ member))
            later
            (fun entry member => files entry (List.mem_cons_of_mem _ member))
            (index + 1) (entries.insert first.1 first.2)

end Archive

namespace Artifact

/-- What is read where an artifact was saved are its entries. -/
theorem entries_saved {before after : FileTree} {artifact : Artifact}
    {path : Path} (sound : before.Sound)
    (files : ∀ name ∈ artifact.names, Archive.IsFileName name)
    (returned : Archive.Returns artifact.savedEntries)
    (saved : runFrom (artifact.save path) before = (.ok (), after)) :
    Archive.entries after path = .ok (Dict.ofList artifact.savedEntries) := by
  obtain ⟨_, _, modified, identity, found⟩ := save_eq_ok sound saved
  obtain ⟨zipped, read, readable, same⟩ := returned
  have named : ∀ entry ∈ artifact.savedEntries, Archive.IsFileName entry.1 := by
    intro entry member
    have name : entry.1 ∈ artifact.savedEntries.map Prod.fst :=
      List.mem_map_of_mem member
    rw [map_fst_savedEntries, List.mem_append, or_comm] at name
    exact files entry.1 (List.mem_append.2 name)
  unfold Archive.entries Archive.openZip
  rw [found]
  dsimp only
  rw [read]
  exact Archive.collectEntries_eq readable same named 0 .empty

theorem mem_names {artifact : Artifact} {name : String} :
    name ∈ artifact.names ↔ artifact.content name ≠ none := by
  unfold names content
  rw [List.mem_append, Dict.mem_keys, Dict.mem_keys]
  cases artifact.resources.get? name <;>
    cases artifact.sources.get? name <;> simp

/-- Only resources can fail to fit, for sources are texts. -/
theorem forall_content_fits_iff {artifact : Artifact} :
    (∀ name bytes, artifact.content name = some bytes →
      isDescription name = false → Fits name bytes) ↔
    ∀ name bytes, artifact.resources.get? name = some bytes →
      isDescription name = false → Fits name bytes := by
  constructor
  · intro fits name bytes bound
    refine fits name bytes ?_
    rw [content, bound]
    rfl
  · intro fits name bytes bound kept
    unfold content at bound
    cases resource : artifact.resources.get? name with
    | some other =>
        rw [resource] at bound
        cases bound
        exact fits name bytes resource kept
    | none =>
        rw [resource, Option.none_or] at bound
        obtain ⟨text, _, rfl⟩ := Option.map_eq_some_iff.1 bound
        intro _
        rw [Text.decode_encode]
        rfl

/-- What is held as it is routed is a source just under the name of one. -/
theorem isSourceName_of_held {artifact : Artifact}
    {entries : String → Option Bytes} {name : String}
    (same : artifact.held name = routed entries name) :
    (artifact.sources.get? name ≠ none → isSourceName name = true) ∧
      (artifact.resources.get? name ≠ none → isSourceName name = false) := by
  have sources : artifact.sources.get? name = (routed entries name).1 :=
    congrArg Prod.fst same
  have resources : artifact.resources.get? name = (routed entries name).2 :=
    congrArg Prod.snd same
  rw [sources, resources]
  unfold routed route
  split
  · exact ⟨fun absent => absurd rfl absent, fun absent => absurd rfl absent⟩
  · cases entries name with
    | none =>
        exact ⟨fun absent => absurd rfl absent, fun absent => absurd rfl absent⟩
    | some bytes =>
        cases isSource : isSourceName name with
        | true => exact ⟨fun _ => rfl, fun absent => absurd rfl absent⟩
        | false => exact ⟨fun absent => absurd rfl absent, fun _ => rfl⟩

section Saved

variable {before after : FileTree} {artifact : Artifact} {path : Path}

theorem get?_entries_saved
    (saved : runFrom (artifact.save path) before = (.ok (), after))
    (sound : before.Sound) :
    (Dict.ofList artifact.savedEntries).get? = artifact.content :=
  funext (get?_savedEntries
    (isAmbiguous_eq_false_iff.1 (save_eq_ok sound saved).1))

/-- A routed artifact comes back as it was. -/
theorem Routed.reload (isRouted : artifact.Routed)
    (sound : before.Sound)
    (files : ∀ name ∈ artifact.names, Archive.IsFileName name)
    (returned : Archive.Returns artifact.savedEntries)
    (saved : runFrom (artifact.save path) before = (.ok (), after)) :
    load after path = .ok artifact := by
  rw [load_eq_ok_iff (entries_saved sound files returned saved),
    get?_entries_saved saved sound]
  exact ⟨fun _ _ bound kept => isRouted.fits bound kept, isRouted⟩

/-- Loading what was saved puts every entry where its name says, unless a
resource has the name of a source and is not a text.  Descriptions are left out.
From then on saving and loading change nothing, as they change nothing for what
was loaded before. -/
theorem load_saved (sound : before.Sound)
    (files : ∀ name ∈ artifact.names, Archive.IsFileName name)
    (returned : Archive.Returns artifact.savedEntries)
    (saved : runFrom (artifact.save path) before = (.ok (), after)) :
    ((∃ loaded, load after path = .ok loaded) ↔
      ∀ name bytes, artifact.resources.get? name = some bytes →
        isDescription name = false → isSourceName name = true →
          (Text.decode bytes).isSome = true) ∧
    (∀ loaded, load after path = .ok loaded →
      (∀ name, loaded.content name =
        if isDescription name then none else artifact.content name) ∧
      (∀ name, loaded.sources.get? name ≠ none → isSourceName name = true) ∧
      (∀ name, loaded.resources.get? name ≠ none →
        isSourceName name = false) ∧
      ∀ (tree later : FileTree) (place : Path), tree.Sound →
        Archive.Returns loaded.savedEntries →
        runFrom (loaded.save place) tree = (.ok (), later) →
          load later place = .ok loaded) ∧
    ∀ (tree : FileTree) (origin : Path),
      load tree origin = .ok artifact → load after path = .ok artifact := by
  have found := entries_saved sound files returned saved
  have contents := get?_entries_saved saved sound
  refine ⟨?_, fun loaded loads => ?_, fun tree origin loads =>
    (routed_load loads).reload sound files returned saved⟩
  · rw [load_isOk_iff found, contents]
    exact forall_content_fits_iff
  · obtain ⟨fits, held⟩ := (load_eq_ok_iff found).1 loads
    rw [contents] at fits held
    have kept := content_of_held fits held
    refine ⟨kept, fun name => (isSourceName_of_held (held name)).1,
      fun name => (isSourceName_of_held (held name)).2, ?_⟩
    intro tree later place treeSound returnedAgain savedAgain
    refine (routed_load loads).reload treeSound (fun name member => ?_)
      returnedAgain savedAgain
    refine files name (mem_names.2 fun absent => mem_names.1 member ?_)
    rw [kept, absent]
    split <;> rfl

end Saved

/-- An artifact with a source and resources of several kinds. -/
def mixedArtifact : Artifact where
  sources := .ofList [("Foo.java", "class Foo"), ("readme", "text")]
  resources := .ofList [("META-INF/M", [1]), ("Bar.java", [66]),
    ("notes.txt", [255])]

theorem load_saved_sample :
    let after := (runFrom (mixedArtifact.save ⟨"out.jar"⟩) {}).2
    ∃ loaded, load after ⟨"out.jar"⟩ = .ok loaded ∧
      loaded.content "META-INF/M" = none ∧
      loaded.content "Bar.java" = some [66] ∧
      loaded.resources.get? "Bar.java" = none := by
  intro after
  have sound : ({} : FileTree).Sound := by decide
  have files : ∀ name ∈ mixedArtifact.names, Archive.IsFileName name := by
    decide
  have returned : Archive.Returns mixedArtifact.savedEntries := by
    decide +kernel
  have succeeds :
      (runFrom (mixedArtifact.save ⟨"out.jar"⟩) {}).1 = .ok () := by
    decide
  have saved : runFrom (mixedArtifact.save ⟨"out.jar"⟩) {} = (.ok (), after) :=
    Prod.ext succeeds rfl
  have texts : ∀ entry ∈ mixedArtifact.resources.toList,
      isDescription entry.1 = false → isSourceName entry.1 = true →
        (Text.decode entry.2).isSome = true := by
    decide
  obtain ⟨loads, loadedAs, _⟩ := load_saved sound files returned saved
  obtain ⟨loaded, loads⟩ := loads.2 fun name bytes bound =>
    texts (name, bytes) (Dict.get?_eq_some_iff.1 bound)
  obtain ⟨contents, _, resources, _⟩ := loadedAs loaded loads
  refine ⟨loaded, loads, ?_, ?_, ?_⟩
  · rw [contents]
    decide
  · rw [contents]
    decide
  · by_contra held
    exact absurd (resources "Bar.java" held) (by decide)

end Artifact

end Deobfuscate
