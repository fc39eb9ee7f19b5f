import Deobfuscate.Proofs.Archive.Separate
import Deobfuscate.Proofs.FileTree.Lookup
import Deobfuscate.Source.Renamer
import Mathlib.Algebra.BigOperators.Ring.Finset

/-!
# Renaming all sources

Renaming all sources renames each file on its own and accounts for the type
arguments that were put back, or fails as one of the files does and changes
nothing.  The files may be handled in any order and in any groups.

Entries may be looked up through an index of their keys and uses counted one by
one: no position outside the table is asked for, and nothing else comes of it.
-/

namespace Deobfuscate

namespace Dict

variable {α : Type}

theorem eq_of_perm {left right : Dict α}
    (same : left.toList.Perm right.toList) : left = right := by
  refine ext_get? fun key => Option.ext fun value => ?_
  rw [get?_eq_some_iff, get?_eq_some_iff, same.mem_iff]

theorem mem_values {dict : Dict α} {value : α} :
    value ∈ dict.values ↔ ∃ key, dict.get? key = some value := by
  simp [values, get?_eq_some_iff]

end Dict

namespace Source

/-- What is looked up stands in the table. -/
theorem getElem?_of_mem_lookup {table : GenericTable} {key : String}
    {index : Nat} {entry : GenericEntry}
    (found : (index, entry) ∈ table.lookup key) :
    table[index]? = some entry := by
  obtain ⟨pair, kept, same⟩ := List.mem_map.1 found
  cases same
  exact List.mem_zipIdx_iff_getElem?.1 (List.mem_filter.1 kept).1

theorem lookup_concat (table : GenericTable) (entry : GenericEntry)
    (key : String) :
    GenericTable.lookup (table ++ [entry]) key =
      if entry.key = key then table.lookup key ++ [(table.length, entry)]
      else table.lookup key := by
  unfold GenericTable.lookup
  rw [List.zipIdx_append, List.filter_append, List.map_append]
  by_cases same : entry.key = key <;> simp [same]

theorem mapM_map_of_forall {α β : Type} {name : β → α} {give : α → Option β}
    {items : List β} (gives : ∀ item ∈ items, give (name item) = some item) :
    (items.map name).mapM give = some items := by
  induction items with
  | nil => rfl
  | cons item rest inductionHypothesis =>
      obtain ⟨first, later⟩ := List.forall_mem_cons.1 gives
      simp [first, inductionHypothesis later]

/-- A table with the positions of the entries for each key. -/
structure IndexedTable where
  entries : GenericTable := []
  byKey : Dict (List Nat) := Dict.empty

namespace IndexedTable

def positions (table : IndexedTable) (key : String) : List Nat :=
  (table.byKey.get? key).getD []

def push (table : IndexedTable) (entry : GenericEntry) : IndexedTable where
  entries := table.entries ++ [entry]
  byKey := table.byKey.insert entry.key
    (table.positions entry.key ++ [table.entries.length])

/-- The entries for a key with their positions; `none` if the index has a
position outside the table. -/
def lookup? (table : IndexedTable) (key : String) :
    Option (List (Nat × GenericEntry)) :=
  (table.positions key).mapM fun index =>
    table.entries[index]?.map fun entry => (index, entry)

/-- The table that is made by adding entries in turn. -/
def ofEntries (entries : GenericTable) : IndexedTable :=
  entries.foldl push {}

/-- Adding an entry adds its position for its key only. -/
theorem positions_push (table : IndexedTable) (entry : GenericEntry)
    (key : String) :
    (table.push entry).positions key =
      if entry.key = key then table.positions key ++ [table.entries.length]
      else table.positions key := by
  simp only [positions, push, Dict.get?_insert]
  split
  · rename_i same
    rw [same, Option.getD_some]
  · rfl

theorem ofEntries_concat (entries : GenericTable) (entry : GenericEntry) :
    ofEntries (entries ++ [entry]) = (ofEntries entries).push entry :=
  List.foldl_concat _ _ _ _

theorem entries_ofEntries (entries : GenericTable) :
    (ofEntries entries).entries = entries := by
  induction entries using List.reverseRecOn with
  | nil => rfl
  | append_singleton entries entry inductionHypothesis =>
      rw [ofEntries_concat, push, inductionHypothesis]

theorem positions_ofEntries (entries : GenericTable) (key : String) :
    (ofEntries entries).positions key = (entries.lookup key).map Prod.fst := by
  induction entries using List.reverseRecOn with
  | nil => rfl
  | append_singleton entries entry inductionHypothesis =>
      rw [ofEntries_concat, positions_push, inductionHypothesis,
        entries_ofEntries, lookup_concat]
      split
      · rw [List.map_append, List.map_singleton]
      · rfl

/-- The index lists what stands in the table for a key, in order. -/
theorem lookup?_ofEntries (entries : GenericTable) (key : String) :
    (ofEntries entries).lookup? key = some (entries.lookup key) := by
  rw [lookup?, positions_ofEntries, entries_ofEntries]
  refine mapM_map_of_forall fun found member => ?_
  rw [getElem?_of_mem_lookup member, Option.map_some]

end IndexedTable

end Source

namespace Source.Renamer

open Deobfuscate.Text

section Scoped

variable {renamer : Renamer} {file : String}

def Scoped (renamer : Renamer) (file : String) (used : List Nat) : Prop :=
  ∀ index ∈ used, ∃ entry,
    renamer.tables.generics[index]? = some entry ∧ entry.file = file

theorem scoped_nil : Scoped renamer file [] := by
  simp [Scoped]

theorem Scoped.append {first second : List Nat}
    (firstScoped : Scoped renamer file first)
    (secondScoped : Scoped renamer file second) :
    Scoped renamer file (first ++ second) := by
  intro index member
  rcases List.mem_append.1 member with before | after
  · exact firstScoped index before
  · exact secondScoped index after

/-- Only suffixes for the file are put on its lines. -/
theorem scoped_insertSuffixes {number : Nat} {line edited : List Char}
    {pairs : List (Nat × GenericEntry)} {used : List Nat}
    (listed : ∀ pair ∈ pairs,
      renamer.tables.generics[pair.1]? = some pair.2)
    (inserted : insertSuffixes file number line pairs = .ok (edited, used)) :
    Scoped renamer file used := by
  induction pairs generalizing line used with
  | nil =>
      cases inserted
      exact scoped_nil
  | cons pair rest inductionHypothesis =>
      obtain ⟨index, entry⟩ := pair
      have listedRest : ∀ pair ∈ rest,
          renamer.tables.generics[pair.1]? = some pair.2 :=
        fun pair member => listed pair (List.mem_cons_of_mem _ member)
      rw [insertSuffixes] at inserted
      split at inserted
      · rename_i applied
        split at inserted
        · cases inserted
        · obtain ⟨⟨line, others⟩, later, made⟩ := bind_eq_ok.1 inserted
          cases made
          have scopedLater := inductionHypothesis listedRest later
          have forFile : entry.file = file := by
            simp only [applies, Bool.and_eq_true, decide_eq_true_eq] at applied
            exact applied.1
          intro position member
          rcases List.mem_cons.1 member with rfl | other
          · exact ⟨entry, listed _ List.mem_cons_self, forFile⟩
          · exact scopedLater position other
      · exact inductionHypothesis listedRest inserted

theorem scoped_declare {number : Nat} {comment : List (List Char)}
    {line : List Char} {key : String} {declared : Declared}
    (declares : renamer.declare file number comment line key = .ok declared) :
    Scoped renamer file declared.used := by
  obtain ⟨⟨edited, used⟩, inserted, made⟩ := bind_eq_ok.1 declares
  cases made
  exact scoped_insertSuffixes (fun _ => getElem?_of_mem_lookup) inserted

theorem scoped_declareLine {number : Nat} {line : List Char}
    {declared : Declared}
    (declares : renamer.declareLine file number line = .ok declared) :
    Scoped renamer file declared.used := by
  unfold declareLine at declares
  split at declares
  · cases declares
    exact scoped_nil
  · split at declares
    · exact scoped_declare declares
    · split at declares
      · cases declares
        unfold expandStub
        split <;> exact scoped_nil
      · split at declares
        · exact scoped_declare declares
        · split at declares
          · split at declares
            · exact scoped_declare declares
            · cases declares
              exact scoped_nil
          · cases declares
            exact scoped_nil

theorem scoped_renameLines {terminator : Terminator} {number : Nat}
    {output lines renamed : List Line} {used : List Nat}
    (renames : renamer.renameLines file terminator number output lines =
      .ok (renamed, used)) :
    Scoped renamer file used := by
  induction lines generalizing number output renamed used with
  | nil =>
      cases renames
      exact scoped_nil
  | cons line rest inductionHypothesis =>
      obtain ⟨declared, declares, continued⟩ := bind_eq_ok.1 renames
      obtain ⟨⟨finished, later⟩, renamesRest, made⟩ := bind_eq_ok.1 continued
      cases made
      exact (scoped_declareLine declares).append
        (inductionHypothesis renamesRest)

/-- A file uses entries for that file only. -/
theorem scoped_renameFile {text : String} {renamed : Renamed}
    (renames : renamer.renameFile file text = .ok renamed) :
    Scoped renamer file renamed.used := by
  obtain ⟨⟨lines, used⟩, renamesLines, made⟩ := bind_eq_ok.1 renames
  cases made
  exact scoped_renameLines renamesLines

theorem Scoped.lt_length {used : List Nat}
    (uses : Scoped renamer file used) {index : Nat} (member : index ∈ used) :
    index < renamer.tables.generics.length := by
  obtain ⟨entry, listed, _⟩ := uses index member
  exact (List.getElem?_eq_some_iff.1 listed).1

end Scoped

/-! ## Uses counted one by one -/

section Uses

/-- Count uses of positions; `none` at a position that is not counted. -/
def count? : List Nat → List Nat → Option (List Nat)
  | counts, [] => some counts
  | counts, index :: rest =>
      if index < counts.length then
        count? (counts.modify index (· + 1)) rest
      else none

/-- How often each position of a table is used. -/
def tally (size : Nat) (used : List Nat) : List Nat :=
  (List.range size).map fun index => used.count index

theorem tally_nil (size : Nat) : tally size [] = List.replicate size 0 := by
  simp [tally, List.map_const']

theorem modify_tally (size index : Nat) (used : List Nat) :
    (tally size used).modify index (· + 1) = tally size (used ++ [index]) := by
  refine List.ext_getElem (by simp [tally]) fun position _ _ => ?_
  rw [List.getElem_modify]
  by_cases same : index = position <;> simp [tally, same]

/-- Counts go on from those of the uses before. -/
theorem count?_tally {size : Nat} {used more : List Nat}
    (within : ∀ index ∈ more, index < size) :
    count? (tally size used) more = some (tally size (used ++ more)) := by
  induction more generalizing used with
  | nil => rw [List.append_nil, count?]
  | cons index rest inductionHypothesis =>
      obtain ⟨first, later⟩ := List.forall_mem_cons.1 within
      have counted : index < (tally size used).length := by
        simpa [tally] using first
      rw [count?, if_pos counted, modify_tally, inductionHypothesis later,
        List.append_assoc, List.singleton_append]

theorem sum_tally {size : Nat} {used : List Nat}
    (within : ∀ index ∈ used, index < size) :
    (tally size used).sum = used.length := by
  have inRange : ∀ index ∈ (used : Multiset Nat), index ∈ Finset.range size :=
    fun index member => Finset.mem_range.2 (within index member)
  calc (tally size used).sum
      = ∑ index ∈ Finset.range size,
          Multiset.count index (used : Multiset Nat) := by
        simp [tally, Finset.sum, Multiset.range]
    _ = used.length := Multiset.sum_count_eq_card inRange

/-- An entry beside a count of zero is one that is not used. -/
theorem filter_zip_tally {α : Type} (table : List α) (used : List Nat) :
    ((table.zip (tally table.length used)).filter (·.2 = 0)).map Prod.fst =
      (table.zipIdx.filter fun entry => !used.contains entry.2).map
        Prod.fst := by
  rw [tally, List.zip_map_right, List.zipIdx_eq_zip_range',
    ← List.range_eq_range', List.filter_map, List.map_map]
  congr 1
  apply List.filter_congr
  intro entry _
  simp [List.count_eq_zero]

end Uses

section InPlace

variable {renamer : Renamer} {sources : Dict String}

/-- Put renamed files in place one by one and count the uses of entries. -/
def store? : Dict String × List Nat → List (String × Renamed) →
    Option (Dict String × List Nat)
  | state, [] => some state
  | (sources, counts), (path, renamed) :: rest => do
      store? (sources.insert path renamed.text, ← count? counts renamed.used)
        rest

def counted (renamer : Renamer) (files : Nat) (counts : List Nat) : Summary :=
  ⟨files, counts.sum,
    ((renamer.tables.generics.zip counts).filter (·.2 = 0)).map Prod.fst⟩

/-- The sources and the outcome after the files were handled: nothing is put in
place if one of them failed. -/
def settle? (renamer : Renamer) (sources : Dict String) :
    Except BoundaryError (List (String × Renamed)) →
      Option (Dict String × Except BoundaryError Summary)
  | .error error => some (sources, .error error)
  | .ok renamed => do
      let uncounted := List.replicate renamer.tables.generics.length 0
      let (final, counts) ← store? (sources, uncounted) renamed
      return (final, .ok (renamer.counted renamed.length counts))

def renameInPlace (renamer : Renamer) (sources : Dict String) :
    Dict String × Except BoundaryError Summary :=
  match renamer.renameAll sources with
  | .ok (final, summary) => (final, .ok summary)
  | .error error => (sources, .error error)

/-- The positions that renamed files use, in the order of the files. -/
def usedBy (renamed : List (String × Renamed)) : List Nat :=
  renamed.flatMap fun file => file.2.used

def placed (sources : Dict String) (renamed : List (String × Renamed)) :
    Dict String :=
  sources.insertAll (renamed.map fun file => (file.1, file.2.text))

/-- What is reported about renamed files. -/
def summaryOf (renamer : Renamer) (renamed : List (String × Renamed)) :
    Summary :=
  ⟨renamed.length, (usedBy renamed).length,
    (renamer.tables.generics.zipIdx.filter fun entry =>
      !(usedBy renamed).contains entry.2).map Prod.fst⟩

theorem store?_tally {size : Nat} {used : List Nat}
    {renamed : List (String × Renamed)}
    (within : ∀ index ∈ usedBy renamed, index < size) :
    store? (sources, tally size used) renamed =
      some (placed sources renamed, tally size (used ++ usedBy renamed)) := by
  induction renamed generalizing sources used with
  | nil => rw [usedBy, List.flatMap_nil, List.append_nil]; rfl
  | cons file rest inductionHypothesis =>
      have split : usedBy (file :: rest) = file.2.used ++ usedBy rest := rfl
      rw [split] at within ⊢
      obtain ⟨first, later⟩ := List.forall_mem_append.1 within
      rw [store?, count?_tally first]
      change store? (_, _) rest = _
      rw [inductionHypothesis later, List.append_assoc]
      rfl

/-- Counting one by one reports what the files use together. -/
theorem settle?_ok {renamed : List (String × Renamed)}
    (within : ∀ index ∈ usedBy renamed,
      index < renamer.tables.generics.length) :
    renamer.settle? sources (.ok renamed) =
      some (placed sources renamed, .ok (renamer.summaryOf renamed)) := by
  simp only [settle?]
  rw [← tally_nil, store?_tally within]
  simp [counted, summaryOf, sum_tally within, filter_zip_tally]

end InPlace

section Gathering

variable {renamer : Renamer} {files : List (String × String)}

/-- What handling files ends with, if each is handled on its own and results are
gathered in any order and in any groups.  A group that failed is enough: the
others need not be handled. -/
inductive Gathers (renamer : Renamer) :
    List (String × String) →
      Except BoundaryError (List (String × Renamed)) → Prop
  | nothing : Gathers renamer [] (.ok [])
  | one (path text : String) :
      Gathers renamer [(path, text)]
        ((renamer.renameFile path text).map fun renamed => [(path, renamed)])
  | both {first second : List (String × String)}
      {done others : List (String × Renamed)} :
      Gathers renamer first (.ok done) → Gathers renamer second (.ok others) →
        Gathers renamer (first ++ second) (.ok (done ++ others))
  | firstFails {first second : List (String × String)}
      {error : BoundaryError} :
      Gathers renamer first (.error error) →
        Gathers renamer (first ++ second) (.error error)
  | secondFails {first second : List (String × String)}
      {error : BoundaryError} :
      Gathers renamer second (.error error) →
        Gathers renamer (first ++ second) (.error error)
  | reordered {files others : List (String × String)}
      {result : Except BoundaryError (List (String × Renamed))} :
      Gathers renamer files result → files.Perm others →
        Gathers renamer others result

/-- Renaming files in turn is one of the ways. -/
theorem gathers_renameFiles (renamer : Renamer)
    (files : List (String × String)) :
    Gathers renamer files (renamer.renameFiles files) := by
  induction files with
  | nil => exact .nothing
  | cons file rest inductionHypothesis =>
      obtain ⟨path, text⟩ := file
      have first := @Gathers.one renamer path text
      rw [renameFiles]
      cases one : renamer.renameFile path text with
      | error error =>
          rw [one] at first
          exact first.firstFails
      | ok renamed =>
          rw [one] at first
          cases later : renamer.renameFiles rest with
          | error error =>
              rw [later] at inductionHypothesis
              exact @Gathers.secondFails renamer [(path, text)] _ _
                inductionHypothesis
          | ok others =>
              rw [later] at inductionHypothesis
              exact first.both inductionHypothesis

def Answers (renamer : Renamer) (files : List (String × String)) :
    Except BoundaryError (List (String × Renamed)) → Prop
  | .ok renamed =>
      (renamed.map fun out => (out.1, Except.ok out.2)).Perm
        (files.map fun file => (file.1, renamer.renameFile file.1 file.2))
  | .error error =>
      ∃ file ∈ files, renamer.renameFile file.1 file.2 = .error error

theorem Gathers.answers
    {result : Except BoundaryError (List (String × Renamed))}
    (gathers : Gathers renamer files result) :
    Answers renamer files result := by
  induction gathers with
  | nothing => exact .nil
  | one path text =>
      cases renames : renamer.renameFile path text with
      | error error => exact ⟨(path, text), List.mem_singleton_self _, renames⟩
      | ok renamed => simp [Answers, Except.map, renames]
  | both _ _ first second =>
      simp only [Answers, List.map_append] at first second ⊢
      exact first.append second
  | firstFails _ failed =>
      obtain ⟨file, member, renames⟩ := failed
      exact ⟨file, List.mem_append_left _ member, renames⟩
  | secondFails _ failed =>
      obtain ⟨file, member, renames⟩ := failed
      exact ⟨file, List.mem_append_right _ member, renames⟩
  | @reordered files others result _ same gathered =>
      cases result with
      | ok renamed => exact gathered.trans (same.map _)
      | error error =>
          obtain ⟨file, member, renames⟩ := gathered
          exact ⟨file, same.mem_iff.1 member, renames⟩

end Gathering

/-! ## What the sources and the summary are -/

section Concluding

variable {renamer : Renamer} {sources : Dict String}

structure Accounted (renamer : Renamer) (sources : Dict String)
    (results : Dict Renamed) (final : Dict String) (summary : Summary) :
    Prop where
  /-- Each file has the result of renaming it on its own. -/
  renames :
    (results.map fun _ renamed => Except.ok renamed) =
      sources.map renamer.renameFile
  keys : final.keys = sources.keys
  texts : final = results.map fun _ renamed => renamed.text
  files : summary.files = sources.size
  applied : summary.genericsApplied =
    (results.values.map fun renamed => renamed.used.length).sum
  /-- The entries that no file uses, in the order of the table. -/
  unused : summary.unused =
    (renamer.tables.generics.zipIdx.filter fun entry =>
      ∀ renamed ∈ results.values, entry.2 ∉ renamed.used).map Prod.fst
  /-- A file uses entries for that file only. -/
  inScope : ∀ path renamed, results.get? path = some renamed →
    Scoped renamer path renamed.used
  /-- Entries for files that are not there are unused. -/
  absent : (renamer.tables.generics.filter fun entry =>
    !sources.contains entry.file).Sublist summary.unused

/-- How renaming all sources in place ends: the sources are as before and the
error is that of a file, or all files are renamed and accounted for, which
excludes that one fails (`Accounted.renameFile_ne_error`). -/
inductive Concluded (renamer : Renamer) (sources : Dict String) :
    Dict String × Except BoundaryError Summary → Prop
  | failed {path text : String} {error : BoundaryError} :
      sources.get? path = some text →
        renamer.renameFile path text = .error error →
          Concluded renamer sources (sources, .error error)
  | renamed {results : Dict Renamed} {final : Dict String}
      {summary : Summary} :
      Accounted renamer sources results final summary →
        Concluded renamer sources (final, .ok summary)

namespace Accounted

variable {results : Dict Renamed} {final : Dict String} {summary : Summary}

/-- No file fails where all are renamed. -/
theorem renameFile_ne_error
    (accounted : Accounted renamer sources results final summary)
    {path text : String} (there : sources.get? path = some text)
    (error : BoundaryError) : renamer.renameFile path text ≠ .error error := by
  intro fails
  have result := congrArg (fun dict => dict.get? path) accounted.renames
  simp only [Dict.get?_map, there, Option.map_some, fails] at result
  cases held : results.get? path <;> simp [held] at result

/-- The results are those of the files, so the rest is the same too. -/
theorem unique (accounted : Accounted renamer sources results final summary)
    {others : Dict Renamed} {otherFinal : Dict String} {other : Summary}
    (otherwise : Accounted renamer sources others otherFinal other) :
    final = otherFinal ∧ summary = other := by
  have sameResults : results = others := by
    refine Dict.ext_get? fun path => ?_
    have result := congrArg (fun dict => dict.get? path)
      (accounted.renames.trans otherwise.renames.symm)
    simp only [Dict.get?_map] at result
    exact Option.map_injective (fun _ _ => Except.ok.inj) result
  subst sameResults
  refine ⟨accounted.texts.trans otherwise.texts.symm, ?_⟩
  cases summary
  cases other
  rw [Summary.mk.injEq]
  exact ⟨accounted.files.trans otherwise.files.symm,
    accounted.applied.trans otherwise.applied.symm,
    accounted.unused.trans otherwise.unused.symm⟩

end Accounted

/-- A result of a file is what renaming that file gives. -/
theorem get?_of_renames {results : Dict Renamed}
    (renames : (results.map fun _ renamed => Except.ok renamed) =
      sources.map renamer.renameFile)
    {path : String} {renamed : Renamed}
    (result : results.get? path = some renamed) :
    ∃ text, sources.get? path = some text ∧
      renamer.renameFile path text = .ok renamed := by
  have same := congrArg (fun dict => dict.get? path) renames
  simp only [Dict.get?_map, result, Option.map_some] at same
  exact Option.map_eq_some_iff.1 same.symm

theorem scoped_of_renames {results : Dict Renamed}
    (renames : (results.map fun _ renamed => Except.ok renamed) =
      sources.map renamer.renameFile)
    {path : String} {renamed : Renamed}
    (result : results.get? path = some renamed) :
    Scoped renamer path renamed.used := by
  obtain ⟨_, _, ok⟩ := get?_of_renames renames result
  exact scoped_renameFile ok

/-- What is put in place is all there is, if every file is. -/
theorem placed_eq {renamed : List (String × Renamed)}
    (distinct : (renamed.map Prod.fst).Nodup)
    (all : (Dict.ofList renamed).keys = sources.keys) :
    placed sources renamed =
      (Dict.ofList renamed).map fun _ renamed => renamed.text := by
  refine Dict.ext_get? fun path => ?_
  have distinctTexts :
      ((renamed.map fun file => (file.1, file.2.text)).map Prod.fst).Nodup := by
    rw [List.map_map]
    exact distinct
  rw [placed, Dict.get?_insertAll distinctTexts, Dict.get?_map,
    Dict.get?_ofList distinct,
    Bindings.get?_map path (fun renamed : Renamed => renamed.text) renamed]
  cases held : Bindings.get? path renamed with
  | some result => rfl
  | none =>
      rw [← Dict.get?_ofList distinct] at held
      have notThere : path ∉ sources.keys := by
        rw [← all, Dict.mem_keys]
        exact not_not.2 held
      rw [Dict.mem_keys, not_not] at notThere
      rw [notThere]
      rfl

/-- A test that implies another keeps a part of what the other keeps. -/
theorem filter_sublist_filter {α : Type} {list : List α} {test other : α → Bool}
    (implies : ∀ item ∈ list, test item = true → other item = true) :
    (list.filter test).Sublist (list.filter other) := by
  have twice : list.filter test = (list.filter other).filter test := by
    rw [List.filter_filter]
    refine List.filter_congr fun item member => ?_
    cases holds : test item with
    | false => rfl
    | true => rw [implies item member holds]; rfl
  rw [twice]
  exact List.filter_sublist

theorem mem_usedBy {renamed : List (String × Renamed)}
    (distinct : (renamed.map Prod.fst).Nodup) {index : Nat} :
    index ∈ usedBy renamed ↔
      ∃ path out, (Dict.ofList renamed).get? path = some out ∧
        index ∈ out.used := by
  simp only [usedBy, List.mem_flatMap, Dict.get?_eq_some_iff,
    (Dict.toList_ofList_perm distinct).mem_iff, Prod.exists]

theorem unused_summaryOf {renamed : List (String × Renamed)}
    (distinct : (renamed.map Prod.fst).Nodup) :
    (renamer.summaryOf renamed).unused =
      (renamer.tables.generics.zipIdx.filter fun entry =>
        ∀ out ∈ (Dict.ofList renamed).values, entry.2 ∉ out.used).map
          Prod.fst := by
  simp only [summaryOf]
  congr 1
  refine List.filter_congr fun entry _ => ?_
  rw [Bool.eq_iff_iff]
  simp only [Bool.not_eq_true', List.contains_eq_mem, decide_eq_false_iff_not,
    decide_eq_true_eq, mem_usedBy distinct, Dict.mem_values]
  exact ⟨fun idle out ⟨path, result⟩ uses => idle ⟨path, out, result, uses⟩,
    fun idle ⟨path, out, result, uses⟩ => idle out ⟨path, result⟩ uses⟩

/-- The file of a used entry is there. -/
theorem absent_sublist_unused {renamed : List (String × Renamed)}
    (distinct : (renamed.map Prod.fst).Nodup)
    (renames : ((Dict.ofList renamed).map fun _ out => Except.ok out) =
      sources.map renamer.renameFile) :
    (renamer.tables.generics.filter fun entry =>
      !sources.contains entry.file).Sublist
        (renamer.summaryOf renamed).unused := by
  rw [← List.zipIdx_map_fst 0 renamer.tables.generics, List.filter_map]
  refine (filter_sublist_filter fun entry member notThere => ?_).map _
  have listed := List.mem_zipIdx_iff_getElem?.1 member
  rw [Bool.not_eq_true', List.contains_eq_mem, decide_eq_false_iff_not,
    mem_usedBy distinct]
  rintro ⟨path, out, result, uses⟩
  obtain ⟨found, foundAt, rfl⟩ :=
    scoped_of_renames renames result entry.2 uses
  cases listed.symm.trans foundAt
  obtain ⟨text, there, _⟩ := get?_of_renames renames result
  simp [Dict.contains, there] at notThere

/-- What is put in place and reported, if all files are renamed. -/
theorem accounted_of_answers {renamed : List (String × Renamed)}
    (answers : Answers renamer sources.toList (.ok renamed)) :
    Accounted renamer sources (Dict.ofList renamed) (placed sources renamed)
      (renamer.summaryOf renamed) := by
  have samePaths : (renamed.map Prod.fst).Perm sources.keys := by
    have paths := answers.map Prod.fst
    rw [List.map_map, List.map_map] at paths
    exact paths
  have distinct : (renamed.map Prod.fst).Nodup :=
    samePaths.nodup_iff.2 sources.nodup_keys
  have results : (Dict.ofList renamed).toList.Perm renamed :=
    Dict.toList_ofList_perm distinct
  have renames : ((Dict.ofList renamed).map fun _ out => Except.ok out) =
      sources.map renamer.renameFile :=
    Dict.eq_of_perm ((results.map _).trans answers)
  have keys : (Dict.ofList renamed).keys = sources.keys := by
    have same := congrArg Dict.keys renames
    simpa [Dict.keys, Dict.map, List.map_map, Function.comp_def] using same
  have texts := placed_eq distinct keys
  refine
    { renames, texts, keys := ?_, files := ?_, applied := ?_,
      unused := unused_summaryOf distinct
      inScope := fun _ _ => scoped_of_renames renames
      absent := absent_sublist_unused distinct renames }
  · rw [texts, ← keys]
    simp [Dict.keys, Dict.map, Function.comp_def]
  · have count := samePaths.length_eq
    rw [List.length_map, Dict.keys, List.length_map] at count
    exact count
  · have sums := (results.map fun file => file.2.used.length).sum_nat
    rw [Dict.values, List.map_map]
    exact List.length_flatMap.trans sums.symm

/-- Positions that files use are counted. -/
theorem usedBy_lt_length {renamed : List (String × Renamed)}
    (answers : Answers renamer sources.toList (.ok renamed)) {index : Nat}
    (uses : index ∈ usedBy renamed) :
    index < renamer.tables.generics.length := by
  obtain ⟨out, member, used⟩ := List.mem_flatMap.1 uses
  obtain ⟨file, _, result⟩ := List.mem_map.1
    (answers.mem_iff.1 (List.mem_map_of_mem member))
  exact (scoped_renameFile (congrArg Prod.snd result)).lt_length used

theorem settle?_answers
    {result : Except BoundaryError (List (String × Renamed))}
    (answers : Answers renamer sources.toList result) :
    ∃ ending, renamer.settle? sources result = some ending ∧
      Concluded renamer sources ending := by
  cases result with
  | error error =>
      obtain ⟨⟨path, text⟩, member, fails⟩ := answers
      exact ⟨_, rfl, .failed (Dict.get?_eq_some_iff.2 member) fails⟩
  | ok renamed =>
      exact ⟨_, settle?_ok fun _ => usedBy_lt_length answers,
        .renamed (accounted_of_answers answers)⟩

theorem settle?_renameFiles (renamer : Renamer) (sources : Dict String) :
    renamer.settle? sources (renamer.renameFiles sources.toList) =
      some (renamer.renameInPlace sources) := by
  have answers := (gathers_renameFiles renamer sources.toList).answers
  rw [renameInPlace, renameAll]
  cases renames : renamer.renameFiles sources.toList with
  | error error => rfl
  | ok renamed =>
      rw [renames] at answers
      rw [settle?_ok fun _ => usedBy_lt_length answers]
      rfl

theorem Concluded.eq_of_ok {ending other : Dict String ×
      Except BoundaryError Summary}
    (concluded : Concluded renamer sources ending)
    (otherwise : Concluded renamer sources other) {summary : Summary}
    (ok : ending.2 = .ok summary) : ending = other := by
  cases concluded with
  | failed there fails => cases ok
  | renamed accounted =>
      cases otherwise with
      | failed there fails =>
          exact absurd fails (accounted.renameFile_ne_error there _)
      | renamed counted =>
          obtain ⟨rfl, rfl⟩ := accounted.unique counted
          rfl

/-- Renaming all sources renames each file on its own and accounts for it, or
changes nothing and fails as one of the files does.  However the files are
handled, it ends so, and without a failure it ends in the same way. -/
theorem renameAll_concluded (renamer : Renamer) (sources : Dict String) :
    Concluded renamer sources (renamer.renameInPlace sources) ∧
      ∀ result, Gathers renamer sources.toList result →
        ∃ ending, renamer.settle? sources result = some ending ∧
          Concluded renamer sources ending ∧
          ∀ summary, ending.2 = .ok summary →
            ending = renamer.renameInPlace sources := by
  have inTurn : Concluded renamer sources (renamer.renameInPlace sources) := by
    obtain ⟨ending, settles, concluded⟩ :=
      settle?_answers (gathers_renameFiles renamer sources.toList).answers
    cases settles.symm.trans (settle?_renameFiles renamer sources)
    exact concluded
  refine ⟨inTurn, fun result gathers => ?_⟩
  obtain ⟨ending, settles, concluded⟩ := settle?_answers gathers.answers
  exact ⟨ending, settles, concluded, fun summary ok =>
    concluded.eq_of_ok inTurn ok⟩

/-- A renamer with suffixes of one method for three files. -/
def typedRenamer : Renamer where
  tables :=
    { methods := Dict.empty.insert "func_1_a" ⟨"names", none⟩
      generics := ["A.java", "B.java", "A.java"].map fun file =>
        ⟨file, "A", "func_1_a", .returnType, "java.util.List", "<T>"⟩ }

/-- Two files that declare the method, none of which is the second one. -/
def typedSources : Dict String :=
  Dict.ofList
    [("A.java", "    public List func_1_a();"),
      ("C.java", "    public List func_1_a();")]

/-- The renamed sources, and what is reported about them. -/
def typedEnding : Dict String × Except BoundaryError Summary :=
  (Dict.ofList
    [("A.java", "    public List<T><T> names();"),
      ("C.java", "    public List names();")],
    .ok ⟨2, 2, [⟨"B.java", "A", "func_1_a", .returnType, "java.util.List",
      "<T>"⟩]⟩)

/-- The files are handled last to first.  The suffixes for the first file go on
its method only. -/
theorem renameAll_concluded_reversed :
    Gathers typedRenamer typedSources.toList
        (.ok [("C.java", ⟨"    public List names();", []⟩),
          ("A.java", ⟨"    public List<T><T> names();", [0, 2]⟩)]) ∧
      Concluded typedRenamer typedSources typedEnding ∧
      typedRenamer.renameInPlace typedSources = typedEnding := by
  have first : typedRenamer.renameFile "A.java" "    public List func_1_a();" =
      .ok ⟨"    public List<T><T> names();", [0, 2]⟩ := by
    decide
  have second : typedRenamer.renameFile "C.java" "    public List func_1_a();" =
      .ok ⟨"    public List names();", []⟩ := by
    decide
  have handlesFirst :=
    @Gathers.one typedRenamer "A.java" "    public List func_1_a();"
  have handlesSecond :=
    @Gathers.one typedRenamer "C.java" "    public List func_1_a();"
  rw [first] at handlesFirst
  rw [second] at handlesSecond
  have inOrder : [("C.java", "    public List func_1_a();"),
      ("A.java", "    public List func_1_a();")].Perm typedSources.toList :=
    .swap _ _ _
  have gathers := (handlesSecond.both handlesFirst).reordered inOrder
  obtain ⟨ending, settles, concluded, inTurn⟩ :=
    (renameAll_concluded typedRenamer typedSources).2 _ gathers
  have ends : ending = typedEnding := by
    refine Option.some.inj (settles.symm.trans ?_)
    decide
  subst ends
  exact ⟨gathers, concluded, (inTurn _ rfl).symm⟩

end Concluding

end Source.Renamer

end Deobfuscate
