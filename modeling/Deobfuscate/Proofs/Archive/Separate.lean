import Deobfuscate.Archive.Artifact
import Deobfuscate.Proofs.Action
import Mathlib.Data.Finset.Card

/-!
# Each name in one of the two

The entries of an artifact are separate if no name is that of a source and of a
resource.  Just then the number of entries is that of the names, and no name is
saved twice.  What is loaded is separate, and putting entries in and taking them
out keeps it so.
-/

namespace Deobfuscate

namespace Bindings

variable {α β : Type}

theorem get?_append (key : String) (first second : List (String × α)) :
    get? key (first ++ second) = (get? key first).or (get? key second) := by
  induction first with
  | nil => rfl
  | cons binding rest inductionHypothesis =>
      rw [List.cons_append, get?, get?]
      split
      · rfl
      · exact inductionHypothesis

theorem get?_map (key : String) (change : α → β)
    (bindings : List (String × α)) :
    get? key (bindings.map fun binding => (binding.1, change binding.2)) =
      (get? key bindings).map change := by
  induction bindings with
  | nil => rfl
  | cons binding rest inductionHypothesis =>
      rw [List.map_cons, get?, get?]
      split
      · rfl
      · exact inductionHypothesis

theorem get?_eq_none_iff {key : String} {bindings : List (String × α)} :
    get? key bindings = none ↔ key ∉ bindings.map Prod.fst := by
  induction bindings with
  | nil => simp [get?]
  | cons binding rest inductionHypothesis =>
      rw [get?, List.map_cons, List.mem_cons, not_or]
      by_cases same : binding.1 = key
      · simp [same]
      · rw [if_neg same, inductionHypothesis]
        exact ⟨fun absent => ⟨Ne.symm same, absent⟩, And.right⟩

theorem get?_eq_some_iff_of_nodup {key : String} {value : α}
    {bindings : List (String × α)} (distinct : (bindings.map Prod.fst).Nodup) :
    get? key bindings = some value ↔ (key, value) ∈ bindings := by
  induction bindings with
  | nil => simp [get?]
  | cons binding rest inductionHypothesis =>
      obtain ⟨fresh, distinctRest⟩ := List.nodup_cons.1 distinct
      rw [get?, List.mem_cons]
      split
      · rename_i same
        have absent : (key, value) ∉ rest := by
          intro member
          rw [same] at fresh
          exact fresh (List.mem_map_of_mem member)
        have here : (key, value) = binding ↔ binding.2 = value := by
          rw [← same]
          exact ⟨fun equal => (congrArg Prod.snd equal).symm,
            fun equal => Prod.ext rfl equal.symm⟩
        rw [here]
        simp [absent]
      · rename_i different
        rw [inductionHypothesis distinctRest]
        have other : (key, value) ≠ binding := fun same =>
          different (congrArg Prod.fst same).symm
        simp [other]

end Bindings

namespace Dict

variable {α : Type}

theorem mem_keys {dict : Dict α} {key : String} :
    key ∈ dict.keys ↔ dict.get? key ≠ none := by
  rw [ne_eq, get?, Bindings.get?_eq_none_iff, not_not]
  rfl

theorem nodup_keys (dict : Dict α) : dict.keys.Nodup := by
  have sorted := dict.sorted
  unfold Bindings.Sorted at sorted
  unfold keys
  rw [List.nodup_iff_pairwise_ne, List.pairwise_map]
  refine sorted.imp fun less => ?_
  intro same
  rw [same] at less
  exact String.lt_irrefl _ less

/-- Bindings of different keys are all found, whatever was bound before. -/
theorem get?_insertAll {dict : Dict α} {bindings : List (String × α)}
    (distinct : (bindings.map Prod.fst).Nodup) (key : String) :
    (dict.insertAll bindings).get? key =
      (Bindings.get? key bindings).or (dict.get? key) := by
  induction bindings generalizing dict with
  | nil => rfl
  | cons binding rest inductionHypothesis =>
      obtain ⟨fresh, distinctRest⟩ := List.nodup_cons.1 distinct
      change ((dict.insert binding.1 binding.2).insertAll rest).get? key = _
      rw [inductionHypothesis distinctRest, get?_insert, Bindings.get?]
      by_cases same : binding.1 = key
      · rw [same] at fresh
        rw [Bindings.get?_eq_none_iff.2 fresh, if_pos same, if_pos same]
        rfl
      · rw [if_neg same, if_neg same]

theorem get?_ofList {bindings : List (String × α)}
    (distinct : (bindings.map Prod.fst).Nodup) (key : String) :
    (ofList bindings).get? key = Bindings.get? key bindings := by
  rw [ofList, get?_insertAll distinct, get?_empty, Option.or_none]

/-- A dictionary holds the bindings of different keys it is made of. -/
theorem toList_ofList_perm {bindings : List (String × α)}
    (distinct : (bindings.map Prod.fst).Nodup) :
    (ofList bindings).toList.Perm bindings := by
  have nodup : (ofList bindings).toList.Nodup :=
    (nodup_keys (ofList bindings)).of_map
  refine (List.perm_ext_iff_of_nodup nodup distinct.of_map).2 ?_
  rintro ⟨key, value⟩
  rw [← get?_eq_some_iff, get?_ofList distinct,
    Bindings.get?_eq_some_iff_of_nodup distinct]

end Dict

namespace Artifact

deriving instance DecidableEq for Artifact

/-- No name is that of a source and of a resource. -/
def Separate (artifact : Artifact) : Prop :=
  ∀ name, artifact.resources.get? name ≠ none →
    artifact.sources.get? name = none

def names (artifact : Artifact) : List String :=
  artifact.sources.keys ++ artifact.resources.keys

theorem isAmbiguous_eq_false_iff {artifact : Artifact} :
    artifact.isAmbiguous = false ↔ artifact.Separate := by
  unfold isAmbiguous Separate
  rw [List.any_eq_false]
  constructor
  · intro clear name resource
    by_contra source
    exact clear name (Dict.mem_keys.2 source)
      (Option.isSome_iff_ne_none.2 resource)
  · intro separate name source resource
    exact Dict.mem_keys.1 source
      (separate name (Option.isSome_iff_ne_none.1 resource))

instance (artifact : Artifact) : Decidable artifact.Separate :=
  decidable_of_iff (artifact.isAmbiguous = false) isAmbiguous_eq_false_iff

theorem nodup_names_iff {artifact : Artifact} :
    artifact.names.Nodup ↔ artifact.Separate := by
  unfold names
  rw [List.nodup_append]
  constructor
  · rintro ⟨_, _, apart⟩ name resource
    by_contra source
    exact apart name (Dict.mem_keys.2 source) name (Dict.mem_keys.2 resource)
      rfl
  · intro separate
    refine ⟨Dict.nodup_keys _, Dict.nodup_keys _, ?_⟩
    rintro name source _ resource rfl
    exact Dict.mem_keys.1 source (separate name (Dict.mem_keys.1 resource))

/-- The number of entries is that of the names, if no name counts twice. -/
theorem size_eq_card_iff {artifact : Artifact} :
    artifact.size = artifact.names.toFinset.card ↔ artifact.Separate := by
  have length : artifact.size = artifact.names.length := by
    simp [size, names, Dict.size, Dict.keys]
  rw [← nodup_names_iff, length, eq_comm, List.card_toFinset]
  exact ⟨fun same => List.dedup_eq_self.1
    ((List.dedup_sublist _).eq_of_length same),
      fun nodup => by rw [List.dedup_eq_self.2 nodup]⟩

theorem map_fst_savedEntries (artifact : Artifact) :
    artifact.savedEntries.map Prod.fst =
      artifact.resources.keys ++ artifact.sources.keys := by
  simp [savedEntries, Dict.keys, Function.comp_def]

/-- Entries are saved under different names, if they are separate. -/
theorem nodup_savedNames_iff {artifact : Artifact} :
    (artifact.savedEntries.map Prod.fst).Nodup ↔ artifact.Separate := by
  rw [map_fst_savedEntries, List.nodup_append_comm]
  exact nodup_names_iff

/-! ## Putting in and taking out -/

theorem separate_empty : Separate {} :=
  fun _ _ => rfl

namespace Separate

variable {artifact : Artifact}

theorem insertSource (separate : artifact.Separate) (name text : String) :
    (artifact.insertSource name text).Separate := by
  intro other resource
  unfold Artifact.insertSource at resource ⊢
  rw [Dict.get?_erase] at resource
  rw [Dict.get?_insert]
  split at resource
  · exact absurd rfl resource
  · rename_i different
    rw [if_neg different]
    exact separate other resource

theorem insertResource (separate : artifact.Separate) (name : String)
    (bytes : Bytes) : (artifact.insertResource name bytes).Separate := by
  intro other resource
  unfold Artifact.insertResource at resource ⊢
  rw [Dict.get?_insert] at resource
  rw [Dict.get?_erase]
  split
  · rfl
  · rename_i different
    rw [if_neg different] at resource
    exact separate other resource

theorem remove (separate : artifact.Separate) (name : String) :
    (artifact.remove name).Separate := by
  intro other resource
  unfold Artifact.remove at resource ⊢
  rw [Dict.get?_erase] at resource ⊢
  split
  · rfl
  · rename_i different
    rw [if_neg different] at resource
    exact separate other resource

theorem insert (separate : artifact.Separate) {changed : Artifact}
    {name : String} {bytes : Bytes}
    (inserted : artifact.insert name bytes = .ok changed) :
    changed.Separate := by
  unfold Artifact.insert at inserted
  split at inserted
  · split at inserted
    · cases inserted
      exact separate.insertSource name _
    · cases inserted
  · cases inserted
    exact separate.insertResource name bytes

theorem insertEntries (separate : artifact.Separate) {changed : Artifact}
    {archive : Path} {entries : List (String × Bytes)}
    (inserted : Artifact.insertEntries archive artifact entries =
      .ok changed) : changed.Separate := by
  induction entries generalizing artifact with
  | nil =>
      cases inserted
      exact separate
  | cons entry rest inductionHypothesis =>
      rw [Artifact.insertEntries] at inserted
      split at inserted
      · exact inductionHypothesis separate inserted
      · split at inserted
        · rename_i _ next placed
          exact inductionHypothesis (separate.insert placed) inserted
        · cases inserted

end Separate

theorem separate_load {tree : FileTree} {path : Path} {artifact : Artifact}
    (loaded : load tree path = .ok artifact) : artifact.Separate := by
  unfold load at loaded
  cases found : Archive.entries tree path with
  | error error =>
      rw [found] at loaded
      cases loaded
  | ok entries =>
      rw [found] at loaded
      exact separate_empty.insertEntries loaded

end Artifact

end Deobfuscate
