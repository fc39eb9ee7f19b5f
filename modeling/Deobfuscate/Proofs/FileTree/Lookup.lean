import Deobfuscate.FileTree.Basic

/-!
# Look-ups in file trees

File trees and memos are lists of entries with a key, in which a new entry takes
the place of the old one with its key.  This module says what look-ups give
after such a change, and takes the look-up at a path apart into resolving the
path and looking up the location.
-/

namespace Deobfuscate

/-- A step after another gives a result when both do. -/
theorem bind_eq_ok {ε α β : Type} {first : Except ε α}
    {next : α → Except ε β} {result : β} :
    (first >>= next) = .ok result ↔
      ∃ value, first = .ok value ∧ next value = .ok result := by
  cases first with
  | error problem => simp [bind, Except.bind]
  | ok value => simp [bind, Except.bind]

section Entries

variable {α β : Type} [BEq α] [LawfulBEq α]

/-- Dropping the entries of another key does not matter. -/
theorem lookup_filter_of_ne {key removed : α} (different : key ≠ removed)
    (entries : List (α × β)) :
    (entries.filter fun entry => entry.1 != removed).lookup key =
      entries.lookup key := by
  induction entries with
  | nil =>
      rfl
  | cons entry rest inductionHypothesis =>
      obtain ⟨name, value⟩ := entry
      by_cases dropped : name = removed
      · subst dropped
        have other : (key == name) = false := by simpa using different
        simp [List.lookup_cons, other, inductionHypothesis]
      · simp [List.lookup_cons, dropped, inductionHypothesis]

/-- A new entry is found under its key, and nothing changes elsewhere. -/
theorem lookup_replace [DecidableEq α] (entries : List (α × β)) (key : α)
    (value : β) (query : α) :
    ((key, value) :: entries.filter fun entry => entry.1 != key).lookup
        query =
      if query = key then some value else entries.lookup query := by
  by_cases same : query = key
  · simp [same]
  · have other : (query == key) = false := by simpa using same
    simp [List.lookup_cons, other, same, lookup_filter_of_ne same]

end Entries

namespace FileTree

variable {tree : FileTree} {path : Path} {location : Location}

/-- A path leads to what stands at its location. -/
theorem find_eq_ok {node : Node} :
    tree.find path = .ok (location, node) ↔
      tree.locate path = .ok location ∧ tree.node? location = some node := by
  unfold find
  rw [bind_eq_ok]
  constructor
  · rintro ⟨place, located, found⟩
    split at found
    · rename_i other stands
      cases found
      exact ⟨located, stands⟩
    · cases found
  · rintro ⟨located, stands⟩
    refine ⟨location, located, ?_⟩
    rw [stands]
    rfl

theorem isDirectory_iff :
    tree.isDirectory path = true ↔
      ∃ location, tree.find path = .ok (location, .directory) := by
  unfold isDirectory
  rcases tree.find path with _ | ⟨_, _ | _⟩
  · simp
  · simp
  · simp

end FileTree

end Deobfuscate
