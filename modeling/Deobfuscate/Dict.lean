/-!
# Dictionaries with text keys

A `Dict α` binds texts to values.  Its bindings are held as a list in strictly
increasing order of the keys, so listing a dictionary is listing it in order,
and two dictionaries with the same bindings are equal.

The main statements are `Dict.get?_insert`, `Dict.get?_erase` and
`Dict.ext_get?`: they describe every operation through look-ups alone.
-/

namespace Deobfuscate

namespace Bindings

variable {α : Type}

/-- Bindings whose keys increase strictly. -/
def Sorted (bindings : List (String × α)) : Prop :=
  bindings.Pairwise fun left right => left.1 < right.1

def get? (key : String) : List (String × α) → Option α
  | [] => none
  | (name, value) :: rest =>
      if name = key then some value else get? key rest

def insert (key : String) (value : α) :
    List (String × α) → List (String × α)
  | [] => [(key, value)]
  | (name, held) :: rest =>
      if key < name then (key, value) :: (name, held) :: rest
      else if key = name then (key, value) :: rest
      else (name, held) :: insert key value rest

theorem mem_insert {key : String} {value : α}
    {bindings : List (String × α)} {binding : String × α}
    (member : binding ∈ insert key value bindings) :
    binding = (key, value) ∨ binding ∈ bindings := by
  induction bindings with
  | nil =>
      simpa [insert] using member
  | cons head rest ih =>
      obtain ⟨name, held⟩ := head
      simp only [insert] at member
      split at member
      · simpa using member
      · split at member
        · rcases List.mem_cons.1 member with equal | tail
          · exact Or.inl equal
          · exact Or.inr (List.mem_cons_of_mem _ tail)
        · rcases List.mem_cons.1 member with equal | tail
          · exact Or.inr (by simp [equal])
          · rcases ih tail with equal | tail
            · exact Or.inl equal
            · exact Or.inr (List.mem_cons_of_mem _ tail)

theorem lt_of_not_lt_of_ne {left right : String}
    (notLess : ¬left < right) (different : left ≠ right) : right < left := by
  rcases Std.lt_trichotomy left right with less | equal | greater
  · exact absurd less notLess
  · exact absurd equal different
  · exact greater

theorem sorted_insert {key : String} {value : α}
    {bindings : List (String × α)} (sorted : Sorted bindings) :
    Sorted (insert key value bindings) := by
  induction bindings with
  | nil =>
      simp [insert, Sorted]
  | cons head rest ih =>
      obtain ⟨name, held⟩ := head
      obtain ⟨above, sortedRest⟩ := List.pairwise_cons.1 sorted
      simp only [insert]
      split
      · rename_i less
        refine List.pairwise_cons.2 ⟨?_, sorted⟩
        intro binding member
        rcases List.mem_cons.1 member with equal | tail
        · simpa [equal] using less
        · exact String.lt_trans less (above binding tail)
      · split
        · rename_i equal
          subst equal
          exact List.pairwise_cons.2 ⟨above, sortedRest⟩
        · rename_i notLess different
          refine List.pairwise_cons.2 ⟨?_, ih sortedRest⟩
          intro binding member
          rcases mem_insert member with equal | tail
          · simpa [equal] using lt_of_not_lt_of_ne notLess different
          · exact above binding tail

theorem get?_insert (key : String) (value : α) (query : String)
    (bindings : List (String × α)) :
    get? query (insert key value bindings) =
      if key = query then some value else get? query bindings := by
  induction bindings with
  | nil =>
      simp [insert, get?]
  | cons head rest ih =>
      obtain ⟨name, held⟩ := head
      simp only [insert]
      split
      · simp [get?]
      · split
        · rename_i equal
          subst equal
          by_cases same : key = query <;> simp [get?, same]
        · rename_i notLess different
          by_cases same : name = query
          · subst same
            simp [get?, different]
          · simp [get?, same, ih]

/-- A key below every key of a list is not bound in it. -/
theorem get?_eq_none_of_lt {key : String} {bindings : List (String × α)}
    (below : ∀ binding ∈ bindings, key < binding.1) :
    get? key bindings = none := by
  induction bindings with
  | nil =>
      rfl
  | cons head rest ih =>
      obtain ⟨name, held⟩ := head
      have less : key < name := below (name, held) (by simp)
      have different : name ≠ key := by
        intro equal
        subst equal
        exact String.lt_irrefl _ less
      simp [get?, different, ih fun binding member =>
        below binding (List.mem_cons_of_mem _ member)]

theorem get?_eq_some_iff {key : String} {value : α}
    {bindings : List (String × α)} (sorted : Sorted bindings) :
    get? key bindings = some value ↔ (key, value) ∈ bindings := by
  induction bindings with
  | nil =>
      simp [get?]
  | cons head rest ih =>
      obtain ⟨name, held⟩ := head
      obtain ⟨above, sortedRest⟩ := List.pairwise_cons.1 sorted
      by_cases same : name = key
      · subst same
        have absent : (name, value) ∉ rest := fun member =>
          String.lt_irrefl _ (above (name, value) member)
        constructor
        · intro found
          simp [get?] at found
          simp [found]
        · intro member
          rcases List.mem_cons.1 member with equal | tail
          · simp [get?, (Prod.mk.injEq _ _ _ _ ▸ equal).2]
          · exact absurd tail absent
      · have different : ¬(key, value) = (name, held) := by
          intro equal
          exact same (Prod.mk.injEq _ _ _ _ ▸ equal).1.symm
        simp [get?, same, ih sortedRest, different]

theorem ext_get? {left right : List (String × α)}
    (sortedLeft : Sorted left) (sortedRight : Sorted right)
    (agree : ∀ key, get? key left = get? key right) : left = right := by
  induction left generalizing right with
  | nil =>
      cases right with
      | nil => rfl
      | cons head rest =>
          have := agree head.1
          simp [get?] at this
  | cons leftHead leftRest ih =>
      cases right with
      | nil =>
          have := agree leftHead.1
          simp [get?] at this
      | cons rightHead rightRest =>
          obtain ⟨leftName, leftValue⟩ := leftHead
          obtain ⟨rightName, rightValue⟩ := rightHead
          obtain ⟨aboveLeft, sortedLeftRest⟩ := List.pairwise_cons.1 sortedLeft
          obtain ⟨aboveRight, sortedRightRest⟩ :=
            List.pairwise_cons.1 sortedRight
          have notBelow : ¬leftName < rightName := by
            intro less
            have found := agree leftName
            have below : ∀ binding ∈ (rightName, rightValue) :: rightRest,
                leftName < binding.1 := by
              intro binding member
              rcases List.mem_cons.1 member with equal | tail
              · simpa [equal] using less
              · exact String.lt_trans less (aboveRight binding tail)
            rw [get?_eq_none_of_lt below] at found
            simp [get?] at found
          have notAbove : ¬rightName < leftName := by
            intro less
            have found := agree rightName
            have below : ∀ binding ∈ (leftName, leftValue) :: leftRest,
                rightName < binding.1 := by
              intro binding member
              rcases List.mem_cons.1 member with equal | tail
              · simpa [equal] using less
              · exact String.lt_trans less (aboveLeft binding tail)
            rw [get?_eq_none_of_lt below] at found
            simp [get?] at found
          have sameName : leftName = rightName := by
            rcases Std.lt_trichotomy leftName rightName with less | equal | less
            · exact absurd less notBelow
            · exact equal
            · exact absurd less notAbove
          subst sameName
          have sameValue : leftValue = rightValue := by
            have found := agree leftName
            simpa [get?] using found
          subst sameValue
          congr 1
          refine ih sortedLeftRest sortedRightRest fun key => ?_
          by_cases same : leftName = key
          · subst same
            rw [get?_eq_none_of_lt aboveLeft, get?_eq_none_of_lt aboveRight]
          · simpa [get?, same] using agree key

end Bindings

/-! ## Dictionaries -/

/-- A finite map from texts to values, listed in increasing order of keys. -/
structure Dict (α : Type) where
  /-- The bindings, in order. -/
  toList : List (String × α)
  /-- Keys increase strictly, so no key is bound twice. -/
  sorted : Bindings.Sorted toList
  deriving DecidableEq

namespace Dict

variable {α β : Type}

/-- The dictionary without bindings. -/
def empty : Dict α :=
  ⟨[], List.Pairwise.nil⟩

instance : Inhabited (Dict α) :=
  ⟨empty⟩

instance : EmptyCollection (Dict α) :=
  ⟨empty⟩

/-- The value bound to a key. -/
def get? (dict : Dict α) (key : String) : Option α :=
  Bindings.get? key dict.toList

def contains (dict : Dict α) (key : String) : Bool :=
  (dict.get? key).isSome

def insert (dict : Dict α) (key : String) (value : α) : Dict α :=
  ⟨Bindings.insert key value dict.toList, Bindings.sorted_insert dict.sorted⟩

def filter (dict : Dict α) (keep : String → α → Bool) : Dict α :=
  ⟨dict.toList.filter fun binding => keep binding.1 binding.2,
    dict.sorted.filter _⟩

def erase (dict : Dict α) (key : String) : Dict α :=
  dict.filter fun name _ => name != key

/-- Apply a function to every bound value. -/
def map (dict : Dict α) (change : String → α → β) : Dict β :=
  ⟨dict.toList.map fun binding => (binding.1, change binding.1 binding.2), by
    unfold Bindings.Sorted
    rw [List.pairwise_map]
    exact dict.sorted⟩

/-- The bound keys, in order. -/
def keys (dict : Dict α) : List String :=
  dict.toList.map Prod.fst

/-- The bound values, in the order of their keys. -/
def values (dict : Dict α) : List α :=
  dict.toList.map Prod.snd

def size (dict : Dict α) : Nat :=
  dict.toList.length

/-- Whether there is no binding. -/
def isEmpty (dict : Dict α) : Bool :=
  dict.toList.isEmpty

/-- Add bindings in turn; a later binding of a key replaces an earlier one. -/
def insertAll (dict : Dict α) (bindings : List (String × α)) : Dict α :=
  bindings.foldl (fun dict binding => dict.insert binding.1 binding.2) dict

/-- The dictionary of the given bindings, the last one of a key winning. -/
def ofList (bindings : List (String × α)) : Dict α :=
  empty.insertAll bindings

@[simp]
theorem get?_empty (key : String) : (empty : Dict α).get? key = none :=
  rfl

theorem get?_insert (dict : Dict α) (key : String) (value : α)
    (query : String) :
    (dict.insert key value).get? query =
      if key = query then some value else dict.get? query :=
  Bindings.get?_insert key value query dict.toList

@[simp]
theorem get?_insert_self (dict : Dict α) (key : String) (value : α) :
    (dict.insert key value).get? key = some value := by
  simp [get?_insert]

theorem get?_eq_some_iff {dict : Dict α} {key : String} {value : α} :
    dict.get? key = some value ↔ (key, value) ∈ dict.toList :=
  Bindings.get?_eq_some_iff dict.sorted

/-- Dictionaries with the same bindings in order are equal. -/
theorem toList_injective {left right : Dict α}
    (same : left.toList = right.toList) : left = right := by
  cases left
  cases right
  cases same
  rfl

/-- Two dictionaries that answer every look-up alike are equal. -/
theorem ext_get? {left right : Dict α}
    (agree : ∀ key, left.get? key = right.get? key) : left = right := by
  cases left with
  | mk leftList leftSorted =>
      cases right with
      | mk rightList rightSorted =>
          congr 1
          exact Bindings.ext_get? leftSorted rightSorted agree

/-- Of two bindings of a key the later one counts. -/
theorem insert_insert (dict : Dict α) (key : String) (first second : α) :
    (dict.insert key first).insert key second = dict.insert key second := by
  apply ext_get?
  intro query
  by_cases same : key = query <;> simp [get?_insert, same]

/-- Binding a key to the value it has changes nothing. -/
theorem insert_eq_self {dict : Dict α} {key : String} {value : α}
    (held : dict.get? key = some value) : dict.insert key value = dict := by
  apply ext_get?
  intro query
  rw [get?_insert]
  split
  · rename_i same
    rw [← same, held]
  · rfl

theorem get?_filter (dict : Dict α) (keep : String → α → Bool)
    (key : String) :
    (dict.filter keep).get? key = (dict.get? key).filter (keep key) := by
  apply Option.ext
  intro value
  rw [Option.filter_eq_some_iff, get?_eq_some_iff, get?_eq_some_iff]
  simp [filter]

theorem get?_erase (dict : Dict α) (key query : String) :
    (dict.erase key).get? query =
      if key = query then none else dict.get? query := by
  unfold erase
  rw [get?_filter]
  by_cases same : key = query
  · subst same
    cases dict.get? key <;> simp
  · have different : (query != key) = true := by
      simpa [bne_iff_ne] using fun equal => same (Eq.symm equal)
    cases dict.get? query <;> simp [different, same]

theorem get?_map (dict : Dict α) (change : String → α → β)
    (key : String) :
    (dict.map change).get? key = (dict.get? key).map (change key) := by
  simp only [get?, map]
  induction dict.toList with
  | nil =>
      rfl
  | cons head rest ih =>
      obtain ⟨name, value⟩ := head
      by_cases same : name = key
      · subst same
        simp [Bindings.get?]
      · simp [Bindings.get?, same, ih]

end Dict

end Deobfuscate
