import Deobfuscate.Mapping.Generate
import Deobfuscate.Mapping.SymbolSet
import Deobfuscate.Proofs.Mapping.Names
import Mathlib.Data.List.Basic

/-!
# Translating names

A symbol set and the derived tables are two views of one base table.  They agree:
translating a name in one of the five directions gives what stands beside it on
the first line of the table of that direction that starts with it.

The human name of a symbol depends on its intermediate name alone.  So names can
be translated by way of the intermediate namespace, also where several symbols
share a name.
-/

namespace Deobfuscate.Mapping

/-- Symbols with an index of their names: where each name of a kind of symbol in
a namespace was declared first. -/
structure IndexedSymbols where
  symbols : List Symbol
  index : SymbolKind × Namespace × String → Option Nat

namespace IndexedSymbols

def empty : IndexedSymbols :=
  ⟨[], fun _ => none⟩

def enter (symbol : Symbol) (position : Nat)
    (index : SymbolKind × Namespace × String → Option Nat) (space : Namespace) :
    SymbolKind × Namespace × String → Option Nat :=
  fun key => (index key).or <|
    if symbol.kind = key.1 ∧ space = key.2.1 ∧
        symbol.nameIn space = some key.2.2 then
      some position
    else none

def push (indexed : IndexedSymbols) (symbol : Symbol) : IndexedSymbols where
  symbols := indexed.symbols ++ [symbol]
  index := [Namespace.notch, .intermediate, .human].foldl
    (enter symbol indexed.symbols.length) indexed.index

def lookup (indexed : IndexedSymbols) (kind : SymbolKind) (space : Namespace)
    (name : String) : Option Symbol :=
  (indexed.index (kind, space, name)).bind (indexed.symbols[·]?)

/-- Every name is indexed where it was declared first. -/
def Faithful (indexed : IndexedSymbols) : Prop :=
  ∀ kind space name, indexed.index (kind, space, name) =
    indexed.symbols.findIdx? fun symbol =>
      symbol.kind = kind && symbol.nameIn space == some name

theorem index_push (indexed : IndexedSymbols) (symbol : Symbol)
    (kind : SymbolKind) (space : Namespace) (name : String) :
    (indexed.push symbol).index (kind, space, name) =
      (indexed.index (kind, space, name)).or
        (if symbol.kind = kind ∧ symbol.nameIn space = some name then
          some indexed.symbols.length
        else none) := by
  cases space <;> simp [push, enter]

theorem Faithful.push {indexed : IndexedSymbols} (faithful : indexed.Faithful)
    (symbol : Symbol) : (indexed.push symbol).Faithful := by
  intro kind space name
  rw [index_push, faithful]
  simp [IndexedSymbols.push, List.findIdx?_append, List.findIdx?_singleton]

theorem Faithful.foldl_push {indexed : IndexedSymbols}
    (faithful : indexed.Faithful) (symbols : List Symbol) :
    (symbols.foldl IndexedSymbols.push indexed).Faithful ∧
      (symbols.foldl IndexedSymbols.push indexed).symbols =
        indexed.symbols ++ symbols := by
  induction symbols generalizing indexed with
  | nil => exact ⟨faithful, (List.append_nil _).symm⟩
  | cons symbol rest inductionHypothesis =>
      rw [List.foldl_cons]
      refine ⟨(inductionHypothesis (faithful.push symbol)).1, ?_⟩
      rw [(inductionHypothesis (faithful.push symbol)).2, IndexedSymbols.push,
        List.append_assoc, List.singleton_append]

end IndexedSymbols

/-- Symbols that are declared one after another and indexed under their names
are looked up as the symbols of a set are. -/
theorem SymbolSet.lookup_indexed (set : SymbolSet) (kind : SymbolKind)
    (space : Namespace) (name : String) :
    (set.symbols.foldl IndexedSymbols.push .empty).lookup kind space name =
      set.lookup kind space name := by
  have started : IndexedSymbols.empty.Faithful := fun _ _ _ => rfl
  obtain ⟨faithful, symbols⟩ := started.foldl_push set.symbols
  rw [IndexedSymbols.lookup, faithful, symbols, SymbolSet.lookup,
    List.find?_eq_bind_findIdx?_getElem?]
  rfl

def declared (base : Table) (fields methods parameters : NameTable) :
    SymbolKind → List Symbol
  | .package => base.packages.map (plainSymbol .package)
  | .type => base.classes.map (plainSymbol .type)
  | .field => base.fields.map (fieldSymbol fields)
  | .method => base.methods.map (methodSymbol methods)
  | .parameter => parameters.toList.map parameterSymbol

theorem find?_kind {α : Type} {make : α → Symbol} {made : SymbolKind}
    (kinds : ∀ item, (make item).kind = made) (kind : SymbolKind)
    (accepts : Symbol → Bool) (items : List α) :
    (items.map make).find? (fun symbol => symbol.kind = kind && accepts symbol) =
      if made = kind then (items.map make).find? accepts else none := by
  simp only [List.find?_map, Function.comp_def, kinds]
  by_cases same : made = kind
  · simp [same]
  · simp [same]

/-- Looking a name up considers the symbols of its kind only. -/
theorem lookup_build (base : Table) (fields methods parameters : NameTable)
    (kind : SymbolKind) (space : Namespace) (name : String) :
    (SymbolSet.build base fields methods parameters).lookup kind space name =
      (declared base fields methods parameters kind).find?
        (·.nameIn space == some name) := by
  have plain : ∀ made (pair : String × String),
      (plainSymbol made pair).kind = made := fun _ _ => rfl
  have field : ∀ pair, (fieldSymbol fields pair).kind = .field := fun _ => rfl
  have method : ∀ pair, (methodSymbol methods pair).kind = .method :=
    fun _ => rfl
  have parameter : ∀ binding, (parameterSymbol binding).kind = .parameter :=
    fun _ => rfl
  simp only [SymbolSet.lookup, SymbolSet.build, List.find?_append,
    find?_kind (plain .package), find?_kind (plain .type), find?_kind field,
    find?_kind method, find?_kind parameter]
  cases kind <;> simp [declared]

def plainName (pair : String × String) : Namespace → String
  | .notch => pair.1
  | .intermediate => pair.2
  | .human => pair.2

def fieldName (fields : NameTable) (pair : String × String) :
    Namespace → String
  | .notch => pair.1
  | .intermediate => pair.2
  | .human => humanField fields pair.2

def methodName (methods : NameTable) (pair : Method × Method) :
    Namespace → String
  | .notch => pair.1.text
  | .intermediate => pair.2.text
  | .human => (humanMethod methods pair.2).text

theorem nameIn_plainSymbol {kind : SymbolKind} (tabled : kind ≠ .parameter)
    (pair : String × String) (space : Namespace) :
    (plainSymbol kind pair).nameIn space = some (plainName pair space) := by
  cases space with
  | notch => exact if_neg tabled
  | intermediate => rfl
  | human => rfl

theorem nameIn_fieldSymbol (fields : NameTable) (pair : String × String)
    (space : Namespace) :
    (fieldSymbol fields pair).nameIn space =
      some (fieldName fields pair space) := by
  cases space with
  | notch => rfl
  | intermediate => rfl
  | human =>
      simp only [Symbol.nameIn, fieldSymbol, fieldName, humanField,
        NameTable.name?]
      cases fields.get? (shortName pair.2) <;> rfl

theorem nameIn_methodSymbol (methods : NameTable) (pair : Method × Method)
    (space : Namespace) :
    (methodSymbol methods pair).nameIn space =
      some (methodName methods pair space) := by
  cases space with
  | notch => rfl
  | intermediate => rfl
  | human =>
      simp only [Symbol.nameIn, methodSymbol, methodName, humanMethod,
        NameTable.name?, Method.text]
      cases methods.get? (shortName pair.2.name) <;> rfl

/-- From one namespace to another. -/
inductive Direction
  | notchToIntermediate
  | notchToHuman
  | intermediateToHuman
  | humanToIntermediate
  | humanToNotch
  deriving DecidableEq, Repr

namespace Direction

def source : Direction → Namespace
  | notchToIntermediate | notchToHuman => .notch
  | intermediateToHuman => .intermediate
  | humanToIntermediate | humanToNotch => .human

def target : Direction → Namespace
  | notchToIntermediate | humanToIntermediate => .intermediate
  | notchToHuman | intermediateToHuman => .human
  | humanToNotch => .notch

def table (generated : Generated) : Direction → Table
  | notchToIntermediate => generated.notchToIntermediate
  | notchToHuman => generated.notchToHuman
  | intermediateToHuman => generated.intermediateToHuman
  | humanToIntermediate => generated.humanToIntermediate
  | humanToNotch => generated.humanToNotch

def carriesPackages : Direction → Bool
  | intermediateToHuman | humanToIntermediate => false
  | _ => true

end Direction

/-- Both sides of the lines of a kind, methods as they are written. -/
def Table.lines (table : Table) : SymbolKind → List (String × String)
  | .package => table.packages
  | .type => table.classes
  | .field => table.fields
  | .method => table.methods.map fun pair => (pair.1.text, pair.2.text)
  | .parameter => []

section Lines

variable (base : Table) (fields methods : NameTable) (direction : Direction)

theorem lines_package (carries : direction.carriesPackages = true) :
    (direction.table (generate base fields methods)).lines .package =
      base.packages.map fun pair =>
        (plainName pair direction.source, plainName pair direction.target) := by
  cases direction with
  | notchToIntermediate => exact (List.map_id' _).symm
  | notchToHuman => exact (List.map_id' _).symm
  | intermediateToHuman => cases carries
  | humanToIntermediate => cases carries
  | humanToNotch => rfl

theorem lines_package_of_none (carries : direction.carriesPackages = false) :
    (direction.table (generate base fields methods)).lines .package = [] := by
  cases direction with
  | notchToIntermediate | notchToHuman | humanToNotch => cases carries
  | intermediateToHuman | humanToIntermediate => rfl

theorem lines_type :
    (direction.table (generate base fields methods)).lines .type =
      base.classes.map fun pair =>
        (plainName pair direction.source, plainName pair direction.target) := by
  cases direction with
  | notchToIntermediate | notchToHuman => exact (List.map_id' _).symm
  | intermediateToHuman | humanToIntermediate | humanToNotch => rfl

theorem lines_field :
    (direction.table (generate base fields methods)).lines .field =
      base.fields.map fun pair => (fieldName fields pair direction.source,
        fieldName fields pair direction.target) := by
  cases direction with
  | notchToIntermediate => exact (List.map_id' _).symm
  | notchToHuman | intermediateToHuman | humanToIntermediate | humanToNotch =>
      rfl

theorem lines_method :
    (direction.table (generate base fields methods)).lines .method =
      base.methods.map fun pair => (methodName methods pair direction.source,
        methodName methods pair direction.target) := by
  cases direction with
  | notchToIntermediate => rfl
  | notchToHuman | intermediateToHuman | humanToIntermediate | humanToNotch =>
      exact List.map_map

end Lines

theorem find?_eq_lookup {α : Type} {make : α → Symbol}
    {names : α → Namespace → String}
    (named : ∀ item space, (make item).nameIn space = some (names item space))
    (source target : Namespace) (name : String) (items : List α) :
    ((items.map make).find? (·.nameIn source == some name)).bind
        (·.nameIn target) =
      (items.map fun item => (names item source, names item target)).lookup
        name := by
  induction items with
  | nil => rfl
  | cons item rest inductionHypothesis =>
      rw [List.map_cons, List.map_cons, List.lookup_cons]
      by_cases same : names item source = name
      · rw [List.find?_cons_of_pos (by simp [named, same]), Option.bind_some,
          named, same, BEq.rfl]
      · have other : (name == names item source) = false := by
          simpa using Ne.symm same
        rw [List.find?_cons_of_neg (by simp [named, same]), other]
        exact inductionHypothesis

theorem getD_lookup_same {α : Type} (names : α → String) (name : String)
    (items : List α) :
    ((items.map fun item => (names item, names item)).lookup name).getD name =
      name := by
  induction items with
  | nil => rfl
  | cons item rest inductionHypothesis =>
      rw [List.map_cons, List.lookup_cons]
      by_cases same : name = names item
      · rw [same, BEq.rfl]
        rfl
      · have other : (name == names item) = false := by simpa using same
        rw [other]
        exact inductionHypothesis

/-- Between the intermediate and the human namespace packages keep their names,
for which the tables between these two have no lines. -/
theorem translate_package_of_none (packages : List (String × String))
    {direction : Direction} (carries : direction.carriesPackages = false)
    (name : String) :
    (((packages.map (plainSymbol .package)).find?
        (·.nameIn direction.source == some name)).bind
          (·.nameIn direction.target)).getD name = name := by
  rw [find?_eq_lookup (nameIn_plainSymbol (by decide))]
  cases direction with
  | notchToIntermediate | notchToHuman | humanToNotch => cases carries
  | intermediateToHuman | humanToIntermediate => exact getD_lookup_same ..

/-- A symbol set and the derived tables agree on every name of a package, class,
field or method.  Packages are called the same by humans as in the intermediate
namespace, so that it does not matter that the tables between these two have no
lines for them. -/
theorem translate_eq_derived (base : Table)
    (fields methods parameters : NameTable) (direction : Direction)
    {kind : SymbolKind} (tabled : kind ≠ .parameter) (name : String) :
    (SymbolSet.build base fields methods parameters).translate kind
        direction.source direction.target name =
      (((direction.table (generate base fields methods)).lines kind).lookup
        name).getD name := by
  rw [SymbolSet.translate, lookup_build]
  cases kind with
  | package =>
      cases carries : direction.carriesPackages with
      | true =>
          rw [lines_package base fields methods direction carries]
          exact congrArg (·.getD name)
            (find?_eq_lookup (nameIn_plainSymbol tabled) ..)
      | false =>
          rw [lines_package_of_none base fields methods direction carries]
          exact translate_package_of_none base.packages carries name
  | type =>
      rw [lines_type]
      exact congrArg (·.getD name)
        (find?_eq_lookup (nameIn_plainSymbol tabled) ..)
  | field =>
      rw [lines_field]
      exact congrArg (·.getD name)
        (find?_eq_lookup (nameIn_fieldSymbol fields) ..)
  | method =>
      rw [lines_method]
      exact congrArg (·.getD name)
        (find?_eq_lookup (nameIn_methodSymbol methods) ..)
  | parameter => exact absurd rfl tabled

/-! ### Symbols that share names -/

/-- Two methods with one obfuscated name, two with one human name, and two
classes with one obfuscated name. -/
def sharedBase : Table where
  classes := [("a", "X"), ("a", "Y")]
  fields := [("a/b", "X/field_1_a")]
  methods :=
    [(⟨"a/c", "(I)V"⟩, ⟨"X/func_1_a", "(I)V"⟩),
      (⟨"a/c", "(J)V"⟩, ⟨"X/func_2_b", "(J)V"⟩),
      (⟨"a/d", "(I)V"⟩, ⟨"X/func_3_c", "(I)V"⟩)]

/-- Human names of methods, all with a blank. -/
def sharedNames : NameTable :=
  .ofList [("func_1_a", ⟨"go on", none⟩), ("func_2_b", ⟨"go on", none⟩),
    ("func_3_c", ⟨"go on", none⟩)]

/-- Of the methods with a human name the one that was declared first is meant. -/
theorem translate_eq_derived_shared :
    SymbolKind.method ≠ .parameter ∧
      (SymbolSet.build sharedBase .empty sharedNames .empty).translate .method
        .human .intermediate "X/go on (I)V" = "X/func_1_a (I)V" := by
  refine ⟨by decide, ?_⟩
  refine (translate_eq_derived sharedBase .empty sharedNames .empty
    .humanToIntermediate (by decide) _).trans ?_
  decide

namespace SymbolSet

def Declares (set : SymbolSet) (kind : SymbolKind) (space : Namespace)
    (name : String) : Prop :=
  ∃ symbol ∈ set.symbols, symbol.kind = kind ∧ symbol.nameIn space = some name

/-- Every symbol has an intermediate and a human name, and symbols of a kind
with the same intermediate name have the same human name. -/
structure Coherent (set : SymbolSet) : Prop where
  named : ∀ symbol ∈ set.symbols, ∀ space ≠ .notch,
    (symbol.nameIn space).isSome = true
  unique : ∀ first ∈ set.symbols, ∀ second ∈ set.symbols,
    first.kind = second.kind → first.intermediate = second.intermediate →
    first.human = second.human

variable {set : SymbolSet} {kind : SymbolKind} {space : Namespace}
  {name : String}

theorem lookup_eq_some {symbol : Symbol}
    (found : set.lookup kind space name = some symbol) :
    symbol ∈ set.symbols ∧ symbol.kind = kind ∧
      symbol.nameIn space = some name := by
  have accepted := List.find?_some found
  simp only [Bool.and_eq_true, decide_eq_true_eq, beq_iff_eq] at accepted
  exact ⟨List.mem_of_find?_eq_some found, accepted⟩

theorem Declares.lookup (declares : set.Declares kind space name) :
    ∃ symbol, set.lookup kind space name = some symbol := by
  obtain ⟨symbol, member, sameKind, named⟩ := declares
  refine Option.isSome_iff_exists.1 (List.find?_isSome.2 ⟨symbol, member, ?_⟩)
  simp [sameKind, named]

theorem translate_of_lookup {symbol : Symbol} {target : Namespace}
    {translated : String} (found : set.lookup kind space name = some symbol)
    (named : symbol.nameIn target = some translated) :
    set.translate kind space target name = translated := by
  rw [translate, found, Option.bind_some, named, Option.getD_some]

namespace Coherent

variable (coherent : set.Coherent)

include coherent

/-- A name is translated to the human namespace by way of the intermediate
one. -/
theorem translate_translate (declares : set.Declares kind space name) :
    set.translate kind .intermediate .human
        (set.translate kind space .intermediate name) =
      set.translate kind space .human name := by
  obtain ⟨symbol, found⟩ := declares.lookup
  obtain ⟨member, sameKind, _⟩ := lookup_eq_some found
  obtain ⟨between, intermediate⟩ := Option.isSome_iff_exists.1
    (coherent.named symbol member .intermediate (by decide))
  obtain ⟨human, named⟩ := Option.isSome_iff_exists.1
    (coherent.named symbol member .human (by decide))
  -- The intermediate name may lead to another symbol that was declared earlier.
  obtain ⟨other, otherFound⟩ :=
    Declares.lookup ⟨symbol, member, sameKind, intermediate⟩
  obtain ⟨otherMember, otherKind, otherIntermediate⟩ := lookup_eq_some otherFound
  have otherNamed : other.nameIn .human = some human := by
    rw [← named]
    exact coherent.unique other otherMember symbol member
      (otherKind.trans sameKind.symm)
      (otherIntermediate.trans intermediate.symm)
  rw [translate_of_lookup found intermediate, translate_of_lookup found named,
    translate_of_lookup otherFound otherNamed]

omit coherent in
theorem translate_human (declares : set.Declares kind .human name) :
    set.translate kind .human .human name = name := by
  obtain ⟨symbol, found⟩ := declares.lookup
  exact translate_of_lookup found (lookup_eq_some found).2.2

end Coherent

end SymbolSet

section Build

variable {base : Table} {fields methods parameters : NameTable}

theorem mem_declared {symbol : Symbol}
    (member : symbol ∈
      (SymbolSet.build base fields methods parameters).symbols) :
    symbol ∈ declared base fields methods parameters symbol.kind := by
  simp only [SymbolSet.build, List.mem_append] at member
  rcases member with (((package | type) | field) | method) | parameter
  · obtain ⟨pair, _, rfl⟩ := List.mem_map.1 package
    exact package
  · obtain ⟨pair, _, rfl⟩ := List.mem_map.1 type
    exact type
  · obtain ⟨pair, _, rfl⟩ := List.mem_map.1 field
    exact field
  · obtain ⟨pair, _, rfl⟩ := List.mem_map.1 method
    exact method
  · obtain ⟨binding, _, rfl⟩ := List.mem_map.1 parameter
    exact parameter

theorem declared_named {symbol : Symbol} {space : Namespace}
    (member : symbol ∈ declared base fields methods parameters symbol.kind)
    (translated : space ≠ .notch) : (symbol.nameIn space).isSome = true := by
  have each : ∀ made : Symbol, made.intermediate.isSome = true →
      made.human.isSome = true → (made.nameIn space).isSome = true := by
    intro made intermediate human
    cases space with
    | notch => exact absurd rfl translated
    | intermediate => exact intermediate
    | human => exact human
  cases kind : symbol.kind <;>
    · rw [kind] at member
      obtain ⟨_, _, rfl⟩ := List.mem_map.1 member
      exact each _ rfl rfl

theorem human_fieldSymbol (pair : String × String) :
    (fieldSymbol fields pair).human = some (humanField fields pair.2) :=
  nameIn_fieldSymbol fields pair .human

theorem human_methodSymbol (pair : Method × Method) :
    (methodSymbol methods pair).human =
      some (humanMethod methods pair.2).text :=
  nameIn_methodSymbol methods pair .human

/-- What is written as the intermediate name of a symbol determines its human
name: of a method it determines the name and the descriptor, and of a parameter
the line of the table. -/
theorem declared_unique (worded : base.Worded) {kind : SymbolKind}
    {first second : Symbol}
    (firstMember : first ∈ declared base fields methods parameters kind)
    (secondMember : second ∈ declared base fields methods parameters kind)
    (same : first.intermediate = second.intermediate) :
    first.human = second.human := by
  cases kind with
  | package | type =>
      obtain ⟨_, _, rfl⟩ := List.mem_map.1 firstMember
      obtain ⟨_, _, rfl⟩ := List.mem_map.1 secondMember
      exact same
  | field =>
      obtain ⟨left, _, rfl⟩ := List.mem_map.1 firstMember
      obtain ⟨right, _, rfl⟩ := List.mem_map.1 secondMember
      have names : left.2 = right.2 := Option.some.inj same
      rw [human_fieldSymbol, human_fieldSymbol, names]
  | method =>
      obtain ⟨left, leftListed, rfl⟩ := List.mem_map.1 firstMember
      obtain ⟨right, rightListed, rfl⟩ := List.mem_map.1 secondMember
      have names : left.2 = right.2 := Method.text_injective
        (worded.methods left leftListed).2.1
        (worded.methods right rightListed).2.1 (Option.some.inj same)
      rw [human_methodSymbol, human_methodSymbol, names]
  | parameter =>
      obtain ⟨⟨name, left⟩, leftListed, rfl⟩ := List.mem_map.1 firstMember
      obtain ⟨⟨other, right⟩, rightListed, rfl⟩ := List.mem_map.1 secondMember
      have names : name = other := Option.some.inj same
      subst names
      have bound := Dict.get?_eq_some_iff.2 leftListed
      rw [Dict.get?_eq_some_iff.2 rightListed] at bound
      rw [Option.some.inj bound]

theorem build_coherent (worded : base.Worded) :
    (SymbolSet.build base fields methods parameters).Coherent where
  named := fun _ member _ translated =>
    declared_named (mem_declared member) translated
  unique := by
    intro first firstMember second secondMember kinds same
    exact declared_unique worded (mem_declared firstMember)
      (kinds ▸ mem_declared secondMember) same

end Build

/-- For a base table that was read from a file, a human name of a symbol comes
back from the intermediate namespace, also where symbols share it, and going
from the obfuscated names straight to the human ones is going by way of the
intermediate ones. -/
theorem translate_round_trips {text : String} {path : Path} {base : Table}
    (parsed : Table.parse text path = .ok base)
    (fields methods parameters : NameTable) (kind : SymbolKind)
    (name : String) :
    let set := SymbolSet.build base fields methods parameters
    (set.Declares kind .human name →
        set.translate kind .intermediate .human
          (set.translate kind .human .intermediate name) = name) ∧
      (set.Declares kind .notch name →
        set.translate kind .notch .human name =
          set.translate kind .intermediate .human
            (set.translate kind .notch .intermediate name)) := by
  have coherent : (SymbolSet.build base fields methods parameters).Coherent :=
    build_coherent (Table.parse_worded parsed)
  refine ⟨fun declares => ?_, fun declares => ?_⟩
  · rw [coherent.translate_translate declares]
    exact SymbolSet.Coherent.translate_human declares
  · exact (coherent.translate_translate declares).symm

/-- The text from which the symbols that share names are read. -/
def sharedText : String :=
  "CL: a X\nCL: a Y\nFD: a/b X/field_1_a\n" ++
    "MD: a/c (I)V X/func_1_a (I)V\nMD: a/c (J)V X/func_2_b (J)V\n" ++
    "MD: a/d (I)V X/func_3_c (I)V\n"

/-- A human name that two methods share leads to the first of them and back. -/
theorem translate_round_trips_shared :
    let set := SymbolSet.build sharedBase .empty sharedNames .empty
    Table.parse sharedText ⟨"joined.srg"⟩ = .ok sharedBase ∧
      set.Declares .method .human "X/go on (I)V" ∧
      set.translate .method .human .intermediate "X/go on (I)V" =
        "X/func_1_a (I)V" ∧
      set.translate .method .intermediate .human
        (set.translate .method .human .intermediate "X/go on (I)V") =
          "X/go on (I)V" := by
  have parsed : Table.parse sharedText ⟨"joined.srg"⟩ = .ok sharedBase := by
    decide +kernel
  have declares : (SymbolSet.build sharedBase .empty sharedNames
      .empty).Declares .method .human "X/go on (I)V" := by
    unfold SymbolSet.Declares
    decide
  exact ⟨parsed, declares, by decide,
    (translate_round_trips parsed .empty sharedNames .empty .method _).1
      declares⟩

end Deobfuscate.Mapping
