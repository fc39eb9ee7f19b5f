import Deobfuscate.Proofs.Chain.Failure
import Deobfuscate.Proofs.Digest.Content

/-!
# Links as functions

A stage is a function of the bytes it is run on and of what the inputs hold that
are hashed for it.  When the places that a chain writes to lie outside of what is
hashed and outside one another, running links in order composes their
functions.
-/

namespace Deobfuscate

open FileTree

namespace FileTree.Agrees

variable {roots wider : List Location} {first second : FileTree}

theorem mono (agrees : Agrees roots first second) (subset : roots ⊆ wider) :
    Agrees wider first second where
  firstSound := agrees.firstSound
  secondSound := agrees.secondSound
  kept := by
    intro location outside
    refine agrees.kept location ?_
    rintro ⟨root, member, inside⟩
    exact outside ⟨root, subset member, inside⟩

end FileTree.Agrees

namespace Chain

/-- What a stage makes of the bytes it is run on and of what its hashed inputs
hold. -/
abbrev Transform := Option Bytes → List InputContent → Except StageError Bytes

/-- The bytes that a stage is run on. -/
def inputBytes (tree : FileTree) (input : Option Path) : Option Bytes :=
  input.bind fun path => (tree.readBytes path).toOption

def linkContents (tree : FileTree) (link : Link) :
    Except InputError (List InputContent) :=
  (link.stage.inputs tree).mapM (HashInput.content tree)

/-- A stage that is run where everything is prepared, and succeeds with a file,
has made it from the bytes it was run on and from what its hashed inputs
hold. -/
def Performs (link : Link) (transform : Transform) : Prop :=
  ∀ (paths : StagePaths) (before after : Workspace)
    (contents : List InputContent),
    paths.Prepared before.tree → paths.Readable before.tree →
    linkContents before.tree link = .ok contents →
    runFrom (link.stage.run paths) before = (.ok (), after) →
    after.tree.isFile paths.output = true →
    ∃ content, transform (inputBytes before.tree paths.input) contents =
        .ok content ∧
      after.tree.contentAt paths.output.target = some content

def outcome (tree : FileTree) (transform : Link → Transform) (link : Link)
    (bytes : Option Bytes) : Except StageError Bytes := do
  let contents ← (linkContents tree link).mapError (.cache ∘ .input)
  transform link bytes contents

def composition (tree : FileTree) (transform : Link → Transform) :
    List Link → Option Bytes → Except StageError (Option Bytes)
  | [], bytes => return bytes
  | link :: rest, bytes => do
      composition tree transform rest (some (← outcome tree transform link bytes))

def footprint (chain : Chain) : List Location :=
  outputPlaces chain.links ++
    (chain.digestPath.map Path.target).toList ++
    scratchPlaces chain.scratchRoot chain.links

/-- Neither of two outputs leads through or below the other one. -/
def Beside (link other : Link) : Prop :=
  link.output.Avoids other.output.target ∧
    other.output.Avoids link.output.target

instance (link other : Link) : Decidable (Beside link other) :=
  inferInstanceAs (Decidable (_ ∧ _))

/-- The outputs, the digest and the scratch directories of a chain lie outside
its input, everything that is hashed, and one another. -/
structure Separate (chain : Chain) (tree : FileTree) : Prop where
  confined : ∀ link ∈ chain.links, link.stage.Confined
  scratch : ∀ link ∈ chain.links, ∀ other ∈ chain.links,
    link.output.Avoids (scratchOf chain.scratchRoot other).target
  outputs : chain.links.Pairwise Beside
  digest : ∀ path, chain.digestPath = some path → ∀ link ∈ chain.links,
    path.Avoids link.output.target ∧ link.output.Avoids path.target
  input : ∀ path, chain.input = some path →
    ∀ root ∈ footprint chain, path.Avoids root
  hashed : ∀ link ∈ chain.links, ∀ input ∈ link.stage.inputs tree,
    ∀ root ∈ footprint chain, input.Avoids root
  /-- Which inputs a stage has does not depend on what the chain writes. -/
  steady : ∀ link ∈ chain.links, ∀ later,
    Agrees (footprint chain) tree later →
    link.stage.inputs later = link.stage.inputs tree
  /-- What does not count for the digest is there all the same. -/
  unhashed : ∀ link ∈ chain.links, link.retention = .unhashed →
    ∃ contents, linkContents tree link = .ok contents

theorem output_mem_footprint {chain : Chain} {link : Link}
    (member : link ∈ chain.links) : link.output.target ∈ footprint chain := by
  unfold footprint outputPlaces
  simp only [List.mem_append, List.mem_map]
  exact Or.inl (Or.inl ⟨link, member, rfl⟩)

theorem scratch_mem_footprint {chain : Chain} {link : Link}
    (member : link ∈ chain.links) :
    (scratchOf chain.scratchRoot link).target ∈ footprint chain := by
  unfold footprint scratchPlaces
  simp only [List.mem_append, List.mem_map]
  exact Or.inr ⟨link, member, rfl⟩

theorem digest_mem_footprint {chain : Chain} {path : Path}
    (kept : chain.digestPath = some path) :
    path.target ∈ footprint chain := by
  unfold footprint
  rw [kept]
  simp

namespace Separate

variable {chain : Chain} {base : FileTree} (separate : Separate chain base)

include separate

theorem apart : Apart chain.scratchRoot chain.links where
  confined := separate.confined
  outside := separate.scratch
  distinct := by
    rw [List.Nodup, List.pairwise_map]
    refine separate.outputs.imp fun beside same => ?_
    exact beside.2.target (same ▸ List.prefix_rfl)

/-- What the inputs of a link hold they still hold later. -/
theorem linkContents_eq {tree : FileTree}
    (agrees : Agrees (footprint chain) base tree) {link : Link}
    (member : link ∈ chain.links) {contents : List InputContent}
    (held : linkContents base link = .ok contents) :
    linkContents tree link = .ok contents := by
  have same : ∀ input ∈ link.stage.inputs base,
      input.content tree = input.content base := by
    intro input declared
    obtain ⟨content, _, holds⟩ := exists_related (mapM_eq_ok.1 held) declared
    rw [holds, HashInput.content_eq agrees
      (separate.hashed link member input declared) holds]
  rw [linkContents, separate.steady link member tree agrees,
    HashInput.mapM_congr same]
  exact held

end Separate

section Running

variable {scratchRoot : Path} {link : Link} {input : Option Path}
  {before after : Workspace}

/-- A link that succeeds has run its stage where nothing but its scratch
directory was touched. -/
theorem runLink_performed (sound : before.tree.Sound)
    (ran : runFrom (runLink scratchRoot link input) before = (.ok (), after)) :
    ∃ (paths : StagePaths) (prepared ended : Workspace),
      paths.input = input ∧
      Agrees [(scratchOf scratchRoot link).target] before.tree prepared.tree ∧
      paths.Prepared prepared.tree ∧
      runFrom (link.stage.run paths) prepared = (.ok (), ended) ∧
      ended.tree.isFile paths.output = true ∧
      product scratchRoot link input before =
        ended.tree.contentAt paths.output.target := by
  rw [runLink_eq, runFrom_bind] at ran
  rcases preparing : runFrom (prepareLink scratchRoot link) before with
    ⟨answer, prepared⟩
  rw [preparing] at ran
  obtain ⟨middle, spares, ⟨⟨error, rfl⟩, _⟩ |
    ⟨number, created, rfl, reaches, made, readyTree⟩⟩ :=
    prepareLink_cases preparing
  · cases ran
  · dsimp only at ran
    rw [StageAction.runFrom_finallyDo] at ran
    rcases publishing : runFrom (publish link input (stagingIn link number)
      (scratchOf scratchRoot link)) prepared with ⟨answer, published⟩
    rw [publishing] at ran
    obtain ⟨rfl, _⟩ := Prod.mk.inj ran
    obtain ⟨staged, ended, staging, ⟨⟨_, impossible⟩, _⟩ |
      ⟨_, rfl, there, _⟩⟩ := publish_cases publishing
    · cases impossible
    · have middleSound := (spares.alters sound).1
      have extended : Extends (fun _ => True) middle created :=
        extends_createDirectory made fun _ => trivial
      have cleared : Agrees [(scratchOf scratchRoot link).target] before.tree
          middle :=
        Agrees.of_alters spares.alters sound (by simp [Within])
      have directed : Agrees [(scratchOf scratchRoot link).target] middle
          prepared.tree := by
        rw [readyTree]
        exact Agrees.of_alters extended.tick middleSound fun _ => False.elim
      refine ⟨_, prepared, ended, rfl, cleared.trans directed, ?_, staging,
        there, ?_⟩
      · rw [readyTree]
        exact prepared_stagePaths middleSound reaches made
      · unfold product
        rw [preparing]
        dsimp only [stagePaths]
        rw [staging]

/-- A link that succeeds has changed its scratch directory and its output. -/
theorem agrees_of_runLink (confined : link.stage.Confined)
    (avoids : link.output.Avoids (scratchOf scratchRoot link).target)
    (sound : before.tree.Sound)
    (ran : runFrom (runLink scratchRoot link input) before = (.ok (), after)) :
    Agrees [(scratchOf scratchRoot link).target, link.output.target]
        before.tree after.tree ∧
      ∃ content modified identity,
        product scratchRoot link input before = some content ∧
        after.tree.find link.output =
          .ok (link.output.target, .file content modified identity) := by
  obtain ⟨⟨_, impossible⟩, _⟩ | ⟨_, spares, content, modified, identity,
    made, found⟩ := runLink_cases confined avoids sound ran
  · cases impossible
  refine ⟨Agrees.of_alters spares.alters sound ?_, content, modified, identity,
    made, found⟩
  rintro location (⟨scratch, listed, inside⟩ | listed)
  · rw [List.mem_singleton.1 listed] at inside
    exact ⟨_, List.mem_cons_self, inside⟩
  · rw [List.mem_singleton.1 listed]
    exact ⟨link.output.target, List.mem_cons_of_mem _ List.mem_cons_self,
      List.prefix_rfl⟩

def Readable (tree : FileTree) (scratchRoot : Path) (links : List Link)
    (input : Option Path) : Prop :=
  ∀ path, input = some path →
    (∃ content, tree.readBytes path = .ok content) ∧
      ∀ link ∈ links, path.Avoids (scratchOf scratchRoot link).target

theorem inputBytes_eq {first second : FileTree} {links : List Link}
    (agrees : Agrees [(scratchOf scratchRoot link).target] first second)
    (readable : Readable first scratchRoot links input)
    (member : link ∈ links) :
    inputBytes second input = inputBytes first input := by
  cases input with
  | none => rfl
  | some path =>
      obtain ⟨⟨content, read⟩, avoids⟩ := readable path rfl
      have again : second.readBytes path = .ok content := by
        refine agrees.readBytes (fun root listed => ?_) read
        rw [List.mem_singleton.1 listed]
        exact avoids link member
      simp only [inputBytes, Option.bind_some, read, again]

end Running

/-! ## Running links -/

section Composing

variable {chain : Chain} {base : FileTree} {transform : Link → Transform}
  {before after : Workspace} {input : Option Path} {links : List Link}
  (separate : Separate chain base)
  (performs : ∀ link ∈ chain.links, Performs link (transform link))
  (resolved : ∀ link ∈ chain.links,
    ∃ contents, linkContents base link = .ok contents)

include separate performs resolved

/-- A link that succeeds has made what its function gives. -/
theorem outcome_of_runLink {link : Link} (member : link ∈ chain.links)
    (agrees : Agrees (footprint chain) base before.tree)
    (listed : link ∈ links)
    (readable : Readable before.tree chain.scratchRoot links input)
    (ran : runFrom (runLink chain.scratchRoot link input) before =
      (.ok (), after)) {content : Bytes}
    (made : product chain.scratchRoot link input before = some content) :
    outcome base transform link (inputBytes before.tree input) =
      .ok content := by
  obtain ⟨contents, given⟩ := resolved link member
  obtain ⟨paths, prepared, ended, rfl, cleared, everything, staged, there, wrote⟩
    := runLink_performed agrees.secondSound ran
  have scratched : Agrees (footprint chain) before.tree prepared.tree := by
    refine cleared.mono fun root inside => ?_
    rw [List.mem_singleton.1 inside]
    exact scratch_mem_footprint member
  have held := separate.linkContents_eq (agrees.trans scratched) member given
  have still : paths.Readable prepared.tree := by
    intro path asked
    obtain ⟨⟨content, read⟩, avoids⟩ := readable path asked
    refine ⟨content, cleared.readBytes (fun root inside => ?_) read⟩
    rw [List.mem_singleton.1 inside]
    exact avoids link listed
  obtain ⟨result, computed, stands⟩ := performs link member paths prepared ended
    contents everything still held staged there
  rw [made, stands] at wrote
  cases wrote
  rw [inputBytes_eq cleared readable listed] at computed
  rw [outcome, given]
  exact computed

/-- Links that are run in order compose their functions. -/
theorem runLinks_composed (members : ∀ link ∈ links, link ∈ chain.links)
    (apart : Apart chain.scratchRoot links)
    (outputs : links.Pairwise Beside)
    (agrees : Agrees (footprint chain) base before.tree)
    (readable : Readable before.tree chain.scratchRoot links input)
    (ran : runFrom (runLinks chain.scratchRoot input links) before =
      (.ok (), after)) :
    Agrees (scratchPlaces chain.scratchRoot links ++ outputPlaces links)
        before.tree after.tree ∧
      (∀ link ∈ links, ∃ content modified identity,
        after.tree.find link.output =
          .ok (link.output.target, .file content modified identity)) ∧
      composition base transform links (inputBytes before.tree input) =
        .ok (inputBytes after.tree (inputAfter input links)) := by
  induction links generalizing input before with
  | nil =>
      cases ran
      exact ⟨Agrees.refl agrees.secondSound,
        fun _ member => absurd member List.not_mem_nil, rfl⟩
  | cons link rest inductionHypothesis =>
      obtain ⟨_, later, running, others⟩ := runFrom_bind_eq_ok.1 ran
      have member := members link (by simp)
      have avoids := apart.outside link (by simp) link (by simp)
      obtain ⟨stepped, content, modified, identity, made, found⟩ :=
        agrees_of_runLink (apart.confined link (by simp)) avoids
          agrees.secondSound running
      have computed := outcome_of_runLink separate performs resolved member
        agrees (by simp) readable running made
      have laterAgrees : Agrees (footprint chain) base later.tree := by
        refine agrees.trans (stepped.mono ?_)
        intro root inside
        simp only [List.mem_cons, List.not_mem_nil, or_false] at inside
        rcases inside with rfl | rfl
        · exact scratch_mem_footprint member
        · exact output_mem_footprint member
      have read : later.tree.readBytes link.output = .ok content := by
        rw [FileTree.readBytes, found]
        rfl
      have laterReadable : Readable later.tree chain.scratchRoot rest
          (some link.output) := by
        rintro path ⟨⟩
        exact ⟨⟨content, read⟩, fun other listed =>
          apart.outside link (by simp) other (by simp [listed])⟩
      obtain ⟨restAgrees, restFound, composed⟩ := inductionHypothesis
        (fun other listed => members other (by simp [listed])) apart.tail
        (List.pairwise_cons.1 outputs).2 laterAgrees laterReadable others
      refine ⟨?_, ?_, ?_⟩
      · refine (stepped.mono ?_).trans (restAgrees.mono ?_)
        · refine List.cons_subset.2 ⟨List.mem_cons_self, ?_⟩
          exact List.cons_subset.2
            ⟨List.mem_append_right _ List.mem_cons_self, List.nil_subset _⟩
        · exact List.append_subset.2
            ⟨List.subset_append_of_subset_left _ (List.subset_cons_self _ _),
              List.subset_append_of_subset_right _ (List.subset_cons_self _ _)⟩
      · intro other listed
        rcases List.mem_cons.1 listed with rfl | inside
        · refine ⟨content, modified, identity, restAgrees.find ?_ found⟩
          intro root inside
          rcases List.mem_append.1 inside with scratch | output
          · obtain ⟨third, inRest, rfl⟩ := List.mem_map.1 scratch
            exact apart.outside other (by simp) third (by simp [inRest])
          · obtain ⟨third, inRest, rfl⟩ := List.mem_map.1 output
            exact ((List.pairwise_cons.1 outputs).1 third inRest).1
        · exact restFound other inside
      · have bytes : inputBytes later.tree (some link.output) =
            some content := by
          rw [inputBytes, Option.bind_some, read]
          rfl
        rw [composition, computed]
        rw [bytes] at composed
        exact composed

end Composing

end Chain

end Deobfuscate
