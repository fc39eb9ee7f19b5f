import Deobfuscate.Proofs.Chain.Stages
import Deobfuscate.Proofs.Digest.Record

/-!
# Chains that are up to date

A chain that has run all its stages has recorded the digest of its inputs.  As
long as nothing changes, hashing the inputs again gives the same digest, so that
the chain, or one that is built anew, finds itself up to date however often it
is asked.
-/

namespace Deobfuscate.Chain

open FileTree

section Hashing

variable {chain : Chain} {base tree : FileTree} {bytes : Bytes}
  (separate : Separate chain base)
  (agrees : Agrees (footprint chain) base tree)
  (hashed : streamAnew base (chain.inputs base) = .ok bytes)

include hashed

/-- What counts for the digest can be hashed. -/
theorem exists_resolved {input : HashInput}
    (member : input ∈ chain.inputs base) :
    ∃ value, input.resolveAnew base = .ok value := by
  obtain ⟨values, resolved, _⟩ := bind_eq_ok.1 hashed
  obtain ⟨value, _, given⟩ := exists_related (mapM_eq_ok.1 resolved) member
  exact ⟨value, given⟩

theorem exists_linkContents (unhashed : ∀ link ∈ chain.links,
      link.retention = .unhashed →
        ∃ contents, linkContents base link = .ok contents)
    {link : Link} (member : link ∈ chain.links) :
    ∃ contents, linkContents base link = .ok contents := by
  by_cases counts : link.retention = .unhashed
  · exact unhashed link member counts
  · refine exists_mapM_eq_ok fun input declared => ?_
    have listed : input ∈ chain.inputs base := by
      refine List.mem_append_right _ (List.mem_flatMap.2 ⟨link, member, ?_⟩)
      unfold Link.inputs
      split
      · rename_i same
        exact absurd same counts
      · exact List.mem_cons_of_mem _ declared
    obtain ⟨_, resolved⟩ := exists_resolved hashed listed
    exact HashInput.exists_content resolved

include separate agrees

omit hashed in
theorem inputs_eq : chain.inputs tree = chain.inputs base := by
  have each : ∀ link ∈ chain.links,
      Link.inputs tree link = Link.inputs base link := by
    intro link member
    unfold Link.inputs
    rw [separate.steady link member tree agrees]
  unfold inputs
  rw [List.flatMap_congr each]

theorem resolve_input_eq {input : HashInput}
    (member : input ∈ chain.inputs base) :
    input.resolve tree = input.resolve base := by
  obtain ⟨result, given⟩ := exists_resolved hashed member
  obtain ⟨value, denoted, _⟩ :=
    (HashInput.resolveAnew_eq_ok agrees.firstSound.formed).1 given
  refine HashInput.resolve_eq agrees (fun root listed => ?_) denoted
  unfold inputs at member
  simp only [List.cons_append, List.nil_append, List.mem_cons,
    List.mem_flatMap] at member
  rcases member with rfl | rfl | ⟨link, inChain, declared⟩
  · trivial
  · unfold HashInput.optionalFile
    cases given : chain.input with
    | none => trivial
    | some path => exact separate.input path given root listed
  · unfold Link.inputs at declared
    split at declared
    · cases declared
    · rcases List.mem_cons.1 declared with rfl | inStage
      · trivial
      · exact separate.hashed link inChain input inStage root listed

/-- The digest is taken in the same way when the chain has written. -/
theorem digestOf_eq :
    digestOf tree (chain.inputs tree) = digestOf base (chain.inputs base) := by
  unfold digestOf digestStream resolveInputs
  rw [inputs_eq separate agrees, HashInput.mapM_congr
    fun input member => resolve_input_eq separate agrees hashed member]

end Hashing

section Removing

variable {before : FileTree} {links : List Link}

def Present (tree : FileTree) (link : Link) : Prop :=
  ∃ content modified identity, tree.find link.output =
    .ok (link.output.target, .file content modified identity)

theorem Present.isFile {tree : FileTree} {link : Link}
    (present : Present tree link) : tree.isFile link.output = true := by
  obtain ⟨content, modified, identity, found⟩ := present
  rw [FileTree.isFile, found]

theorem exists?_of_node? {tree : FileTree} {path : Path}
    (nothing : tree.node? path.target = none) : tree.exists? path = false := by
  unfold FileTree.exists?
  rcases found : tree.find path with problem | ⟨location, node⟩
  · rfl
  · obtain ⟨_, stands⟩ := node?_target found
    rw [nothing] at stands
    cases stands

/-- One output after another is removed, unless it is kept. -/
def removeOutputs (links : List Link) (tree : FileTree) : FileTree :=
  links.foldl (fun tree link =>
    if link.retention = .kept then tree
    else (Cache.removeFileIfThere tree link.output).2) tree

theorem removeFileIfThere_of_present {link : Link} {tree : FileTree}
    (present : Present tree link) :
    ∃ after, (Cache.removeFileIfThere tree link.output).2 = after ∧
      Alters (fun _ => False) (· = link.output.target) tree after ∧
      after.node? link.output.target = none := by
  obtain ⟨content, modified, identity, found⟩ := present
  have removed : tree.removeFile link.output =
      .ok (tree.removeAt link.output.target) := by
    unfold FileTree.removeFile
    rw [found]
    rfl
  refine ⟨tree.removeAt link.output.target, ?_,
    alters_removeFile _ removed, ?_⟩
  · rw [Cache.removeFileIfThere, removed]
  · have below : link.output.target ≠ [] := by
      intro root
      have stands := (node?_target found).2
      rw [root, node?_nil] at stands
      cases stands
    rw [node?_removeAt]
    simp [below]

theorem Present.of_agrees {tree after : FileTree} {link : Link}
    {roots : List Location} (present : Present tree link)
    (agrees : Agrees roots tree after)
    (avoids : ∀ root ∈ roots, link.output.Avoids root) :
    Present after link := by
  obtain ⟨content, modified, identity, found⟩ := present
  exact ⟨content, modified, identity, agrees.find avoids found⟩

theorem removeOutputs_cases (sound : before.Sound)
    (outputs : links.Pairwise Beside)
    (present : ∀ link ∈ links, Present before link) :
    Alters (fun _ => False) (· ∈ outputPlaces links) before
        (removeOutputs links before) ∧
      ∀ link ∈ links,
        if link.retention = .kept then
          Present (removeOutputs links before) link
        else (removeOutputs links before).node? link.output.target = none := by
  induction links generalizing before with
  | nil => exact ⟨Alters.refl _ _ _, fun _ member => by cases member⟩
  | cons link rest inductionHypothesis =>
      obtain ⟨ahead, later⟩ := List.pairwise_cons.1 outputs
      have notLater : link.output.target ∉ outputPlaces rest := by
        intro listed
        obtain ⟨other, member, same⟩ := List.mem_map.1 listed
        exact (ahead other member).2.target (same ▸ List.prefix_rfl)
      by_cases kept : link.retention = .kept
      · have unchanged : removeOutputs (link :: rest) before =
            removeOutputs rest before := by
          unfold removeOutputs
          rw [List.foldl_cons, if_pos kept]
        obtain ⟨alters, each⟩ := inductionHypothesis sound later
          fun other member => present other (List.mem_cons_of_mem _ member)
        rw [unchanged]
        refine ⟨alters.mono (fun _ => id) fun _ =>
          List.mem_cons_of_mem _, ?_⟩
        intro other member
        rcases List.mem_cons.1 member with rfl | inside
        · rw [if_pos kept]
          have agrees : Agrees (outputPlaces rest) before
              (removeOutputs rest before) :=
            Agrees.of_alters alters sound fun location listed =>
              ⟨location, listed, List.prefix_rfl⟩
          refine (present other List.mem_cons_self).of_agrees agrees ?_
          intro root listed
          obtain ⟨third, member, rfl⟩ := List.mem_map.1 listed
          exact (ahead third member).1
        · exact each other inside
      · obtain ⟨middle, removed, step, gone⟩ := removeFileIfThere_of_present
          (present link List.mem_cons_self)
        have removing : removeOutputs (link :: rest) before =
            removeOutputs rest middle := by
          unfold removeOutputs
          rw [List.foldl_cons, if_neg kept, removed]
        have agrees : Agrees [link.output.target] before middle :=
          Agrees.of_alters step sound fun location same =>
            ⟨location, List.mem_singleton.2 same, List.prefix_rfl⟩
        obtain ⟨alters, each⟩ := inductionHypothesis agrees.secondSound later
          fun other member => by
            refine (present other (List.mem_cons_of_mem _ member)).of_agrees
              agrees fun root listed => ?_
            rw [List.mem_singleton.1 listed]
            exact (ahead other member).2
        rw [removing]
        refine ⟨?_, ?_⟩
        · refine (step.mono (fun _ => id) fun location same => ?_).trans
            (alters.mono (fun _ => id) fun _ => List.mem_cons_of_mem _)
          rw [same]
          exact List.mem_cons_self
        · intro other member
          rcases List.mem_cons.1 member with rfl | inside
          · rw [if_neg kept,
              ((alters agrees.secondSound).2 _ notLater).eq, gone]
          · exact each other inside

end Removing

/-! ## Runs that succeed -/

section Succeeding

variable {chain later : Chain} {now : Nat} {before after : Workspace}
  {output : Path} {digest : Fingerprint} {report : ChainReport}

theorem execute_eq_ok
    (ran : runFrom (chain.execute output digest) before = (.ok (), after)) :
    ∃ reached written,
      runFrom (runLinks chain.scratchRoot chain.input chain.links) before =
        (.ok (), reached) ∧
      runFrom (Cache.atomicWrite (digestPathFor output)
          (Text.encode (digest.text ++ "\n"))) reached.tree =
        (.ok (), written) ∧
      after.tree = if chain.keepIntermediates then written
        else removeOutputs chain.links.dropLast written := by
  unfold execute at ran
  obtain ⟨_, reached, linked, rest⟩ := runFrom_bind_eq_ok.1 ran
  obtain ⟨_, recorded, wrote, ended⟩ := runFrom_bind_eq_ok.1 rest
  rw [StageAction.runFrom_files] at wrote
  rcases writing : runFrom (Cache.atomicWrite (digestPathFor output)
    (Text.encode (digest.text ++ "\n"))) reached.tree with ⟨problem | _, written⟩
  · rw [writing] at wrote
    cases wrote
  · rw [writing] at wrote
    cases wrote
    refine ⟨reached, written, linked, writing, ?_⟩
    cases keeps : chain.keepIntermediates
    · rw [keeps] at ended
      cases ended
      rfl
    · rw [keeps] at ended
      cases ended
      rfl

theorem computeDigest_eq (chain : Chain) (tree : FileTree) :
    chain.computeDigest tree =
      (((digestOf tree (chain.inputs tree)).run chain.memo).1.mapError
          (.cache ∘ .input),
        { chain with
          memo := ((digestOf tree (chain.inputs tree)).run chain.memo).2 }) :=
  rfl

theorem computeDigest_remembers {tree : FileTree}
    {result : Except StageError Fingerprint} {hashing : Chain}
    (hashed : chain.computeDigest tree = (result, hashing)) :
    hashing = { chain with memo := hashing.memo } := by
  have second : (chain.computeDigest tree).2 = hashing := by
    rw [hashed]
  rw [← second, computeDigest_eq]

/-- A digest is that of the inputs, each hashed anew. -/
theorem computeDigest_eq_ok {tree : FileTree} {hashing : Chain}
    (faithful : chain.memo.Faithful tree)
    (hashed : chain.computeDigest tree = (.ok digest, hashing)) :
    (∃ bytes, streamAnew tree (chain.inputs tree) = .ok bytes ∧
        digest = Fingerprint.ofBytes bytes) ∧
      hashing.memo.Faithful tree := by
  obtain ⟨given, remembered⟩ := Computes.digestOf (chain.inputs tree)
    chain.memo faithful
  rw [computeDigest_eq, given] at hashed
  obtain ⟨result, rfl⟩ := Prod.mk.inj hashed
  refine ⟨?_, remembered⟩
  rcases stream : streamAnew tree (chain.inputs tree) with problem | bytes
  · rw [stream] at result
    cases result
  · rw [stream] at result
    exact ⟨bytes, rfl, (Except.ok.inj result).symm⟩

/-- A run that succeeds without being up to date has run everything. -/
theorem run_eq_ok
    (ran : chain.run now before = (.ok report, later, after))
    (executed : report.upToDate = false) :
    ∃ memo, chain.finalOutput = some report.output ∧
      chain.computeDigest before.tree =
        (.ok report.digest, { chain with memo }) ∧
      later = { chain with memo, lastCheck := some (now, true) } ∧
      runFrom (chain.execute report.output report.digest) before =
        (.ok (), after) := by
  unfold run at ran
  split at ran
  · cases ran
  · rename_i output final
    rcases hashed : chain.computeDigest before.tree with
      ⟨error | digest, hashing⟩
    · rw [hashed] at ran
      cases ran
    · rw [hashed] at ran
      dsimp only at ran
      have remembered := computeDigest_remembers hashed
      split at ran
      · cases ran
        cases executed
      · split at ran
        · cases ran
        · rename_i done
          cases ran
          refine ⟨hashing.memo, final, ?_, ?_, ?_⟩
          · rw [← remembered]
          · rw [remembered]
          · rw [remembered] at done
            exact done

end Succeeding

/-- The digest of all inputs of a chain, as they were in a tree and still are,
is recorded beside the output, and what the chain remembers is right. -/
structure Settled (chain : Chain) (base tree : FileTree) (output : Path)
    (bytes : Bytes) : Prop where
  final : chain.finalOutput = some output
  faithful : chain.memo.Faithful base
  hashed : streamAnew base (chain.inputs base) = .ok bytes
  unchanged : digestOf tree (chain.inputs tree) =
    digestOf base (chain.inputs base)
  present : tree.isFile output = true
  recorded : storedDigest tree output = some (Fingerprint.ofBytes bytes)
  answered : ∀ time answer, chain.lastCheck = some (time, answer) →
    answer = true

/-- What is asked of a chain. -/
inductive Request
  | run
  | check

/-- What a chain answers. -/
inductive Answer
  | ran (result : Except StageError ChainReport)
  | checked (result : Except StageError Bool)

def ask (request : Request) (now : Nat) (chain : Chain)
    (workspace : Workspace) : Answer × Chain × Workspace :=
  match request with
  | .run =>
      let (result, chain, workspace) := chain.run now workspace
      (.ran result, chain, workspace)
  | .check =>
      let (result, chain) := chain.isUpToDate workspace.tree now
      (.checked result, chain, workspace)

/-- Ask one thing after another. -/
def askAll : List (Request × Nat) → Chain → Workspace →
    List Answer × Chain × Workspace
  | [], chain, workspace => ([], chain, workspace)
  | (request, now) :: rest, chain, workspace =>
      let (answer, chain, workspace) := ask request now chain workspace
      let (answers, chain, workspace) := askAll rest chain workspace
      (answer :: answers, chain, workspace)

def idleAnswer (digest : Fingerprint) (output : Path) : Request → Answer
  | .run => .ran (.ok ⟨true, [], digest, output⟩)
  | .check => .checked (.ok true)

section Asking

variable {chain : Chain} {base : FileTree} {workspace : Workspace}
  {output : Path} {bytes : Bytes}

theorem Settled.computeDigest {tree : FileTree}
    (settled : Settled chain base tree output bytes) :
    ∃ memo, memo.Faithful base ∧
      chain.computeDigest tree =
        (.ok (Fingerprint.ofBytes bytes), { chain with memo }) := by
  obtain ⟨given, faithful⟩ := Computes.digestOf (chain.inputs base) chain.memo
    settled.faithful
  refine ⟨_, faithful, ?_⟩
  rw [computeDigest_eq, settled.unchanged, given, settled.hashed]
  rfl

/-- What a chain remembers of its inputs and of its last answer may change. -/
theorem Settled.later {tree : FileTree}
    (settled : Settled chain base tree output bytes) {memo : Memo}
    (faithful : memo.Faithful base) {lastCheck : Option (Nat × Bool)}
    (answered : ∀ time answer, lastCheck = some (time, answer) →
      answer = true) :
    Settled { chain with memo, lastCheck } base tree output bytes where
  final := settled.final
  faithful := faithful
  hashed := settled.hashed
  unchanged := settled.unchanged
  present := settled.present
  recorded := settled.recorded
  answered := answered

theorem Settled.storedDigestMatches {tree : FileTree}
    (settled : Settled chain base tree output bytes) :
    chain.storedDigestMatches tree (Fingerprint.ofBytes bytes) = true := by
  rw [Chain.storedDigestMatches, settled.final]
  dsimp only
  rw [settled.present, settled.recorded]
  simp

theorem Settled.run (settled : Settled chain base workspace.tree output bytes)
    (now : Nat) :
    ∃ later, chain.run now workspace =
        (.ok ⟨true, [], Fingerprint.ofBytes bytes, output⟩, later, workspace) ∧
      Settled later base workspace.tree output bytes := by
  obtain ⟨memo, faithful, hashed⟩ := settled.computeDigest
  have matching := settled.storedDigestMatches
  refine ⟨{ chain with memo, lastCheck := some (now, true) }, ?_,
    settled.later faithful ?_⟩
  · unfold Chain.run
    rw [settled.final]
    dsimp only
    rw [hashed]
    dsimp only
    rw [if_pos]
    exact matching
  · rintro time answer ⟨⟩
    rfl

theorem Settled.isUpToDate {tree : FileTree}
    (settled : Settled chain base tree output bytes) (now : Nat) :
    ∃ later, chain.isUpToDate tree now = (.ok true, later) ∧
      Settled later base tree output bytes := by
  unfold Chain.isUpToDate
  cases recent : chain.recentAnswer now with
  | some answer =>
      have right : answer = true := by
        unfold recentAnswer at recent
        split at recent
        · rename_i time known last
          split at recent
          · cases recent
            exact settled.answered time answer last
          · cases recent
        · cases recent
      exact ⟨chain, by rw [right], settled⟩
  | none =>
      obtain ⟨memo, faithful, hashed⟩ := settled.computeDigest
      have matching : { chain with memo }.storedDigestMatches tree
          (Fingerprint.ofBytes bytes) = true := settled.storedDigestMatches
      refine ⟨{ chain with memo, lastCheck := some (now, true) }, ?_,
        settled.later faithful ?_⟩
      · rw [hashed]
        dsimp only
        rw [matching]
      · rintro time answer ⟨⟩
        rfl

theorem Settled.ask (settled : Settled chain base workspace.tree output bytes)
    (request : Request) (now : Nat) :
    ∃ later, ask request now chain workspace =
        (idleAnswer (Fingerprint.ofBytes bytes) output request, later,
          workspace) ∧
      Settled later base workspace.tree output bytes := by
  cases request with
  | run =>
      obtain ⟨later, ran, again⟩ := settled.run now
      exact ⟨later, by rw [Chain.ask, ran]; rfl, again⟩
  | check =>
      obtain ⟨later, checked, again⟩ := settled.isUpToDate now
      exact ⟨later, by rw [Chain.ask, checked]; rfl, again⟩

theorem Settled.askAll (settled : Settled chain base workspace.tree output bytes)
    (requests : List (Request × Nat)) :
    ∃ later, askAll requests chain workspace =
        (requests.map fun request =>
          idleAnswer (Fingerprint.ofBytes bytes) output request.1,
          later, workspace) := by
  induction requests generalizing chain with
  | nil => exact ⟨chain, rfl⟩
  | cons request rest inductionHypothesis =>
      obtain ⟨next, asked, again⟩ := settled.ask request.1 request.2
      obtain ⟨later, others⟩ := inductionHypothesis again
      refine ⟨later, ?_⟩
      rw [Chain.askAll, asked]
      dsimp only
      rw [others]
      rfl

end Asking

/-! ## Runs that are not repeated -/

/-- What a chain leaves that has run all its stages. -/
structure Completed (chain : Chain) (transform : Link → Transform)
    (before after : FileTree) (report : ChainReport) : Prop where
  final : chain.finalOutput = some report.output
  /-- The final output is what the stages make of the input, one after
  another. -/
  composed : ∃ content,
    composition before transform chain.links (inputBytes before chain.input) =
        .ok (some content) ∧
      after.readBytes report.output = .ok content
  recorded : after.readBytes (digestPathFor report.output) =
    .ok (Text.encode (report.digest.text ++ "\n"))
  intermediate : ∀ link ∈ chain.links.dropLast,
    if chain.keepIntermediates = true ∨ link.retention = .kept then
      after.isFile link.output = true
    else after.exists? link.output = false

/-- The same chain, built anew. -/
def rebuilt (chain : Chain) : Chain :=
  { chain with memo := {}, lastCheck := none }

section Caching

variable {chain later : Chain} {transform : Link → Transform} {now : Nat}
  {before after : Workspace} {report : ChainReport}

theorem inputAfter_of_finalOutput {input : Option Path} {links : List Link}
    {last : Link} (ends : links.getLast? = some last) :
    inputAfter input links = some last.output := by
  obtain ⟨others, rfl⟩ := List.getLast?_eq_some_iff.1 ends
  rw [inputAfter, List.foldl_append]
  rfl

theorem removed_cases {tree final : FileTree} (sound : tree.Sound)
    (outputs : chain.links.Pairwise Beside)
    (present : ∀ link ∈ chain.links, Present tree link)
    (ended : final = if chain.keepIntermediates then tree
      else removeOutputs chain.links.dropLast tree) :
    Agrees (outputPlaces chain.links.dropLast) tree final ∧
      ∀ link ∈ chain.links.dropLast,
        if chain.keepIntermediates = true ∨ link.retention = .kept then
          final.isFile link.output = true
        else final.exists? link.output = false := by
  have intermediate : ∀ link ∈ chain.links.dropLast, Present tree link :=
    fun link member => present link (List.dropLast_subset _ member)
  cases keeps : chain.keepIntermediates with
  | true =>
      rw [keeps, if_pos rfl] at ended
      rw [ended]
      refine ⟨Agrees.refl sound, fun link member => ?_⟩
      rw [if_pos (Or.inl rfl)]
      exact (intermediate link member).isFile
  | false =>
      rw [keeps, if_neg Bool.false_ne_true] at ended
      obtain ⟨alters, each⟩ := removeOutputs_cases sound
        (outputs.sublist (List.dropLast_sublist _)) intermediate
      rw [ended]
      refine ⟨Agrees.of_alters alters sound fun location listed =>
        ⟨location, listed, List.prefix_rfl⟩, fun link member => ?_⟩
      have outcome := each link member
      by_cases kept : link.retention = .kept
      · rw [if_pos kept] at outcome
        rw [if_pos (Or.inr kept)]
        exact outcome.isFile
      · rw [if_neg kept] at outcome
        rw [if_neg (by simp [kept])]
        exact exists?_of_node? outcome

theorem readBytes_of_find {tree : FileTree} {path : Path}
    {location : Location} {content : Bytes} {modified identity : Nat}
    (found : tree.find path =
      .ok (location, .file content modified identity)) :
    tree.readBytes path = .ok content := by
  rw [FileTree.readBytes, found]
  rfl

theorem isFile_of_readBytes {tree : FileTree} {path : Path} {content : Bytes}
    (read : tree.readBytes path = .ok content) : tree.isFile path = true := by
  obtain ⟨⟨location, node⟩, found, result⟩ := bind_eq_ok.1 read
  rw [FileTree.isFile, found]
  cases node with
  | directory => cases result
  | file _ _ _ => rfl

/-- What the stages have made stands when the digest is recorded. -/
theorem runLinks_recorded {reached : Workspace} {written : FileTree}
    {output : Path} {record : Bytes} (separate : Separate chain before.tree)
    (performs : ∀ link ∈ chain.links, Performs link (transform link))
    (sound : before.tree.Sound)
    (resolved : ∀ link ∈ chain.links,
      ∃ contents, linkContents before.tree link = .ok contents)
    (readable : Readable before.tree chain.scratchRoot chain.links chain.input)
    (final : chain.finalOutput = some output)
    (linked : runFrom (runLinks chain.scratchRoot chain.input chain.links)
      before = (.ok (), reached))
    (wrote : runFrom (Cache.atomicWrite (digestPathFor output) record)
      reached.tree = (.ok (), written)) :
    Agrees (footprint chain) before.tree written ∧
      (∀ link ∈ chain.links, Present written link) ∧
      (∃ content,
        composition before.tree transform chain.links
            (inputBytes before.tree chain.input) = .ok (some content) ∧
          written.readBytes output = .ok content) ∧
      written.readBytes (digestPathFor output) = .ok record := by
  obtain ⟨linkAgrees, found, composed⟩ := runLinks_composed separate performs
    resolved (fun _ => id) separate.apart separate.outputs
    (Agrees.refl sound) readable linked
  have kept : chain.digestPath = some (digestPathFor output) := by
    rw [digestPath, final]
    rfl
  obtain ⟨⟨_, impossible⟩, _⟩ | ⟨_, alters, modified, identity, recordFound⟩ :=
    Cache.atomicWrite_cases linkAgrees.secondSound wrote
  · cases impossible
  have recordAgrees : Agrees [(digestPathFor output).target] reached.tree
      written :=
    Agrees.of_alters alters linkAgrees.secondSound fun location same =>
      ⟨location, List.mem_singleton.2 same, List.prefix_rfl⟩
  have avoidsDigest : ∀ link ∈ chain.links,
      ∀ root ∈ [(digestPathFor output).target], link.output.Avoids root := by
    intro link listed root inside
    rw [List.mem_singleton.1 inside]
    exact (separate.digest _ kept link listed).2
  obtain ⟨last, ends, rfl⟩ := Option.map_eq_some_iff.1 final
  have member : last ∈ chain.links := List.mem_of_getLast? ends
  obtain ⟨content, outputModified, outputIdentity, there⟩ := found last member
  have read := readBytes_of_find there
  have made : inputBytes reached.tree (inputAfter chain.input chain.links) =
      some content := by
    rw [inputAfter_of_finalOutput ends, inputBytes, Option.bind_some, read]
    rfl
  refine ⟨(linkAgrees.mono ?_).trans (recordAgrees.mono ?_), ?_,
    ⟨content, by rw [composed, made],
      recordAgrees.readBytes (avoidsDigest last member) read⟩,
    readBytes_of_find recordFound⟩
  · refine List.append_subset.2 ⟨List.subset_append_right _ _, ?_⟩
    rw [footprint, List.append_assoc]
    exact List.subset_append_left _ _
  · refine List.cons_subset.2 ⟨digest_mem_footprint kept, ?_⟩
    exact List.nil_subset _
  · intro link listed
    obtain ⟨content, modified, identity, there⟩ := found link listed
    exact ⟨content, modified, identity,
      recordAgrees.find (avoidsDigest link listed) there⟩

/-- The final output and the digest stand when the others are removed. -/
theorem execute_completed (separate : Separate chain before.tree)
    (performs : ∀ link ∈ chain.links, Performs link (transform link))
    (sound : before.tree.Sound)
    (resolved : ∀ link ∈ chain.links,
      ∃ contents, linkContents before.tree link = .ok contents)
    (readable : Readable before.tree chain.scratchRoot chain.links chain.input)
    (final : chain.finalOutput = some report.output)
    (ran : runFrom (chain.execute report.output report.digest) before =
      (.ok (), after)) :
    Completed chain transform before.tree after.tree report ∧
      Agrees (footprint chain) before.tree after.tree := by
  obtain ⟨reached, written, linked, wrote, ended⟩ := execute_eq_ok ran
  obtain ⟨writtenAgrees, present, ⟨content, composed, read⟩, recorded⟩ :=
    runLinks_recorded separate performs sound resolved readable final linked
      wrote
  obtain ⟨removeAgrees, intermediate⟩ := removed_cases
    writtenAgrees.secondSound separate.outputs present ended
  have kept : chain.digestPath = some (digestPathFor report.output) := by
    rw [digestPath, final]
    rfl
  have avoidsIntermediate : ∀ root ∈ outputPlaces chain.links.dropLast,
      report.output.Avoids root ∧
        (digestPathFor report.output).Avoids root := by
    intro root listed
    obtain ⟨last, ends, named⟩ := Option.map_eq_some_iff.1 final
    obtain ⟨other, inside, rfl⟩ := List.mem_map.1 listed
    refine ⟨?_, (separate.digest _ kept other
      (List.dropLast_subset _ inside)).1⟩
    have split := separate.outputs
    rw [← List.dropLast_append_getLast? last ends, List.pairwise_append] at split
    rw [← named]
    exact (split.2.2 other inside last (List.mem_singleton_self _)).2
  refine ⟨⟨final, ⟨content, composed, ?_⟩, ?_, intermediate⟩,
    writtenAgrees.trans (removeAgrees.mono ?_)⟩
  · exact removeAgrees.readBytes (fun root listed =>
      (avoidsIntermediate root listed).1) read
  · exact removeAgrees.readBytes (fun root listed =>
      (avoidsIntermediate root listed).2) recorded
  · intro root listed
    obtain ⟨other, inside, rfl⟩ := List.mem_map.1 listed
    exact output_mem_footprint (List.dropLast_subset _ inside)

theorem readable_input (separate : Separate chain before.tree) {bytes : Bytes}
    (hashed : streamAnew before.tree (chain.inputs before.tree) = .ok bytes) :
    Readable before.tree chain.scratchRoot chain.links chain.input := by
  intro path given
  refine ⟨?_, fun link member => separate.input path given _
    (scratch_mem_footprint member)⟩
  have member : HashInput.file path ∈ chain.inputs before.tree := by
    rw [inputs, given]
    exact List.mem_append_left _ (List.mem_cons_of_mem _ List.mem_cons_self)
  obtain ⟨value, resolved⟩ := exists_resolved hashed member
  obtain ⟨hash, hashing, _⟩ := bind_eq_ok.1 resolved
  obtain ⟨content, read, _⟩ := hashAt_eq_ok.1 hashing
  exact ⟨content, read⟩

/-- A chain that has run all its stages is up to date as long as nothing
changes, and so is the same chain built anew. -/
theorem run_caches (sound : before.tree.Sound)
    (separate : Separate chain before.tree)
    (performs : ∀ link ∈ chain.links, Performs link (transform link))
    (faithful : chain.memo.Faithful before.tree)
    (ran : chain.run now before = (.ok report, later, after))
    (executed : report.upToDate = false) :
    Completed chain transform before.tree after.tree report ∧
      ∀ start, start = later ∨ start = chain.rebuilt →
        ∀ debounce requests, ∃ last,
          askAll requests { start with debounce } after =
            (requests.map fun request =>
              idleAnswer report.digest report.output request.1,
              last, after) := by
  obtain ⟨memo, final, hashed, rfl, done⟩ := run_eq_ok ran executed
  obtain ⟨⟨bytes, stream, digest⟩, remembered⟩ :=
    computeDigest_eq_ok faithful hashed
  obtain ⟨completed, agrees⟩ := execute_completed separate performs sound
    (fun _ => exists_linkContents stream separate.unhashed)
    (readable_input separate stream) final done
  refine ⟨completed, fun start begins debounce requests => ?_⟩
  have unchanged := digestOf_eq separate agrees stream
  have settled : ∀ memo' lastCheck, memo'.Faithful before.tree →
      (∀ time answer, lastCheck = some (time, answer) → answer = true) →
      Settled { chain with memo := memo', lastCheck, debounce } before.tree
        after.tree report.output bytes := by
    intro memo' lastCheck right answered
    obtain ⟨content, _, read⟩ := completed.composed
    refine ⟨final, right, stream, unchanged, isFile_of_readBytes read, ?_,
      answered⟩
    refine storedDigest_recorded ?_
    rw [← digest]
    exact completed.recorded
  rw [digest]
  rcases begins with rfl | rfl
  · refine (settled memo (some (now, true)) remembered ?_).askAll requests
    rintro time answer ⟨⟩
    rfl
  · exact (settled {} none (Memo.faithful_empty _)
      fun _ _ impossible => by cases impossible).askAll requests

end Caching

/-! ## A chain of two stages -/

/-- An archive without entries, a directory with a source, and a patch for it. -/
def patchingTree : FileTree where
  nodes :=
    [(["in.jar"], .file ([80, 75, 5, 6] ++ List.replicate 18 0) 0 0),
      (["d"], .directory),
      (["d", "A.java"], .file (Text.encode "case 1:\n\nf();\n") 1 1),
      (["p.patch"], .file (Text.encode
        "--- A.java\n+++ A.java\n@@ -1,3 +1,3 @@\n case 1:\n \n-f();\n+g();\n")
        2 2)]
  clock := 3

def patchingSettings : PatchSettings where
  bundles := [⟨"p.patch"⟩]
  injections := [⟨"d"⟩]
  strip := 0

/-- The source is put into the archive and patched, and then cleaned up. -/
def patchingChain : Chain where
  input := some ⟨"in.jar"⟩
  links :=
    [{ stage := Patching.stage patchingSettings, output := ⟨"out/patched"⟩ },
      { stage := Cleanup.stage {}, output := ⟨"out/cleaned"⟩ }]
  scratchRoot := ⟨"tmp"⟩

def patchingTransform (link : Link) : Transform :=
  let make :=
    if link.stage.name = "patch" then Patching.patchedFrom patchingSettings
    else Cleanup.cleanedFrom {}
  reworked make (.missingOutput link.stage.name link.output)

private theorem patchingChain_held {link : Link}
    (member : link ∈ patchingChain.links) :
    ∃ contents, linkContents patchingTree link = .ok contents := by
  have held : ∀ link ∈ patchingChain.links,
      (linkContents patchingTree link).toOption.isSome = true := by
    decide +kernel
  have here := held link member
  rcases given : linkContents patchingTree link with problem | contents
  · rw [given] at here
    cases here
  · exact ⟨contents, rfl⟩

private theorem patchingChain_separate :
    Separate patchingChain patchingTree := by
  have hashed : ∀ link ∈ patchingChain.links,
      ∀ input ∈ link.stage.inputs patchingTree,
      ∀ root ∈ footprint patchingChain, input.Avoids root := by
    decide +kernel
  refine ⟨?_, by decide, by decide, ?_, ?_, hashed, ?_, ?_⟩
  · intro link member
    simp only [patchingChain, List.mem_cons, List.not_mem_nil, or_false]
      at member
    rcases member with rfl | rfl
    · exact Patching.stage_confined _
    · exact Cleanup.stage_confined _
  · rintro path ⟨⟩
    decide +kernel
  · rintro path ⟨⟩
    decide +kernel
  · intro link member later agrees
    obtain ⟨contents, holds⟩ := patchingChain_held member
    have away := hashed link member
    simp only [patchingChain, List.mem_cons, List.not_mem_nil, or_false]
      at member
    rcases member with rfl | rfl
    · exact Patching.inputs_eq agrees away holds
    · rfl
  · exact fun link member _ => patchingChain_held member

private theorem patchingChain_performs :
    ∀ link ∈ patchingChain.links, Performs link (patchingTransform link) := by
  intro link member
  simp only [patchingChain, List.mem_cons, List.not_mem_nil, or_false] at member
  rcases member with rfl | rfl
  · exact Patching.stage_performs rfl _
  · exact Cleanup.stage_performs rfl _

/-- Both stages have been run on the input, the first output is gone, and the
chain, built anew, has nothing to do. -/
theorem run_caches_sample :
    ∃ report later after,
      patchingChain.run 0 ⟨patchingTree, []⟩ = (.ok report, later, after) ∧
      after.tree.readBytes ⟨"out/cleaned"⟩ =
        .ok (Archive.writeZip [("A.java", Text.encode "case 1:\ng();\n")]) ∧
      after.tree.exists? ⟨"out/patched"⟩ = false ∧
      ∃ last, askAll [(.run, 1), (.check, 2)] patchingChain.rebuilt after =
        ([.ran (.ok ⟨true, [], report.digest, ⟨"out/cleaned"⟩⟩),
          .checked (.ok true)], last, after) := by
  have succeeds : ((patchingChain.run 0 ⟨patchingTree, []⟩).1.map
      ChainReport.upToDate).toOption = some false := by
    decide +kernel
  have result : (composition patchingTree patchingTransform
      patchingChain.links (inputBytes patchingTree patchingChain.input)
      ).toOption = some (some
        (Archive.writeZip [("A.java", Text.encode "case 1:\ng();\n")])) := by
    decide +kernel
  rcases ran : patchingChain.run 0 ⟨patchingTree, []⟩ with
    ⟨error | report, later, after⟩
  · rw [ran] at succeeds
    cases succeeds
  · rw [ran] at succeeds
    obtain ⟨completed, asking⟩ := run_caches (by decide)
      patchingChain_separate patchingChain_performs (Memo.faithful_empty _) ran
      (Option.some.inj succeeds)
    obtain ⟨content, composed, read⟩ := completed.composed
    have named : report.output = ⟨"out/cleaned"⟩ :=
      (Option.some.inj completed.final).symm
    have same : some content = some (Archive.writeZip
        [("A.java", Text.encode "case 1:\ng();\n")]) := by
      rw [composed] at result
      exact Option.some.inj result
    rw [named] at read asking
    refine ⟨report, later, after, rfl, ?_, ?_, ?_⟩
    · rw [read, Option.some.inj same]
    · exact completed.intermediate _ List.mem_cons_self
    · exact asking _ (Or.inr rfl) patchingChain.debounce
        [(.run, 1), (.check, 2)]

end Deobfuscate.Chain
