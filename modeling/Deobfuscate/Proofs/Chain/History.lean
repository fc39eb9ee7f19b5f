import Deobfuscate.Proofs.Chain.Caching

/-!
# Histories of runs

A run takes one step after another: it takes the digest of the inputs, publishes
the outputs of the links, records the digest and removes intermediate outputs.
In a history, the steps of several runs follow one another in any order, runs
are stopped between steps, and files are edited.

The final output and the digest are two files.  A recorded digest is right as
long as every run that publishes the final output goes on undisturbed until it
has recorded its own digest, and need not be right otherwise.
-/

namespace Deobfuscate.Chain

open FileTree

/-- How far a run has come. -/
inductive Phase
  /-- Some links are left, the first of which is run on an input. -/
  | linking (digest : Fingerprint) (input : Option Path) (left : List Link)
  /-- The digest is recorded, and some outputs are left to be removed. -/
  | removing (left : List Link)

/-- Whether a run has recorded its digest. -/
def Phase.isRemoving : Phase → Bool
  | .linking _ _ _ => false
  | .removing _ => true

/-- The files, and how far the run of every process has come. -/
structure Scene where
  workspace : Workspace
  phases : Nat → Option Phase

inductive Event
  /-- Someone edits files. -/
  | edit (change : FileTree → FileTree)
  /-- A process begins a run, with what it remembers of files. -/
  | start (process : Nat) (memo : Memo)
  /-- A process takes the next step of its run. -/
  | proceed (process : Nat)
  /-- A process is interrupted. -/
  | stop (process : Nat)

/-- What a process does that has found out whether the chain is up to date. -/
def firstPhase (chain : Chain) (tree : FileTree) : Option Phase :=
  match chain.finalOutput, (chain.computeDigest tree).1 with
  | some _, .ok digest =>
      if chain.storedDigestMatches tree digest then none
      else some (.linking digest chain.input chain.links)
  | _, _ => none

def afterLink (digest : Fingerprint) (output : Path) (rest : List Link) :
    Except StageError Unit → Option Phase
  | .ok _ => some (.linking digest (some output) rest)
  | .error _ => none

def afterRecord (chain : Chain) : Except CacheError Unit → Option Phase
  | .ok _ =>
      some (.removing
        (if chain.keepIntermediates then [] else chain.links.dropLast))
  | .error _ => none

def recordDigest (output : Path) (digest : Fingerprint) :
    FileAction CacheError Unit :=
  Cache.atomicWrite (digestPathFor output)
    (Text.encode (digest.text ++ "\n"))

/-- Take the next step of a run, which may be its last one. -/
def advance (chain : Chain) (workspace : Workspace) :
    Phase → Option Phase × Workspace
  | .linking digest input (link :: rest) =>
      let ran := runFrom (runLink chain.scratchRoot link input) workspace
      (afterLink digest link.output rest ran.1, ran.2)
  | .linking digest _ [] =>
      match chain.finalOutput with
      | none => (none, workspace)
      | some output =>
          let wrote := runFrom (recordDigest output digest) workspace.tree
          (afterRecord chain wrote.1, { workspace with tree := wrote.2 })
  | .removing (link :: rest) =>
      (some (.removing rest),
        { workspace with tree := removeOutputs [link] workspace.tree })
  | .removing [] => (none, workspace)

theorem afterLink_eq_some {digest : Fingerprint} {output : Path}
    {rest : List Link} {result : Except StageError Unit} {next : Phase}
    (goesOn : afterLink digest output rest result = some next) :
    result = .ok () ∧ next = .linking digest (some output) rest := by
  cases result with
  | error error => cases goesOn
  | ok _ => exact ⟨rfl, (Option.some.inj goesOn).symm⟩

theorem afterRecord_eq_some {chain : Chain} {result : Except CacheError Unit}
    {next : Phase} (goesOn : afterRecord chain result = some next) :
    result = .ok () ∧ next = .removing
      (if chain.keepIntermediates then [] else chain.links.dropLast) := by
  cases result with
  | error error => cases goesOn
  | ok _ => exact ⟨rfl, (Option.some.inj goesOn).symm⟩

theorem advance_record {chain : Chain} {output : Path}
    (final : chain.finalOutput = some output) (workspace : Workspace)
    (digest : Fingerprint) (input : Option Path) :
    advance chain workspace (.linking digest input []) =
      (afterRecord chain
          (runFrom (recordDigest output digest) workspace.tree).1,
        { workspace with
          tree := (runFrom (recordDigest output digest) workspace.tree).2 }) := by
  rw [advance, final]

def Scene.put (scene : Scene) (process : Nat)
    (next : Option Phase × Workspace) : Scene where
  workspace := next.2
  phases := Function.update scene.phases process next.1

def step (chain : Chain) (scene : Scene) : Event → Scene
  | .edit change =>
      { scene with workspace :=
        { scene.workspace with tree := change scene.workspace.tree } }
  | .start process memo =>
      scene.put process
        (firstPhase { chain with memo } scene.workspace.tree, scene.workspace)
  | .proceed process =>
      match scene.phases process with
      | none => scene
      | some phase => scene.put process (advance chain scene.workspace phase)
  | .stop process => scene.put process (none, scene.workspace)

def play (chain : Chain) (scene : Scene) (history : List Event) : Scene :=
  history.foldl (step chain) scene

theorem play_cons (chain : Chain) (scene : Scene) (event : Event)
    (rest : List Event) :
    play chain scene (event :: rest) =
      play chain (step chain scene event) rest :=
  rfl

theorem play_append (chain : Chain) (scene : Scene)
    (first second : List Event) :
    play chain scene (first ++ second) =
      play chain (play chain scene first) second :=
  List.foldl_append

section Undisturbed

variable {chain : Chain} {scene : Scene} {process : Nat} {memo : Memo}

@[simp]
theorem Scene.put_phases (next : Option Phase × Workspace) :
    (scene.put process next).phases process = next.1 :=
  Function.update_self ..

@[simp]
theorem Scene.put_put (first second : Option Phase × Workspace) :
    (scene.put process first).put process second =
      scene.put process second := by
  unfold Scene.put
  rw [Function.update_idem]

theorem step_proceed {phase : Phase} {workspace : Workspace} :
    step chain (scene.put process (some phase, workspace)) (.proceed process) =
      scene.put process (advance chain workspace phase) := by
  unfold step
  simp only [Scene.put_phases]
  exact Scene.put_put _ _

/-- A run that has ended takes no steps. -/
theorem play_ended (count : Nat) (workspace : Workspace) :
    play chain (scene.put process (none, workspace))
        (List.replicate count (.proceed process)) =
      scene.put process (none, workspace) := by
  induction count with
  | zero => rfl
  | succ count inductionHypothesis =>
      rw [List.replicate_succ, play_cons]
      have idle : step chain (scene.put process (none, workspace))
          (.proceed process) = scene.put process (none, workspace) := by
        unfold step
        simp only [Scene.put_phases]
      rw [idle, inductionHypothesis]

/-- The steps of the links are those of running all of them. -/
theorem play_links (digest : Fingerprint) (input : Option Path)
    (links : List Link) (workspace : Workspace) :
    play chain (scene.put process (some (.linking digest input links), workspace))
        (List.replicate links.length (.proceed process)) =
      match runFrom (runLinks chain.scratchRoot input links) workspace with
      | (.ok _, reached) =>
          scene.put process
            (some (.linking digest (inputAfter input links) []), reached)
      | (.error _, reached) => scene.put process (none, reached) := by
  induction links generalizing input workspace with
  | nil => rfl
  | cons link rest inductionHypothesis =>
      rw [List.length_cons, List.replicate_succ, play_cons, step_proceed,
        advance, runLinks, runFrom_bind]
      rcases runFrom (runLink chain.scratchRoot link input) workspace with
        ⟨error | _, later⟩
      · exact play_ended _ _
      · exact inductionHypothesis _ _

theorem play_removing (links : List Link) (workspace : Workspace)
    (more : Nat) :
    play chain (scene.put process (some (.removing links), workspace))
        (List.replicate (links.length + 1 + more) (.proceed process)) =
      scene.put process
        (none, { workspace with tree := removeOutputs links workspace.tree }) := by
  induction links generalizing workspace with
  | nil =>
      rw [List.length_nil, Nat.zero_add, Nat.add_comm, List.replicate_succ,
        play_cons, step_proceed]
      exact play_ended _ _
  | cons link rest inductionHypothesis =>
      have count : (link :: rest).length + 1 + more =
          rest.length + 1 + more + 1 := by
        rw [List.length_cons]
        omega
      rw [count, List.replicate_succ, play_cons, step_proceed]
      exact inductionHypothesis _

theorem runFrom_execute (chain : Chain) (output : Path) (digest : Fingerprint)
    (workspace : Workspace) :
    (runFrom (chain.execute output digest) workspace).2 =
      match runFrom (runLinks chain.scratchRoot chain.input chain.links)
        workspace with
      | (.error _, reached) => reached
      | (.ok _, reached) =>
          match runFrom (recordDigest output digest) reached.tree with
          | (.error _, tree) => { reached with tree }
          | (.ok _, tree) =>
              { reached with tree := if chain.keepIntermediates then tree
                else removeOutputs chain.links.dropLast tree } := by
  rw [execute, runFrom_bind]
  rcases runFrom (runLinks chain.scratchRoot chain.input chain.links)
    workspace with ⟨error | _, reached⟩
  · rfl
  · dsimp only
    rw [runFrom_bind, StageAction.runFrom_files]
    change _ = match runFrom (Cache.atomicWrite _ _) reached.tree with
      | (.error _, tree) => _
      | (.ok _, tree) => _
    rcases runFrom (Cache.atomicWrite (digestPathFor output)
      (Text.encode (digest.text ++ "\n"))) reached.tree with
      ⟨error | _, tree⟩
    · rfl
    · cases chain.keepIntermediates <;> rfl

theorem run_workspace (chain : Chain) (now : Nat) (workspace : Workspace) :
    (chain.run now workspace).2.2 =
      match chain.finalOutput, (chain.computeDigest workspace.tree).1 with
      | some output, .ok digest =>
          if chain.storedDigestMatches workspace.tree digest then workspace
          else (runFrom (chain.execute output digest) workspace).2
      | _, _ => workspace := by
  unfold run
  cases chain.finalOutput with
  | none => rfl
  | some output =>
      rcases hashed : chain.computeDigest workspace.tree with
        ⟨error | digest, hashing⟩
      · rfl
      · have sameMatches : hashing.storedDigestMatches workspace.tree digest =
            chain.storedDigestMatches workspace.tree digest := by
          rw [computeDigest_remembers hashed]
          rfl
        have sameExecute : (hashing.execute output digest).perform workspace =
            runFrom (chain.execute output digest) workspace := by
          rw [computeDigest_remembers hashed]
          rfl
        dsimp only
        rw [sameMatches, sameExecute]
        by_cases matching : chain.storedDigestMatches workspace.tree digest
        · rw [if_pos matching, if_pos matching]
        · rw [if_neg matching, if_neg matching]
          rcases runFrom (chain.execute output digest) workspace with
            ⟨error | _, after⟩ <;> rfl

theorem play_record (digest : Fingerprint) (input : Option Path)
    (workspace : Workspace) {output : Path}
    (final : chain.finalOutput = some output) :
    (play chain (scene.put process (some (.linking digest input []), workspace))
        (List.replicate (1 + chain.links.length) (.proceed process))).workspace =
      match runFrom (recordDigest output digest) workspace.tree with
      | (.error _, tree) => { workspace with tree }
      | (.ok _, tree) =>
          { workspace with tree := if chain.keepIntermediates then tree
            else removeOutputs chain.links.dropLast tree } := by
  have nonempty : 0 < chain.links.length := by
    obtain ⟨last, ends, _⟩ := Option.map_eq_some_iff.1 final
    exact List.length_pos_of_mem (List.mem_of_getLast? ends)
  rw [Nat.add_comm, List.replicate_succ, play_cons, step_proceed, advance, final]
  dsimp only
  rcases runFrom (recordDigest output digest) workspace.tree with ⟨error | _, tree⟩
  · dsimp only [afterRecord]
    rw [play_ended]
    rfl
  · dsimp only [afterRecord]
    cases chain.keepIntermediates with
    | true =>
        have count : chain.links.length =
            ([] : List Link).length + 1 + (chain.links.length - 1) := by
          rw [List.length_nil]
          omega
        rw [count, if_pos rfl, play_removing]
        rfl
    | false =>
        have count : chain.links.length =
            chain.links.dropLast.length + 1 + 0 := by
          rw [List.length_dropLast]
          omega
        rw [count, if_neg Bool.false_ne_true, play_removing]
        rfl

/-- The steps of a run that nothing disturbs are those of running the chain. -/
theorem play_eq_run (now : Nat) :
    (play chain scene (.start process chain.memo :: List.replicate
        (chain.links.length + (1 + chain.links.length))
        (.proceed process))).workspace =
      (chain.run now scene.workspace).2.2 := by
  rw [play_cons, step, firstPhase, run_workspace]
  cases final : chain.finalOutput with
  | none =>
      dsimp only
      rw [play_ended]
      rfl
  | some output =>
      cases (chain.computeDigest scene.workspace.tree).1 with
      | error error =>
          dsimp only
          rw [play_ended]
          rfl
      | ok digest =>
          dsimp only
          by_cases matching :
              chain.storedDigestMatches scene.workspace.tree digest
          · rw [if_pos matching, if_pos matching, play_ended]
            rfl
          · rw [if_neg matching, if_neg matching, List.replicate_add,
              play_append, play_links, runFrom_execute]
            rcases runFrom (runLinks chain.scratchRoot chain.input chain.links)
              scene.workspace with ⟨error | _, reached⟩
            · dsimp only
              rw [play_ended]
              rfl
            · exact play_record _ _ _ final

/-- The events of a run that nothing disturbs until it has recorded its
digest. -/
def undisturbed (chain : Chain) (process : Nat) (memo : Memo) : List Event :=
  .start process memo ::
    (List.replicate chain.links.length (.proceed process) ++ [.proceed process])

theorem firstPhase_eq_some {tree : FileTree} {phase : Phase}
    (begun : firstPhase chain tree = some phase) :
    ∃ output digest, chain.finalOutput = some output ∧
      (chain.computeDigest tree).1 = .ok digest ∧
      phase = .linking digest chain.input chain.links := by
  unfold firstPhase at begun
  split at begun
  · rename_i output digest final hashed
    split at begun
    · cases begun
    · exact ⟨output, digest, final, hashed, (Option.some.inj begun).symm⟩
  · cases begun

/-- A run that has recorded its digest has run all links and replaced the file
of the digest. -/
theorem undisturbed_recorded {left : List Link}
    (recorded : (play chain scene (undisturbed chain process memo)).phases
      process = some (.removing left)) :
    ∃ output digest reached written,
      chain.finalOutput = some output ∧
      ({ chain with memo }.computeDigest scene.workspace.tree).1 =
        .ok digest ∧
      runFrom (runLinks chain.scratchRoot chain.input chain.links)
        scene.workspace = (.ok (), reached) ∧
      runFrom (recordDigest output digest) reached.tree =
          (.ok (), written) ∧
      (play chain scene
        (undisturbed chain process memo)).workspace.tree = written := by
  have idle : ∀ workspace, ¬(play chain (scene.put process (none, workspace))
      [.proceed process]).phases process = some (.removing left) := by
    intro workspace ended
    rw [show [Event.proceed process] = List.replicate 1 (.proceed process)
      from rfl, play_ended] at ended
    simp at ended
  rw [undisturbed, play_cons, play_append, step] at recorded ⊢
  rcases begun : firstPhase { chain with memo } scene.workspace.tree with
    _ | phase
  · rw [begun, play_ended] at recorded
    exact absurd recorded (idle _)
  · obtain ⟨output, digest, final, hashed, rfl⟩ := firstPhase_eq_some begun
    rw [begun] at recorded
    dsimp only at recorded ⊢
    rw [play_links] at recorded ⊢
    rcases linked : runFrom (runLinks chain.scratchRoot chain.input
      chain.links) scene.workspace with ⟨error | _, reached⟩
    · rw [linked] at recorded
      exact absurd recorded (idle _)
    · rw [linked] at recorded
      dsimp only at recorded ⊢
      rw [play, List.foldl_cons, List.foldl_nil, step_proceed, advance,
        show chain.finalOutput = some output from final] at recorded ⊢
      dsimp only at recorded ⊢
      rcases wrote : runFrom (recordDigest output digest) reached.tree with
        ⟨error | _, written⟩
      · rw [wrote] at recorded
        simp [afterRecord] at recorded
      · exact ⟨output, digest, reached, written, rfl, hashed, rfl, wrote, rfl⟩

end Undisturbed

/-! ## Runs in progress -/

section Progress

variable {chain : Chain} {workspace : Workspace} {phase : Phase}

def InProgress (chain : Chain) : Phase → Prop
  | .linking _ _ left => left <:+ chain.links
  | .removing left => left <:+ chain.links.dropLast

/-- All runs of a scene are runs of the chain. -/
structure Underway (chain : Chain) (scene : Scene) : Prop where
  sound : scene.workspace.tree.Sound
  phases : ∀ process phase, scene.phases process = some phase →
    InProgress chain phase

/-- A step neither publishes the final output nor records a digest. -/
def Withholds (chain : Chain) (workspace : Workspace) (phase : Phase) : Prop :=
  ∀ digest input left, phase = .linking digest input left →
    left.length ≤ 1 → (advance chain workspace phase).1 = none

theorem ReplacesOnly.of_alters {made : Location → Prop} {place : Location}
    {scratches : List Location} {first second : FileTree}
    (alters : Alters made (· = place) first second) :
    ReplacesOnly made scratches [place] first second where
  alters := alters.mono (fun _ => id) fun _ same =>
    Or.inr (List.mem_singleton.2 same)
  contents := fun sound location _ other =>
    ((alters sound).2 location fun same =>
      other (List.mem_singleton.2 same)).contentAt_eq

theorem alters_removeOutputs (made : Location → Prop) (link : Link)
    (tree : FileTree) :
    Alters made (· = link.output.target) tree (removeOutputs [link] tree) := by
  unfold removeOutputs Cache.removeFileIfThere
  rw [List.foldl_cons, List.foldl_nil]
  split
  · exact Alters.refl _ _ _
  · rcases removed : tree.removeFile link.output with problem | changed
    · cases problem <;> exact Alters.refl _ _ _
    · exact alters_removeFile made removed

theorem mem_dropLast_of_suffix {link : Link} {rest links : List Link}
    (suffix : link :: rest <:+ links) (more : rest ≠ []) :
    link ∈ links.dropLast := by
  obtain ⟨front, rfl⟩ := suffix
  rw [List.dropLast_append_of_ne_nil (List.cons_ne_nil _ _),
    List.dropLast_cons_of_ne_nil more]
  simp

/-- A step touches scratch directories and replaces one file at most; unless it
publishes the final output or records a digest, that is the output of another
link. -/
theorem advance_replacesOnly (apart : Apart chain.scratchRoot chain.links)
    (sound : workspace.tree.Sound) (inProgress : InProgress chain phase) :
    ∃ replaced, ReplacesOnly (fun _ => True)
        (scratchPlaces chain.scratchRoot chain.links) replaced workspace.tree
        (advance chain workspace phase).2.tree ∧
      (Withholds chain workspace phase →
        replaced ⊆ outputPlaces chain.links.dropLast) := by
  cases phase with
  | linking digest input left =>
      cases left with
      | nil =>
          cases final : chain.finalOutput with
          | none =>
              rw [advance, final]
              exact ⟨[], .of_extends (Alters.refl _ _ _), by simp⟩
          | some output =>
              have step := advance_record final workspace digest input
              rcases wrote : runFrom (recordDigest output digest)
                workspace.tree with ⟨result, written⟩
              rw [wrote] at step
              rcases Cache.atomicWrite_cases sound wrote with
                ⟨_, extended⟩ | ⟨rfl, alters, _⟩
              · rw [step]
                refine ⟨[], ReplacesOnly.of_extends ?_, by simp⟩
                exact extended.mono (fun _ _ => trivial) fun _ => id
              · refine ⟨[(digestPathFor output).target], ?_, ?_⟩
                · rw [step]
                  exact ReplacesOnly.of_alters
                    (alters.mono (fun _ _ => trivial) fun _ => id)
                · intro withholds
                  have ended := withholds digest input [] rfl (Nat.zero_le 1)
                  rw [step] at ended
                  cases ended
      | cons link rest =>
          have member : link ∈ chain.links :=
            inProgress.subset List.mem_cons_self
          have scratch : [(scratchOf chain.scratchRoot link).target] ⊆
              scratchPlaces chain.scratchRoot chain.links := by
            refine List.cons_subset.2 ⟨?_, List.nil_subset _⟩
            exact List.mem_map.2 ⟨link, member, rfl⟩
          rcases ran : runFrom (runLink chain.scratchRoot link input)
            workspace with ⟨result, later⟩
          have after : (advance chain workspace
              (.linking digest input (link :: rest))).2 = later := by
            simp only [advance, ran]
          rw [after]
          rcases runLink_cases (apart.confined link member)
            (apart.outside link member link member) sound ran with
            ⟨_, spares⟩ | ⟨rfl, spares, _⟩
          · refine ⟨[], spares.mono (fun _ _ => trivial) scratch
              (List.Subset.refl _), by simp⟩
          · refine ⟨[link.output.target], spares.mono (fun _ _ => trivial)
              scratch (List.Subset.refl _), fun withholds => ?_⟩
            refine List.cons_subset.2 ⟨?_, List.nil_subset _⟩
            refine List.mem_map.2 ⟨link, ?_, rfl⟩
            refine mem_dropLast_of_suffix inProgress fun last => ?_
            have ended := withholds digest input (link :: rest) rfl
              (by simp [last])
            rw [advance, ran] at ended
            cases ended
  | removing left =>
      cases left with
      | nil => exact ⟨[], .of_extends (Alters.refl _ _ _), by simp⟩
      | cons link rest =>
          have member : link ∈ chain.links.dropLast :=
            inProgress.subset List.mem_cons_self
          refine ⟨[link.output.target], .of_alters ?_, fun _ => ?_⟩
          · exact alters_removeOutputs _ _ _
          · refine List.cons_subset.2 ⟨?_, List.nil_subset _⟩
            exact List.mem_map.2 ⟨link, member, rfl⟩

theorem advance_inProgress (inProgress : InProgress chain phase)
    {next : Phase} (advanced : (advance chain workspace phase).1 = some next) :
    InProgress chain next := by
  cases phase with
  | linking digest input left =>
      cases left with
      | nil =>
          cases final : chain.finalOutput with
          | none =>
              rw [advance, final] at advanced
              cases advanced
          | some output =>
              rw [advance_record final] at advanced
              obtain ⟨_, rfl⟩ := afterRecord_eq_some advanced
              change (if _ then _ else _) <:+ chain.links.dropLast
              split
              · exact List.nil_suffix
              · exact List.suffix_rfl
      | cons link rest =>
          rw [advance] at advanced
          dsimp only at advanced
          obtain ⟨_, rfl⟩ := afterLink_eq_some advanced
          exact (List.suffix_cons _ _).trans inProgress
  | removing left =>
      cases left with
      | nil => cases advanced
      | cons link rest =>
          cases advanced
          exact (List.suffix_cons _ _).trans inProgress

variable {scene : Scene}

theorem Underway.put (underway : Underway chain scene) (process : Nat)
    {next : Option Phase × Workspace} (sound : next.2.tree.Sound)
    (inProgress : ∀ phase, next.1 = some phase → InProgress chain phase) :
    Underway chain (scene.put process next) where
  sound := sound
  phases := by
    intro other phase at_phase
    by_cases same : other = process
    · rw [same, Scene.put_phases] at at_phase
      exact inProgress phase at_phase
    · have unchanged : (scene.put process next).phases other =
          scene.phases other := Function.update_of_ne same _ _
      rw [unchanged] at at_phase
      exact underway.phases other phase at_phase

theorem Underway.step (apart : Apart chain.scratchRoot chain.links)
    (underway : Underway chain scene) {event : Event}
    (edits : ∀ change, event = .edit change →
      (change scene.workspace.tree).Sound) :
    Underway chain (step chain scene event) := by
  cases event with
  | edit change => exact ⟨edits change rfl, underway.phases⟩
  | start process memo =>
      refine underway.put process underway.sound fun phase begun => ?_
      obtain ⟨_, _, _, _, rfl⟩ := firstPhase_eq_some begun
      exact List.suffix_rfl
  | proceed process =>
      cases at_phase : scene.phases process with
      | none =>
          simp only [Chain.step, at_phase]
          exact underway
      | some phase =>
          simp only [Chain.step, at_phase]
          have inProgress := underway.phases process phase at_phase
          obtain ⟨replaced, spares, _⟩ :=
            advance_replacesOnly apart underway.sound inProgress
          exact underway.put process (spares.alters underway.sound).1
            fun next => advance_inProgress inProgress
  | stop process =>
      exact underway.put process underway.sound fun _ ended => by cases ended

theorem Underway.play (apart : Apart chain.scratchRoot chain.links)
    {history : List Event}
    (edits : ∀ change, Event.edit change ∉ history)
    (underway : Underway chain scene) :
    Underway chain (play chain scene history) := by
  induction history generalizing scene with
  | nil => exact underway
  | cons event rest inductionHypothesis =>
      refine inductionHypothesis (fun change member =>
        edits change (List.mem_cons_of_mem _ member)) ?_
      refine underway.step apart fun change same => ?_
      exact absurd (same ▸ List.mem_cons_self) (edits change)

end Progress

/-! ## Digests that vouch for the final output -/

section Vouching

variable {chain : Chain} {transform : Link → Transform}
  {states : FileTree → Prop} {scene : Scene} {before after : FileTree}

def recordedAt (tree : FileTree) (output : Path) : Option Fingerprint := do
  let content ← tree.contentAt (digestPathFor output).target
  let text ← Text.decode content
  Fingerprint.parse (Text.trim text)

theorem recordedAt_of_readBytes {tree : FileTree} {output : Path}
    {content : Bytes}
    (read : tree.readBytes (digestPathFor output) = .ok content) :
    recordedAt tree output = storedDigest tree output := by
  rw [recordedAt, contentAt_target read, storedDigest, FileTree.readText, read]
  simp only [bind, Option.bind, Except.bind]
  cases Text.decode content <;> rfl

theorem exists_record {tree : FileTree} {output : Path} {digest : Fingerprint}
    (stored : storedDigest tree output = some digest) :
    ∃ content, tree.readBytes (digestPathFor output) = .ok content := by
  cases read : tree.readBytes (digestPathFor output) with
  | ok content => exact ⟨content, rfl⟩
  | error problem =>
      rw [storedDigest, FileTree.readText, read] at stored
      cases stored

def SameInputs (chain : Chain) (first second : FileTree) : Prop :=
  inputBytes first chain.input = inputBytes second chain.input ∧
    ∀ link ∈ chain.links, linkContents first link = linkContents second link

/-- No two of some trees with different inputs have the same digest. -/
def Distinguished (chain : Chain) (states : FileTree → Prop) : Prop :=
  ∀ first second digest, states first → states second →
    (chain.rebuilt.computeDigest first).1 = .ok digest →
    (chain.rebuilt.computeDigest second).1 = .ok digest →
    SameInputs chain first second

/-- A final output beside a recorded digest is what the stages make of the
inputs with that digest. -/
def Vouched (chain : Chain) (transform : Link → Transform)
    (states : FileTree → Prop) (tree : FileTree) : Prop :=
  ∀ output digest content, chain.finalOutput = some output →
    recordedAt tree output = some digest →
    tree.contentAt output.target = some content →
    ∀ base, states base → (chain.rebuilt.computeDigest base).1 = .ok digest →
      composition base transform chain.links (inputBytes base chain.input) =
        .ok (some content)

/-- The final output and the file of the digest hold what they held. -/
def Untouched (chain : Chain) (before after : FileTree) : Prop :=
  ∀ output, chain.finalOutput = some output →
    after.contentAt output.target = before.contentAt output.target ∧
      after.contentAt (digestPathFor output).target =
        before.contentAt (digestPathFor output).target

theorem Vouched.of_untouched (vouched : Vouched chain transform states before)
    (untouched : Untouched chain before after) :
    Vouched chain transform states after := by
  intro output digest content final recorded holds
  obtain ⟨sameOutput, sameDigest⟩ := untouched output final
  rw [recordedAt, sameDigest] at recorded
  rw [sameOutput] at holds
  exact vouched output digest content final recorded holds

theorem composition_congr {first second : FileTree} {links : List Link}
    (same : ∀ link ∈ links, linkContents first link = linkContents second link)
    (bytes : Option Bytes) :
    composition first transform links bytes =
      composition second transform links bytes := by
  induction links generalizing bytes with
  | nil => rfl
  | cons link rest inductionHypothesis =>
      have others := inductionHypothesis fun other member =>
        same other (List.mem_cons_of_mem _ member)
      rw [composition, composition, outcome, outcome,
        same link List.mem_cons_self]
      simp only [others]

/-- A change that replaces other outputs only leaves the final one alone. -/
theorem untouched_of_replacesOnly (apart : Apart chain.scratchRoot chain.links)
    (digestApart : ∀ path, chain.digestPath = some path →
      path.target ∉ outputPlaces chain.links)
    {made : Location → Prop} {replaced : List Location}
    (spares : ReplacesOnly made
      (scratchPlaces chain.scratchRoot chain.links) replaced before after)
    (others : replaced ⊆ outputPlaces chain.links.dropLast)
    (sound : before.Sound) : Untouched chain before after := by
  intro output final
  obtain ⟨last, ends, rfl⟩ := Option.map_eq_some_iff.1 final
  have member : last ∈ chain.links := List.mem_of_getLast? ends
  constructor
  · refine spares.contents sound _ (fun scratch listed inside => ?_) ?_
    · obtain ⟨other, inChain, rfl⟩ := List.mem_map.1 listed
      exact (apart.outside last member other inChain).target inside.1
    · intro listed
      have distinct := apart.distinct
      rw [← List.dropLast_append_getLast? last ends, List.map_append,
        List.nodup_append] at distinct
      exact distinct.2.2 _ (others listed) _ List.mem_cons_self rfl
  · refine spares.contents sound _ (fun scratch listed => ?_) ?_
    · obtain ⟨other, inChain, rfl⟩ := List.mem_map.1 listed
      exact not_inside_digest (apart.outside last member other inChain)
    · intro listed
      refine digestApart _ (by rw [digestPath, final]; rfl) ?_
      obtain ⟨other, inside, same⟩ := List.mem_map.1 (others listed)
      exact List.mem_map.2 ⟨other, List.dropLast_subset _ inside, same⟩

/-- What happens neither publishes the final output nor records a digest, and
whoever edits files leaves both alone. -/
def Quiet (chain : Chain) (scene : Scene) : Event → Prop
  | .edit change =>
      (change scene.workspace.tree).Sound ∧
        Untouched chain scene.workspace.tree (change scene.workspace.tree)
  | .start _ _ => True
  | .proceed process =>
      ∀ phase, scene.phases process = some phase →
        Withholds chain scene.workspace phase
  | .stop _ => True

theorem Quiet.untouched (apart : Apart chain.scratchRoot chain.links)
    (digestApart : ∀ path, chain.digestPath = some path →
      path.target ∉ outputPlaces chain.links)
    (underway : Underway chain scene) {event : Event}
    (quiet : Quiet chain scene event) :
    Untouched chain scene.workspace.tree
      (step chain scene event).workspace.tree := by
  cases event with
  | edit change => exact quiet.2
  | start process memo => exact fun _ _ => ⟨rfl, rfl⟩
  | proceed process =>
      cases at_phase : scene.phases process with
      | none =>
          simp only [step, at_phase]
          exact fun _ _ => ⟨rfl, rfl⟩
      | some phase =>
          simp only [step, at_phase]
          obtain ⟨replaced, spares, others⟩ := advance_replacesOnly apart
            underway.sound (underway.phases process phase at_phase)
          exact untouched_of_replacesOnly apart digestApart spares
            (others (quiet phase at_phase)) underway.sound
  | stop process => exact fun _ _ => ⟨rfl, rfl⟩

theorem Quiet.underway (apart : Apart chain.scratchRoot chain.links)
    (underway : Underway chain scene) {event : Event}
    (quiet : Quiet chain scene event) :
    Underway chain (step chain scene event) := by
  refine underway.step apart fun change same => ?_
  rw [same] at quiet
  exact quiet.1

/-- A digest does not depend on what a process remembers of files. -/
theorem computeDigest_of_faithful {memo : Memo} {tree : FileTree}
    (faithful : memo.Faithful tree) :
    ({ chain with memo }.computeDigest tree).1 =
      (chain.rebuilt.computeDigest tree).1 := by
  have given := (Computes.digestOf (chain.inputs tree) memo faithful).1
  have anew := (Computes.digestOf (chain.inputs tree) {}
    (Memo.faithful_empty tree)).1
  have same : ((digestOf tree (chain.inputs tree)).run memo).1 =
      ((digestOf tree (chain.inputs tree)).run {}).1 := given.trans anew.symm
  exact congrArg (Except.mapError _) same

/-- An undisturbed run leaves what the stages make of its inputs beside the
digest of these inputs. -/
theorem undisturbed_leaves {process : Nat} {memo : Memo} {left : List Link}
    (performs : ∀ link ∈ chain.links, Performs link (transform link))
    (separate : Separate chain scene.workspace.tree)
    (sound : scene.workspace.tree.Sound)
    (faithful : memo.Faithful scene.workspace.tree)
    (recorded : (play chain scene (undisturbed chain process memo)).phases
      process = some (.removing left))
    (ended : (play chain scene (undisturbed chain process memo)).workspace.tree =
      after) :
    ∃ output digest content, chain.finalOutput = some output ∧
      (chain.rebuilt.computeDigest scene.workspace.tree).1 = .ok digest ∧
      composition scene.workspace.tree transform chain.links
        (inputBytes scene.workspace.tree chain.input) = .ok (some content) ∧
      after.readBytes output = .ok content ∧
      storedDigest after output = some digest := by
  obtain ⟨output, digest, reached, written, final, hashed, linked, wrote, last⟩
    := undisturbed_recorded recorded
  rw [← ended, last]
  obtain ⟨⟨bytes, stream, digested⟩, _⟩ := computeDigest_eq_ok faithful
    (Prod.ext hashed rfl)
  rw [computeDigest_of_faithful faithful] at hashed
  obtain ⟨_, _, ⟨content, composed, read⟩, record⟩ := runLinks_recorded
    separate performs sound (fun _ => exists_linkContents stream separate.unhashed)
    (readable_input separate stream) final linked wrote
  refine ⟨output, digest, content, final, hashed, composed, read, ?_⟩
  rw [digested] at record ⊢
  exact storedDigest_recorded record

/-- An undisturbed run records a digest that vouches for its output. -/
theorem vouched_of_undisturbed {process : Nat} {memo : Memo}
    {left : List Link}
    (performs : ∀ link ∈ chain.links, Performs link (transform link))
    (separate : Separate chain scene.workspace.tree)
    (distinguished : Distinguished chain states)
    (sound : scene.workspace.tree.Sound)
    (known : states scene.workspace.tree)
    (faithful : memo.Faithful scene.workspace.tree)
    (recorded : (play chain scene (undisturbed chain process memo)).phases
      process = some (.removing left)) :
    Vouched chain transform states
      (play chain scene (undisturbed chain process memo)).workspace.tree := by
  obtain ⟨output, digest, content, final, hashed, composed, read, stored⟩ :=
    undisturbed_leaves performs separate sound faithful recorded rfl
  intro output' digest' content' final' recorded' holds base inStates hashedBase
  rw [final] at final'
  cases final'
  obtain ⟨_, record⟩ := exists_record stored
  have sameDigest : digest' = digest := by
    rw [recordedAt_of_readBytes record, stored] at recorded'
    exact (Option.some.inj recorded').symm
  have sameContent : content' = content := by
    rw [contentAt_target read] at holds
    exact (Option.some.inj holds).symm
  rw [sameDigest] at hashedBase
  obtain ⟨sameBytes, sameValues⟩ := distinguished base scene.workspace.tree
    digest inStates known hashedBase hashed
  rw [sameContent, composition_congr sameValues, sameBytes]
  exact composed

/-- The digest an undisturbed run records is that of its inputs. -/
theorem storedDigestMatches_undisturbed {process : Nat} {memo : Memo}
    {left : List Link} {digest : Fingerprint}
    (performs : ∀ link ∈ chain.links, Performs link (transform link))
    (separate : Separate chain scene.workspace.tree)
    (sound : scene.workspace.tree.Sound)
    (faithful : memo.Faithful scene.workspace.tree)
    (hashed : (chain.rebuilt.computeDigest scene.workspace.tree).1 = .ok digest)
    (recorded : (play chain scene (undisturbed chain process memo)).phases
      process = some (.removing left)) :
    chain.storedDigestMatches
      (play chain scene (undisturbed chain process memo)).workspace.tree
      digest = true := by
  obtain ⟨output, other, content, final, otherHashed, _, read, stored⟩ :=
    undisturbed_leaves performs separate sound faithful recorded rfl
  cases hashed.symm.trans otherHashed
  simp only [storedDigestMatches, final, isFile_iff.2 ⟨content, read⟩, stored,
    Bool.true_and, BEq.rfl]

/-- Who leaves the final output and the digest alone, and the directories they
are in, leaves a digest that matches. -/
theorem storedDigestMatches_of_untouched {digest : Fingerprint}
    (untouched : Untouched chain before after)
    (present : ∀ output, chain.finalOutput = some output →
      after.isFile output = true ∧ after.isFile (digestPathFor output) = true)
    (matching : chain.storedDigestMatches before digest = true) :
    chain.storedDigestMatches after digest = true := by
  unfold storedDigestMatches at matching ⊢
  cases final : chain.finalOutput with
  | none =>
      rw [final] at matching
      cases matching
  | some output =>
      rw [final] at matching
      obtain ⟨_, stored⟩ := Bool.and_eq_true_iff.1 matching
      obtain ⟨isFile, digestIsFile⟩ := present output final
      obtain ⟨_, read⟩ := exists_record (eq_of_beq stored)
      obtain ⟨_, readAfter⟩ := isFile_iff.1 digestIsFile
      have same : storedDigest after output = storedDigest before output := by
        rw [← recordedAt_of_readBytes read, ← recordedAt_of_readBytes readAfter,
          recordedAt, recordedAt, (untouched output final).2]
      simp only [isFile, same, stored, Bool.and_self]

/-- A history in which every run that publishes the final output goes on
undisturbed until it has recorded its digest. -/
inductive Safe (chain : Chain) (states : FileTree → Prop) :
    Scene → List Event → Prop
  | nil {scene : Scene} : Safe chain states scene []
  | quiet {scene : Scene} {event : Event} {rest : List Event}
      (quiet : Quiet chain scene event)
      (later : Safe chain states (step chain scene event) rest) :
      Safe chain states scene (event :: rest)
  | whole {scene : Scene} {process : Nat} {memo : Memo} {rest : List Event}
      (known : states scene.workspace.tree)
      (faithful : memo.Faithful scene.workspace.tree)
      (recorded : ∃ left,
        (play chain scene (undisturbed chain process memo)).phases process =
          some (.removing left))
      (later : Safe chain states
        (play chain scene (undisturbed chain process memo)) rest) :
      Safe chain states scene (undisturbed chain process memo ++ rest)

theorem Safe.vouched (apart : Apart chain.scratchRoot chain.links)
    (digestApart : ∀ path, chain.digestPath = some path →
      path.target ∉ outputPlaces chain.links)
    (performs : ∀ link ∈ chain.links, Performs link (transform link))
    (separate : ∀ tree, states tree → Separate chain tree)
    (distinguished : Distinguished chain states) {history : List Event}
    (safe : Safe chain states scene history)
    (underway : Underway chain scene)
    (vouched : Vouched chain transform states scene.workspace.tree) :
    Vouched chain transform states
      (play chain scene history).workspace.tree := by
  induction safe with
  | nil => exact vouched
  | quiet quiet _ inductionHypothesis =>
      exact inductionHypothesis (quiet.underway apart underway)
        (vouched.of_untouched (quiet.untouched apart digestApart underway))
  | whole known faithful recorded _ inductionHypothesis =>
      obtain ⟨left, recorded⟩ := recorded
      rw [play_append]
      refine inductionHypothesis (underway.play apart ?_)
        (vouched_of_undisturbed performs (separate _ known) distinguished
          underway.sound known faithful recorded)
      intro change member
      simp [undisturbed] at member

/-- In a history in which every run that publishes the final output goes on
undisturbed until it has recorded its digest, a digest that is found beside the
final output vouches for it. -/
theorem storedDigestMatches_vouches (apart : Apart chain.scratchRoot chain.links)
    (digestApart : ∀ path, chain.digestPath = some path →
      path.target ∉ outputPlaces chain.links)
    (performs : ∀ link ∈ chain.links, Performs link (transform link))
    (separate : ∀ tree, states tree → Separate chain tree)
    (distinguished : Distinguished chain states) {history : List Event}
    (safe : Safe chain states scene history)
    (underway : Underway chain scene)
    (vouched : Vouched chain transform states scene.workspace.tree)
    {digest : Fingerprint}
    (matching : chain.storedDigestMatches
      (play chain scene history).workspace.tree digest = true)
    {base : FileTree} (inStates : states base)
    (hashed : (chain.rebuilt.computeDigest base).1 = .ok digest) :
    ∃ output content, chain.finalOutput = some output ∧
      (play chain scene history).workspace.tree.readBytes output =
        .ok content ∧
      composition base transform chain.links (inputBytes base chain.input) =
        .ok (some content) := by
  have vouches := safe.vouched apart digestApart performs separate distinguished
    underway vouched
  unfold storedDigestMatches at matching
  cases final : chain.finalOutput with
  | none =>
      rw [final] at matching
      cases matching
  | some output =>
      rw [final] at matching
      obtain ⟨present, stored⟩ := Bool.and_eq_true_iff.1 matching
      have recorded := eq_of_beq stored
      obtain ⟨record, readRecord⟩ := exists_record recorded
      obtain ⟨content, read⟩ := isFile_iff.1 present
      refine ⟨output, content, rfl, read, ?_⟩
      refine vouches output digest content final ?_ (contentAt_target read) base
        inStates hashed
      rw [recordedAt_of_readBytes readRecord]
      exact recorded

end Vouching

/-! ## A chain of one stage -/

def appendingStage (name : String) (ending : Bytes) : Stage where
  name := name
  inputs := fun _ => [.bytes ending]
  run := fun paths => do
    let content := (inputBytes (← get).tree paths.input).getD []
    StageAction.change paths.output
      (·.writeBytes paths.output (content ++ ending))

theorem runFrom_appendingStage (name : String) (ending : Bytes)
    (paths : StagePaths) (workspace : Workspace) :
    runFrom ((appendingStage name ending).run paths) workspace =
      runFrom ((writingStage name
        ((inputBytes workspace.tree paths.input).getD [] ++ ending)
        false).run paths) workspace := by
  unfold appendingStage writingStage
  dsimp only
  rw [runFrom_bind, runFrom_bind, runFrom_get]
  dsimp only
  rw [StageAction.runFrom_change]
  cases workspace.tree.writeBytes paths.output _ <;> rfl

theorem appendingStage_confined (name : String) (ending : Bytes) :
    (appendingStage name ending).Confined := by
  intro paths before prepared
  rw [runFrom_appendingStage]
  exact writingStage_confined _ _ _ paths before prepared

/-- Append the bytes among the inputs. -/
def appended : Transform := fun bytes contents =>
  .ok (bytes.getD [] ++ contents.flatMap fun
    | .plain (.bytes ending) => ending
    | _ => [])

theorem appendingStage_performs (name : String) (ending : Bytes)
    (output : Path) :
    Performs { stage := appendingStage name ending, output } appended := by
  intro paths before after contents _ _ held ran there
  have declared : contents = [.plain (.bytes ending)] :=
    (Except.ok.inj held).symm
  refine ⟨_, rfl, ?_⟩
  rw [declared, List.flatMap_singleton]
  rw [runFrom_appendingStage] at ran
  unfold writingStage at ran
  dsimp only at ran
  rw [runFrom_bind, StageAction.runFrom_change] at ran
  rcases written : before.tree.writeBytes paths.output
    ((inputBytes before.tree paths.input).getD [] ++ ending) with
    problem | tree
  · rw [written] at ran
    cases ran
  · rw [written] at ran
    cases ran
    obtain ⟨modified, identity, file⟩ := node?_written written
    exact contentAt_eq_some.2 ⟨modified, identity, file⟩

def singleInput : FileTree :=
  { nodes := [(["in"], .file [1] 0 0)], clock := 1 }

def soleChain : Chain where
  input := some ⟨"in"⟩
  links := [{ stage := appendingStage "add" [10], output := ⟨"out"⟩ }]
  scratchRoot := ⟨"tmp"⟩

theorem soleChain_separate (tree : FileTree) : Separate soleChain tree where
  confined := by
    intro link member
    rw [List.mem_singleton.1 member]
    exact appendingStage_confined _ _
  scratch := by decide +kernel
  outputs := List.pairwise_singleton _ _
  digest := by
    rintro path ⟨⟩
    decide +kernel
  input := by
    rintro path ⟨⟩
    decide
  hashed := by
    intro link member input declared root _
    rw [List.mem_singleton.1 member] at declared
    rw [List.mem_singleton.1 declared]
    trivial
  steady := by
    intro link member later _
    rw [List.mem_singleton.1 member]
    rfl
  unhashed := by
    intro link member counts
    rw [List.mem_singleton.1 member] at counts
    cases counts

theorem soleChain_performs :
    ∀ link ∈ soleChain.links, Performs link appended := by
  intro link member
  rw [List.mem_singleton.1 member]
  exact appendingStage_performs _ _ _

theorem soleChain_digestApart :
    ∀ path, soleChain.digestPath = some path →
      path.target ∉ outputPlaces soleChain.links := by
  rintro path ⟨⟩
  decide

def soleDigest (content : Bytes) : Fingerprint :=
  .ofBytes (frameInputs [.text "retro-chain/1", .file (Sha256.hash content),
    .text "add", .bytes [10]])

theorem soleChain_digest {tree : FileTree} {content : Bytes}
    (read : tree.readBytes ⟨"in"⟩ = .ok content) :
    (soleChain.rebuilt.computeDigest tree).1 = .ok (soleDigest content) := by
  have hashed : tree.hashAt ⟨"in"⟩ = .ok (Sha256.hash content) :=
    hashAt_eq_ok.2 ⟨content, read, rfl⟩
  have resolved : (soleChain.inputs tree).mapM (HashInput.resolveAnew tree) =
      .ok [.text "retro-chain/1", .file (Sha256.hash content), .text "add",
        .bytes [10]] := by
    refine mapM_eq_ok.2 (.cons rfl (.cons ?_ (.cons rfl (.cons rfl .nil))))
    exact bind_eq_ok.2 ⟨_, hashed, rfl⟩
  have given := (Computes.digestOf (soleChain.inputs tree) {}
    (Memo.faithful_empty tree)).1
  have computed : ((digestOf tree (soleChain.inputs tree)).run {}).1 =
      .ok (soleDigest content) := by
    rw [given, streamAnew, resolved]
    rfl
  exact congrArg (Except.mapError _) computed

def EitherInput (tree : FileTree) : Prop :=
  ∃ content ∈ [[1], [2]], tree.readBytes ⟨"in"⟩ = .ok content

theorem soleChain_distinguished : Distinguished soleChain EitherInput := by
  rintro first second digest ⟨content, listed, read⟩
    ⟨other, otherListed, otherRead⟩ hashed otherHashed
  rw [soleChain_digest read] at hashed
  rw [soleChain_digest otherRead] at otherHashed
  have digests : soleDigest content = soleDigest other :=
    Except.ok.inj (hashed.trans otherHashed.symm)
  have different : ∀ left ∈ [[1], [2]], ∀ right ∈ [[1], [2]],
      soleDigest left = soleDigest right → left = right := by
    decide +kernel
  have same := different content listed other otherListed digests
  refine ⟨?_, fun link member => ?_⟩
  · change inputBytes first (some ⟨"in"⟩) = inputBytes second (some ⟨"in"⟩)
    rw [inputBytes, inputBytes, Option.bind_some, Option.bind_some, read,
      otherRead, same]
  · rw [List.mem_singleton.1 member]
    rfl

def editInput (content : Bytes) : Event :=
  .edit fun tree => (tree.writeBytes ⟨"in"⟩ content).toOption.getD tree

def firstScene : Scene where
  workspace := ⟨singleInput, []⟩
  phases := fun _ => none

def stoppedEarly : List Event :=
  undisturbed soleChain 0 {} ++ [editInput [2], .start 1 {}, .stop 1]

private theorem firstScene_read :
    singleInput.readBytes ⟨"in"⟩ = .ok [1] := by
  decide

private theorem firstRun_recorded :
    ∃ left, (play soleChain firstScene (undisturbed soleChain 0 {})).phases 0 =
      some (.removing left) := by
  have recorded : ((play soleChain firstScene
      (undisturbed soleChain 0 {})).phases 0).any Phase.isRemoving = true := by
    decide +kernel
  obtain ⟨phase, at_phase, removing⟩ := Option.any_eq_true _ _ |>.1 recorded
  cases phase with
  | linking digest input left => cases removing
  | removing left => exact ⟨left, at_phase⟩

private theorem quiet_editInput {scene : Scene}
    (sound : scene.workspace.tree.Sound) (content : Bytes) :
    Quiet soleChain scene (editInput content) := by
  have altered : Alters (fun _ => False) (· = Path.target ⟨"in"⟩)
      scene.workspace.tree ((scene.workspace.tree.writeBytes ⟨"in"⟩
        content).toOption.getD scene.workspace.tree) := by
    cases wrote : scene.workspace.tree.writeBytes ⟨"in"⟩ content with
    | error problem => exact Alters.refl _ _ _
    | ok after => exact alters_writeBytes _ wrote
  obtain ⟨afterSound, kept⟩ := altered sound
  refine ⟨afterSound, ?_⟩
  rintro output ⟨⟩
  exact ⟨(kept _ (by decide)).contentAt_eq, (kept _ (by decide)).contentAt_eq⟩

private theorem firstScene_underway : Underway soleChain firstScene where
  sound := by decide
  phases := by
    intro process phase ended
    cases ended

private theorem firstRun_sound :
    (play soleChain firstScene
      (undisturbed soleChain 0 {})).workspace.tree.Sound :=
  (firstScene_underway.play (soleChain_separate {}).apart
    (by simp [undisturbed])).sound

private theorem stoppedEarly_safe :
    Safe soleChain EitherInput firstScene stoppedEarly :=
  .whole ⟨[1], List.mem_cons_self, firstScene_read⟩ (Memo.faithful_empty _)
    firstRun_recorded
    (.quiet (quiet_editInput firstRun_sound [2])
      (.quiet trivial (.quiet trivial .nil)))

private theorem stoppedEarly_matches :
    soleChain.storedDigestMatches
      (play soleChain firstScene stoppedEarly).workspace.tree
      (soleDigest [1]) = true := by
  obtain ⟨left, recorded⟩ := firstRun_recorded
  have first := storedDigestMatches_undisturbed soleChain_performs
    (soleChain_separate _) firstScene_underway.sound (Memo.faithful_empty _)
    (soleChain_digest firstScene_read) recorded
  have untouched := (quiet_editInput firstRun_sound [2]).2
  rw [stoppedEarly, play_append]
  refine storedDigestMatches_of_untouched untouched ?_ first
  rintro output ⟨⟩
  decide +kernel

/-- The recorded digest vouches for the output of the first run. -/
theorem storedDigestMatches_vouches_sample :
    soleChain.storedDigestMatches
        (play soleChain firstScene stoppedEarly).workspace.tree
        (soleDigest [1]) = true ∧
      ∃ output content, soleChain.finalOutput = some output ∧
        (play soleChain firstScene stoppedEarly).workspace.tree.readBytes
          output = .ok content ∧
        composition singleInput (fun _ => appended) soleChain.links
          (inputBytes singleInput soleChain.input) = .ok (some content) := by
  refine ⟨stoppedEarly_matches, ?_⟩
  refine storedDigestMatches_vouches (soleChain_separate {}).apart
    soleChain_digestApart soleChain_performs
    (fun tree _ => soleChain_separate tree) soleChain_distinguished
    stoppedEarly_safe firstScene_underway ?_ stoppedEarly_matches
    ⟨[1], List.mem_cons_self, firstScene_read⟩
    (soleChain_digest firstScene_read)
  intro output _ _ final recorded
  have nothing : recordedAt singleInput ⟨"out"⟩ = none := by decide
  rw [← Option.some.inj final] at recorded
  cases nothing.symm.trans recorded

/-! ## Runs that are stopped late, and runs that overlap -/

/-- A run on another input is stopped when it has published the final output but
not recorded its digest, and the input is written back. -/
def stoppedLate : List Event :=
  undisturbed soleChain 0 {} ++
    [editInput [2], .start 0 {}, .proceed 0, .stop 0, editInput [1]]

/-- Between the last two steps of a run, another one runs on another input. -/
def overlapping : List Event :=
  [.start 0 {}, .proceed 0, editInput [2], .start 1 {}, .proceed 1, .proceed 1,
    .proceed 0, editInput [1]]

/-- The recorded digest is that of the input, and the final output is that of
another input. -/
theorem recorded_digest_misleads :
    (∀ tree, Separate soleChain tree) ∧
    (∀ link ∈ soleChain.links, link.retention ≠ .unhashed ∧
      Performs link appended) ∧
    Distinguished soleChain EitherInput ∧
    composition singleInput (fun _ => appended) soleChain.links
      (inputBytes singleInput soleChain.input) = .ok (some [1, 10]) ∧
    (soleChain.rebuilt.computeDigest singleInput).1 = .ok (soleDigest [1]) ∧
    ∀ history ∈ [stoppedLate, overlapping],
      soleChain.storedDigestMatches
          (play soleChain firstScene history).workspace.tree
          (soleDigest [1]) = true ∧
        (play soleChain firstScene history).workspace.tree.readBytes ⟨"out"⟩ =
          .ok [2, 10] := by
  have hashes : ∀ link ∈ soleChain.links, link.retention ≠ .unhashed := by
    decide
  refine ⟨soleChain_separate, fun link member => ⟨hashes link member,
    soleChain_performs link member⟩, soleChain_distinguished, ?_,
    soleChain_digest firstScene_read, by decide +kernel⟩
  have input : inputBytes singleInput soleChain.input = some [1] := by
    decide
  rw [input]
  rfl

end Deobfuscate.Chain
