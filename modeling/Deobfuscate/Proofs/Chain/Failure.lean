import Deobfuscate.Proofs.Chain.Link

/-!
# Chains that fail

Links are run one after another, so a chain that fails has run some links
completely, has failed at the next one and has not begun with the others.  What
it leaves behind is what the completed links have made: the other outputs and
the recorded digest hold what they held before.
-/

namespace Deobfuscate.Chain

open FileTree

variable {scratchRoot : Path} {input : Option Path} {links : List Link}
  {before after : Workspace}

def inputAfter (input : Option Path) (done : List Link) : Option Path :=
  done.foldl (fun _ link => some link.output) input

/-- What the stages of links leave in their files when the links are run in
order. -/
def products (scratchRoot : Path) :
    Option Path → List Link → Workspace → List (Option Bytes)
  | _, [], _ => []
  | input, link :: rest, workspace =>
      product scratchRoot link input workspace ::
        products scratchRoot (some link.output) rest
          (runFrom (runLink scratchRoot link input) workspace).2

def FailsAt (scratchRoot : Path) (input : Option Path) (done : List Link)
    (link : Link) (error : StageError) (before after : Workspace) : Prop :=
  ∃ reached,
    runFrom (runLinks scratchRoot input done) before = (.ok (), reached) ∧
    runFrom (runLink scratchRoot link (inputAfter input done)) reached =
      (.error error, after)

/-- Stages are confined, outputs lie outside the scratch directories, and no two
outputs are at the same place. -/
structure Apart (scratchRoot : Path) (links : List Link) : Prop where
  confined : ∀ link ∈ links, link.stage.Confined
  outside : ∀ link ∈ links, ∀ other ∈ links,
    link.output.Avoids (scratchOf scratchRoot other).target
  distinct : (links.map fun link => link.output.target).Nodup

theorem Apart.tail {link : Link} {rest : List Link}
    (apart : Apart scratchRoot (link :: rest)) : Apart scratchRoot rest where
  confined := fun other member => apart.confined other (by simp [member])
  outside := fun other member third memberThird =>
    apart.outside other (by simp [member]) third (by simp [memberThird])
  distinct := (List.nodup_cons.1 apart.distinct).2

def MadeForSome (scratchRoot : Path) (links : List Link)
    (location : Location) : Prop :=
  ∃ link ∈ links, MadeFor scratchRoot link location

def scratchPlaces (scratchRoot : Path) (links : List Link) : List Location :=
  links.map fun link => (scratchOf scratchRoot link).target

def outputPlaces (links : List Link) : List Location :=
  links.map fun link => link.output.target

def Holds (tree : FileTree) (link : Link) (content : Option Bytes) : Prop :=
  content.isSome ∧ tree.contentAt link.output.target = content

theorem exists_content_of_held {tree : FileTree} {done : List Link}
    {results : List (Option Bytes)}
    (held : List.Forall₂ (Holds tree) done results) {link : Link}
    (member : link ∈ done) :
    ∃ content, tree.contentAt link.output.target = some content := by
  obtain ⟨result, _, there, same⟩ := exists_related held member
  rw [same]
  exact Option.isSome_iff_exists.1 there

/-- An output is not touched when other links are run. -/
theorem Apart.contentAt_output {link : Link} {tried done : List Link}
    {first second : FileTree} {made : Location → Prop}
    (apart : Apart scratchRoot links) (member : link ∈ links)
    (triedSubset : tried ⊆ links)
    (other : link.output.target ∉ outputPlaces done)
    (spares : ReplacesOnly made (scratchPlaces scratchRoot tried)
      (outputPlaces done) first second) (sound : first.Sound) :
    second.contentAt link.output.target =
      first.contentAt link.output.target := by
  refine spares.contents sound _ (fun scratch listed inside => ?_) other
  obtain ⟨third, memberThird, rfl⟩ := List.mem_map.1 listed
  exact (apart.outside link member third (triedSubset memberThird)).target
    inside.1

theorem runLinks_cases {result : Except StageError Unit}
    (apart : Apart scratchRoot links) (sound : before.tree.Sound)
    (ran : runFrom (runLinks scratchRoot input links) before =
      (result, after)) :
    ∃ done left, links = done ++ left ∧
      ReplacesOnly (MadeForSome scratchRoot (done ++ left.take 1))
        (scratchPlaces scratchRoot (done ++ left.take 1)) (outputPlaces done)
        before.tree after.tree ∧
      List.Forall₂ (Holds after.tree) done
        (products scratchRoot input done before) ∧
      (result = .ok () ∧ left = [] ∨
        ∃ error link rest, result = .error error ∧ left = link :: rest ∧
          FailsAt scratchRoot input done link error before after) := by
  induction links generalizing input before with
  | nil =>
      cases ran
      exact ⟨[], [], rfl, ReplacesOnly.of_extends (Alters.refl _ _ _), .nil,
        Or.inl ⟨rfl, rfl⟩⟩
  | cons link others inductionHypothesis =>
      rw [runLinks, runFrom_bind] at ran
      rcases running : runFrom (runLink scratchRoot link input) before with
        ⟨answer, later⟩
      have confined := apart.confined link (by simp)
      have avoids := apart.outside link (by simp) link (by simp)
      rcases runLink_cases confined avoids sound running with
        ⟨⟨error, rfl⟩, spares⟩ |
        ⟨rfl, spares, content, modified, identity, made, found⟩
      · rw [running] at ran
        cases ran
        refine ⟨[], link :: others, rfl, ?_, .nil,
          Or.inr ⟨error, link, others, rfl, rfl, before, rfl, running⟩⟩
        refine spares.mono (fun location allowed => ?_) ?_ ?_
        · exact ⟨link, by simp, allowed⟩
        · simp [scratchPlaces]
        · simp [outputPlaces]
      · rw [running] at ran
        dsimp only at ran
        have laterSound := (spares.alters sound).1
        obtain ⟨done, left, rfl, sparesRest, held, outcome⟩ :=
          inductionHypothesis apart.tail laterSound ran
        have notLater : link.output.target ∉ outputPlaces done := by
          have distinct := apart.distinct
          rw [List.map_cons, List.map_append, List.nodup_cons] at distinct
          intro member
          exact distinct.1 (List.mem_append_left _ member)
        have triedSubset : done ++ left.take 1 ⊆ link :: (done ++ left) := by
          intro other member
          rcases List.mem_append.1 member with inside | inside
          · simp [inside]
          · simp [List.mem_of_mem_take inside]
        have kept := apart.contentAt_output (by simp) triedSubset notLater
          sparesRest laterSound
        have holds : Holds after.tree link
            (product scratchRoot link input before) := by
          rw [made]
          refine ⟨rfl, ?_⟩
          rw [kept]
          exact contentAt_eq_some.2
            ⟨modified, identity, (node?_target found).2⟩
        refine ⟨link :: done, left, rfl, ?_, ?_, ?_⟩
        · refine (spares.mono ?_ ?_ ?_).trans (sparesRest.mono ?_ ?_ ?_)
          · exact fun location allowed => ⟨link, by simp, allowed⟩
          · simp [scratchPlaces]
          · simp [outputPlaces]
          · rintro location ⟨other, member, allowed⟩
            exact ⟨other, List.mem_cons_of_mem _ member, allowed⟩
          · exact List.subset_cons_self _ _
          · exact List.subset_cons_self _ _
        · refine .cons holds ?_
          rw [running]
          exact held
        · refine outcome.imp id ?_
          rintro ⟨error, failed, rest, failure, split, reached, first, second⟩
          refine ⟨error, failed, rest, failure, split, reached, ?_, second⟩
          rw [runLinks, runFrom_bind, running]
          exact first

theorem splitOn_append_uncut {separator : Char} (chars ending : List Char)
    (uncut : separator ∉ ending) :
    ∃ before last, Text.splitOn separator chars = before ++ [last] ∧
      Text.splitOn separator (chars ++ ending) =
        before ++ [last ++ ending] := by
  induction chars with
  | nil =>
      refine ⟨[], [], rfl, ?_⟩
      rw [Text.splitOn_eq_splitOn]
      exact List.splitOn_eq_singleton uncut
  | cons char rest inductionHypothesis =>
      obtain ⟨before, last, whole, extended⟩ := inductionHypothesis
      rw [List.cons_append, Text.splitOn, Text.splitOn, whole, extended]
      by_cases cut : char = separator
      · exact ⟨[] :: before, last, by simp [cut], by simp [cut]⟩
      · cases before with
        | nil => exact ⟨[], char :: last, by simp [cut], by simp [cut]⟩
        | cons first others =>
            exact ⟨(char :: first) :: others, last, by simp [cut],
              by simp [cut]⟩

/-- The digest is kept in the directory of the output. -/
theorem target_digestPathFor (output : Path) :
    ∃ pieces last name, output.pieces = pieces ++ [last] ∧
      (digestPathFor output).target = Path.reach [] pieces ++ [name] := by
  obtain ⟨before, last, whole, extended⟩ :=
    splitOn_append_uncut output.text.toList ".inputs.sha256".toList
      (show '/' ∉ _ by decide)
  have uncut : '/' ∉ last :=
    Text.not_mem_of_mem_splitOn (by rw [whole]; simp)
  have proper : ProperName
      (String.ofList (last ++ ".inputs.sha256".toList)) := by
    refine properName_of_long ?_ ?_
    · have size : ".inputs.sha256".toList.length = 14 := by decide
      rw [String.length_ofList, List.length_append]
      omega
    · rw [String.toList_ofList, List.mem_append, not_or]
      exact ⟨uncut, by decide⟩
  refine ⟨before.map String.ofList, String.ofList last,
    String.ofList (last ++ ".inputs.sha256".toList), ?_, ?_⟩
  · rw [Path.pieces, whole]
    simp
  · have cut : (digestPathFor output).pieces = before.map String.ofList ++
        [String.ofList (last ++ ".inputs.sha256".toList)] := by
      rw [Path.pieces, digestPathFor, String.toList_append, extended]
      simp
    rw [Path.target_eq_reach, cut, Path.reach_append]
    simp only [Path.reach, List.filterMap_cons, List.filterMap_nil,
      Path.innerComponent_of_proper proper, List.foldl_cons, List.foldl_nil]
    rfl

/-- A place that the output avoids is not above its digest. -/
theorem not_inside_digest {output : Path} {location : Location}
    (avoids : output.Avoids location) :
    ¬Inside location (digestPathFor output).target := by
  rintro ⟨inside, different⟩
  obtain ⟨pieces, last, name, cut, target⟩ := target_digestPathFor output
  rw [target, List.prefix_concat_iff] at inside
  rcases inside with same | above
  · exact different (by rw [target, same])
  · rcases Path.passed_of_prefix pieces above with rfl | passed
    · exact avoids.target List.nil_prefix
    · refine avoids.passed ?_ List.prefix_rfl
      rw [cut, Path.passed_append [] pieces (List.cons_ne_nil _ _)]
      exact List.mem_append_left _ passed

/-! ## Runs that fail -/

def MadeBy (chain : Chain) (links : List Link) (location : Location) : Prop :=
  MadeForSome chain.scratchRoot links location ∨
    ∃ path, chain.digestPath = some path ∧
      location ∈ path.directory.places

/-- What a chain leaves behind that has completed some links and not the
others, of which it has at most begun the first. -/
structure Stopped (chain : Chain) (before after : FileTree)
    (results : List (Option Bytes)) (done left : List Link) : Prop where
  /-- The outputs of the completed links hold the new results. -/
  published : List.Forall₂ (Holds after) done results
  /-- The other outputs hold what they held. -/
  unpublished : ∀ link ∈ left, after.contentAt link.output.target =
    before.contentAt link.output.target
  /-- The digest is not recorded. -/
  unrecorded : ∀ path, chain.digestPath = some path →
    after.contentAt path.target = before.contentAt path.target
  /-- Outside the scratch directories nothing else has changed, except that
  directories were made. -/
  spared : ∀ location ∉ outputPlaces done,
    (∀ scratch ∈ scratchPlaces chain.scratchRoot (done ++ left.take 1),
      ¬scratch <+: location) →
    Kept (MadeBy chain (done ++ left.take 1)) before after location
  /-- No directory that a stage wrote into is left beside an output. -/
  discarded : ∀ link ∈ chain.links, ∀ name,
    after.node? (link.output.directory.target ++ [".retro-stage-" ++ name]) =
      some .directory →
    before.node? (link.output.directory.target ++ [".retro-stage-" ++ name]) =
        some .directory ∨
      MadeBy chain (done ++ left.take 1)
        (link.output.directory.target ++ [".retro-stage-" ++ name]) ∨
      ∃ scratch ∈ scratchPlaces chain.scratchRoot (done ++ left.take 1),
        scratch <+: link.output.directory.target ++ [".retro-stage-" ++ name]

section Failing

variable {chain : Chain} {done left : List Link}
  {results : List (Option Bytes)} {first second : FileTree}

/-- A change that spares all but the completed links' outputs leaves what a
stopped chain leaves. -/
theorem Stopped.of_replacesOnly (apart : Apart chain.scratchRoot chain.links)
    (digestApart : ∀ path, chain.digestPath = some path →
      path.target ∉ outputPlaces chain.links)
    (split : chain.links = done ++ left) (sound : first.Sound)
    (spares : ReplacesOnly (MadeBy chain (done ++ left.take 1))
      (scratchPlaces chain.scratchRoot (done ++ left.take 1))
      (outputPlaces done) first second)
    (held : List.Forall₂ (Holds second) done results) :
    Stopped chain first second results done left := by
  have triedSubset : done ++ left.take 1 ⊆ chain.links := by
    intro link member
    rw [split]
    rcases List.mem_append.1 member with inside | inside
    · exact List.mem_append_left _ inside
    · exact List.mem_append_right _ (List.mem_of_mem_take inside)
  have spared : ∀ location ∉ outputPlaces done,
      (∀ scratch ∈ scratchPlaces chain.scratchRoot (done ++ left.take 1),
        ¬scratch <+: location) →
      Kept (MadeBy chain (done ++ left.take 1)) first second location := by
    intro location notDone outside
    refine (spares.alters sound).2 location (not_or.2 ⟨?_, notDone⟩)
    rintro ⟨scratch, member, inside⟩
    exact outside scratch member inside
  refine ⟨held, ?_, ?_, spared, ?_⟩
  · intro link member
    refine apart.contentAt_output (by simp [split, member]) triedSubset ?_
      spares sound
    have distinct := apart.distinct
    rw [split, List.map_append, List.nodup_append] at distinct
    intro listed
    exact distinct.2.2 _ listed _ (List.mem_map.2 ⟨link, member, rfl⟩) rfl
  · intro path recorded
    refine spares.contents sound _ ?_ ?_
    · intro scratch member
      obtain ⟨other, listed, rfl⟩ := List.mem_map.1 member
      obtain ⟨output, final, rfl⟩ := Option.map_eq_some_iff.1 recorded
      obtain ⟨last, ends, rfl⟩ := Option.map_eq_some_iff.1 final
      exact not_inside_digest (apart.outside last
        (List.mem_of_getLast? ends) other (triedSubset listed))
    · intro listed
      refine digestApart path recorded ?_
      rw [split, outputPlaces, List.map_append]
      exact List.mem_append_left _ listed
  · intro link _ name directory
    by_cases inScratch :
        ∃ scratch ∈ scratchPlaces chain.scratchRoot (done ++ left.take 1),
          scratch <+: link.output.directory.target ++ [".retro-stage-" ++ name]
    · exact Or.inr (Or.inr inScratch)
    · have notDone : link.output.directory.target ++
          [".retro-stage-" ++ name] ∉ outputPlaces done := by
        intro listed
        obtain ⟨other, member, same⟩ := List.mem_map.1 listed
        obtain ⟨content, file⟩ := exists_content_of_held held member
        rw [contentAt, same, directory] at file
        cases file
      rcases spared _ notDone (by simpa using inScratch) with
        same | ⟨made, _⟩
      · exact Or.inl (same ▸ directory)
      · exact Or.inr (Or.inl made)

variable {now : Nat} {error : StageError} {later : Chain}

/-- A run that fails has not begun, because there are no links or the inputs
cannot be hashed, or has failed while it was executed. -/
theorem run_eq_error
    (ran : chain.run now before = (.error error, later, after)) :
    (chain.links = [] ∨ (chain.computeDigest before.tree).1 = .error error) ∧
        after = before ∨
      ∃ output digest, chain.finalOutput = some output ∧
        runFrom (chain.execute output digest) before =
          (.error error, after) := by
  unfold run at ran
  split at ran
  · rename_i final
    cases ran
    refine Or.inl ⟨Or.inl ?_, rfl⟩
    simpa [finalOutput] using final
  · rename_i output final
    unfold computeDigest at ran
    rcases hashed : (digestOf before.tree (chain.inputs before.tree)).run
      chain.memo with ⟨problem | digest, memo⟩
    · rw [hashed] at ran
      cases ran
      refine Or.inl ⟨Or.inr ?_, rfl⟩
      rw [computeDigest, hashed]
      rfl
    · rw [hashed] at ran
      dsimp only [Except.mapError] at ran
      split at ran
      · cases ran
      · split at ran
        · rename_i failed
          cases ran
          exact Or.inr ⟨output, digest, final, failed⟩
        · cases ran

theorem execute_eq_error {output : Path} {digest : Fingerprint}
    (ran : runFrom (chain.execute output digest) before =
      (.error error, after)) :
    runFrom (runLinks chain.scratchRoot chain.input chain.links) before =
        (.error error, after) ∨
      ∃ reached problem,
        runFrom (runLinks chain.scratchRoot chain.input chain.links) before =
          (.ok (), reached) ∧
        runFrom (Cache.atomicWrite (digestPathFor output)
            (Text.encode (digest.text ++ "\n"))) reached.tree =
          (.error problem, after.tree) := by
  unfold execute at ran
  rcases runFrom_bind_eq_error.1 ran with failed | ⟨_, reached, linked, rest⟩
  · exact Or.inl failed
  · refine Or.inr ⟨reached, ?_⟩
    rcases runFrom_bind_eq_error.1 rest with failed | ⟨_, written, _, ended⟩
    · rw [StageAction.runFrom_files] at failed
      rcases wrote : runFrom (Cache.atomicWrite (digestPathFor output)
        (Text.encode (digest.text ++ "\n"))) reached.tree with
        ⟨problem | _, tree⟩
      · rw [wrote] at failed
        cases failed
        exact ⟨problem, linked, rfl⟩
      · rw [wrote] at failed
        cases failed
    · split at ended
      · cases ended
      · cases ended

/-- A run that fails has not begun, or has failed at a link and leaves what the
links before it have made, or has failed to record the digest. -/
theorem run_stopped (apart : Apart chain.scratchRoot chain.links)
    (digestApart : ∀ path, chain.digestPath = some path →
      path.target ∉ outputPlaces chain.links)
    (sound : before.tree.Sound)
    (ran : chain.run now before = (.error error, later, after)) :
    (chain.links = [] ∨ (chain.computeDigest before.tree).1 = .error error) ∧
        after = before ∨
      (∃ done link rest, chain.links = done ++ link :: rest ∧
        FailsAt chain.scratchRoot chain.input done link error before after ∧
        Stopped chain before.tree after.tree
          (products chain.scratchRoot chain.input done before) done
          (link :: rest)) ∨
      ∃ reached,
        runFrom (runLinks chain.scratchRoot chain.input chain.links) before =
          (.ok (), reached) ∧
        Stopped chain before.tree after.tree
          (products chain.scratchRoot chain.input chain.links before)
          chain.links [] := by
  rcases run_eq_error ran with same | ⟨output, digest, final, executed⟩
  · exact Or.inl same
  · refine Or.inr ?_
    rcases execute_eq_error executed with failed | ⟨reached, problem, linked, wrote⟩
    · obtain ⟨done, left, split, spares, held, outcome⟩ :=
        runLinks_cases apart sound failed
      rcases outcome with ⟨done, _⟩ | ⟨_, link, rest, same, rfl, fails⟩
      · cases done
      · cases same
        refine Or.inl ⟨done, link, rest, split, fails, ?_⟩
        refine Stopped.of_replacesOnly apart digestApart split sound ?_ held
        exact spares.mono (fun _ => Or.inl) (List.Subset.refl _)
          (List.Subset.refl _)
    · obtain ⟨done, left, split, spares, held, outcome⟩ :=
        runLinks_cases apart sound linked
      rcases outcome with ⟨_, rfl⟩ | ⟨_, _, _, impossible, _⟩
      · rw [List.append_nil] at split
        subst split
        have reachedSound := (spares.alters sound).1
        have extended : Extends (MadeBy chain (chain.links ++ [].take 1))
            reached.tree after.tree := by
          obtain ⟨_, extended⟩ := (Cache.atomicWrite_cases reachedSound
            wrote).resolve_right (fun ⟨impossible, _⟩ => by cases impossible)
          refine extended.mono (fun location made => ?_) fun _ => id
          exact Or.inr ⟨digestPathFor output, by rw [digestPath, final]; rfl,
            made⟩
        refine Or.inr ⟨reached, linked, ?_⟩
        refine Stopped.of_replacesOnly apart digestApart (List.append_nil _).symm
          sound ?_ ?_
        · exact (spares.mono (fun _ => Or.inl) (List.Subset.refl _)
            (List.Subset.refl _)).trans (ReplacesOnly.of_extends extended)
        · refine held.imp fun link content holds => ⟨holds.1, ?_⟩
          rw [((extended reachedSound).2 _ not_false).contentAt_eq, holds.2]
      · cases impossible

end Failing

/-! ## A chain that fails at its second link -/

def writingStage (name : String) (content : Bytes) (fails : Bool) : Stage where
  name := name
  inputs := fun _ => []
  run := fun paths => do
    StageAction.change paths.output (·.writeBytes paths.output content)
    if fails then throw (.missingSetting name)

theorem writingStage_confined (name : String) (content : Bytes)
    (fails : Bool) : (writingStage name content fails).Confined := by
  intro paths before _
  have wrote : ∀ {tree : FileTree},
      before.tree.writeBytes paths.output content = .ok tree →
      Alters (fun _ => False)
        (fun location => Inside paths.output.target.dropLast location ∨
          Inside paths.scratch.target location) before.tree tree := by
    intro tree written
    refine (alters_writeBytes _ written).mono (fun _ => id) ?_
    rintro location rfl
    obtain ⟨_, _, above, last, _, _, target⟩ := writeBytes_eq_ok written
    rw [target, List.dropLast_concat]
    exact Or.inl ⟨List.prefix_append _ _, by simp⟩
  unfold writingStage
  dsimp only
  rw [runFrom_bind, StageAction.runFrom_change]
  cases written : before.tree.writeBytes paths.output content with
  | error problem => exact Alters.refl _ _ _
  | ok tree =>
      cases fails
      · exact wrote written
      · exact wrote written

/-- Outputs of an earlier run, and its digest. -/
def earlierOutputs : FileTree :=
  { nodes := [(["out"], .directory), (["out", "first"], .file [1] 0 0),
      (["out", "third"], .file [3] 1 1),
      (["out", "third.inputs.sha256"], .file [4] 2 2)]
    clock := 3 }

def failingChain : Chain where
  input := none
  links :=
    [{ stage := writingStage "first" [10] false, output := ⟨"out/first"⟩ },
      { stage := writingStage "second" [20] true, output := ⟨"out/second"⟩ },
      { stage := writingStage "third" [30] false, output := ⟨"out/third"⟩ }]
  scratchRoot := ⟨"tmp"⟩

private theorem failingChain_apart :
    Apart failingChain.scratchRoot failingChain.links where
  confined := by
    intro link member
    simp only [failingChain, List.mem_cons, List.not_mem_nil, or_false] at member
    rcases member with rfl | rfl | rfl <;> exact writingStage_confined _ _ _
  outside := by decide
  distinct := by decide

/-- The digest of an earlier run is still there when a later run has failed. -/
theorem run_stopped_sample :
    ∃ error later after,
      failingChain.run 0 ⟨earlierOutputs, []⟩ = (.error error, later, after) ∧
        after.tree.contentAt ["out", "third.inputs.sha256"] = some [4] := by
  have recorded : failingChain.digestPath =
      some ⟨"out/third.inputs.sha256"⟩ := by decide
  have place : (⟨"out/third.inputs.sha256"⟩ : Path).target =
      ["out", "third.inputs.sha256"] := by decide
  have there : earlierOutputs.contentAt ["out", "third.inputs.sha256"] =
      some [4] := by decide
  have apart : ∀ path, failingChain.digestPath = some path →
      path.target ∉ outputPlaces failingChain.links := by
    rw [recorded]
    rintro path ⟨⟩
    decide
  have fails : (failingChain.run 0 ⟨earlierOutputs, []⟩).1.toBool = false := by
    decide +kernel
  rcases ran : failingChain.run 0 ⟨earlierOutputs, []⟩ with
    ⟨error | report, later, after⟩
  · refine ⟨error, later, after, rfl, ?_⟩
    rcases run_stopped failingChain_apart apart (by decide) ran with
      ⟨_, rfl⟩ | ⟨_, _, _, _, _, stopped⟩ | ⟨_, _, stopped⟩
    · exact there
    · rw [← place, stopped.unrecorded _ recorded, place]
      exact there
    · rw [← place, stopped.unrecorded _ recorded, place]
      exact there
  · rw [ran] at fails
    cases fails

/-- The output of the second link is the directory of the first one's. -/
def nestedChain : Chain where
  input := none
  links :=
    [{ stage := writingStage "first" [10] true, output := ⟨"a/b"⟩ },
      { stage := writingStage "second" [20] false, output := ⟨"a"⟩ }]
  scratchRoot := ⟨"tmp"⟩

/-- When the first link fails, there was nothing at the output of the second one
and there is a directory now. -/
theorem directory_at_later_output :
    (Apart nestedChain.scratchRoot nestedChain.links ∧
      (∀ path, nestedChain.digestPath = some path →
        path.target ∉ outputPlaces nestedChain.links) ∧
      ({} : FileTree).Sound) ∧
    (∀ first ∈ nestedChain.links.head?,
      (runFrom (runLink nestedChain.scratchRoot first nestedChain.input)
        ⟨{}, []⟩).1.toBool = false) ∧
    ∃ error later after,
      nestedChain.run 0 ⟨{}, []⟩ = (.error error, later, after) ∧
        ∀ second ∈ nestedChain.links.getLast?,
          ({} : FileTree).node? second.output.target = none ∧
          after.tree.node? second.output.target = some .directory := by
  have apart : Apart nestedChain.scratchRoot nestedChain.links := by
    refine ⟨?_, by decide, by decide⟩
    intro link member
    simp only [nestedChain, List.mem_cons, List.not_mem_nil, or_false] at member
    rcases member with rfl | rfl <;> exact writingStage_confined _ _ _
  have recorded : nestedChain.digestPath = some ⟨"a.inputs.sha256"⟩ := by
    decide
  have fails : (nestedChain.run 0 ⟨{}, []⟩).1.toBool = false := by
    decide +kernel
  have made : ∀ second ∈ nestedChain.links.getLast?,
      ({} : FileTree).node? second.output.target = none ∧
      (nestedChain.run 0 ⟨{}, []⟩).2.2.tree.node? second.output.target =
        some .directory := by
    rintro second ⟨⟩
    decide +kernel
  refine ⟨⟨apart, ?_, by decide⟩, ?_, ?_⟩
  · rw [recorded]
    rintro path ⟨⟩
    decide
  · rintro first ⟨⟩
    decide +kernel
  · rcases ran : nestedChain.run 0 ⟨{}, []⟩ with ⟨error | report, later, after⟩
    · rw [ran] at made
      exact ⟨error, later, after, rfl, made⟩
    · rw [ran] at fails
      cases fails

end Deobfuscate.Chain
