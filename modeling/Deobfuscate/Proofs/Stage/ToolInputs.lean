import Deobfuscate.Proofs.Digest.Stream
import Deobfuscate.Proofs.Text.Replace
import Deobfuscate.Stage.ExternalTool
import Mathlib.Data.List.Perm.Subperm

/-!
# What the digest of a tool says about its command

The digest of a tool determines its arguments, the arguments repeated for each
further file, its environment, and the hashes of the further files in path
order.  It does not determine in which order the files are given, or how often:
the command repeats its arguments in the order of the settings.
-/

namespace Deobfuscate

theorem resolves_append_iff {tree : FileTree} {first second : List HashInput}
    {values : List InputValue} :
    Resolves tree (first ++ second) values ↔
      ∃ left right, Resolves tree first left ∧ Resolves tree second right ∧
        values = left ++ right := by
  induction first generalizing values with
  | nil =>
      constructor
      · intro resolves
        exact ⟨[], values, .nil, resolves, rfl⟩
      · rintro ⟨left, right, nothing, resolves, rfl⟩
        cases nothing
        exact resolves
  | cons input rest inductionHypothesis =>
      constructor
      · intro resolves
        cases resolves with
        | cons denoted later =>
            obtain ⟨left, right, resolvesLeft, resolvesRight, rfl⟩ :=
              inductionHypothesis.1 later
            exact ⟨_ :: left, right, .cons denoted resolvesLeft,
              resolvesRight, rfl⟩
      · rintro ⟨left, right, resolvesLeft, resolvesRight, rfl⟩
        cases resolvesLeft with
        | cons denoted later =>
            exact .cons denoted
              (inductionHypothesis.2 ⟨_, right, later, resolvesRight, rfl⟩)

theorem resolves_texts_iff {tree : FileTree} {texts : List String}
    {values : List InputValue} :
    Resolves tree (texts.map .text) values ↔
      values = texts.map .text := by
  have resolves : Resolves tree (texts.map .text) (texts.map .text) := by
    induction texts with
    | nil =>
        exact .nil
    | cons text rest inductionHypothesis =>
        exact .cons (.text text) inductionHypothesis
  constructor
  · intro others
    exact HashInput.resolves_unique others resolves
  · rintro rfl
    exact resolves

/-- Texts are told apart from what follows them if that is no text. -/
theorem texts_append_inj {left right : List String}
    {leftNext rightNext : InputValue} {leftRest rightRest : List InputValue}
    (leftEnds : ∀ text, leftNext ≠ .text text)
    (rightEnds : ∀ text, rightNext ≠ .text text)
    (same : left.map .text ++ leftNext :: leftRest =
      right.map .text ++ rightNext :: rightRest) :
    left = right ∧ leftNext = rightNext ∧ leftRest = rightRest := by
  induction left generalizing right with
  | nil =>
      cases right with
      | nil => exact ⟨rfl, List.cons.inj same⟩
      | cons text _ => exact absurd (List.cons.inj same).1 (leftEnds text)
  | cons text rest inductionHypothesis =>
      cases right with
      | nil => exact absurd (List.cons.inj same).1.symm (rightEnds text)
      | cons other others =>
          obtain ⟨sameText, later⟩ := List.cons.inj same
          obtain ⟨sameRest, ends⟩ := inductionHypothesis later
          injection sameText with equal
          exact ⟨by rw [equal, sameRest], ends⟩

namespace ExternalTool

/-- The names and values of an environment, one after another. -/
def environmentTexts (environment : Dict String) : List String :=
  environment.toList.flatMap fun binding => [binding.1, binding.2]

theorem environmentTexts_injective {left right : Dict String}
    (same : environmentTexts left = environmentTexts right) :
    left = right := by
  apply Dict.toList_injective
  unfold environmentTexts at same
  generalize left.toList = leftBindings at same ⊢
  generalize right.toList = rightBindings at same ⊢
  induction leftBindings generalizing rightBindings with
  | nil =>
      cases rightBindings with
      | nil => rfl
      | cons _ _ => simp at same
  | cons binding rest inductionHypothesis =>
      cases rightBindings with
      | nil => simp at same
      | cons other others =>
          simp only [List.flatMap_cons, List.cons_append, List.nil_append,
            List.cons.injEq] at same
          obtain ⟨sameName, sameValue, later⟩ := same
          rw [Prod.ext sameName sameValue, inductionHypothesis _ later]

def values (tool : ToolSettings) (copies : Bool) (program : InputValue)
    (hashes : List Bytes) : List InputValue :=
  program :: .int64 (Int64.ofNat tool.arguments.length) ::
    (tool.arguments.map .text ++
      .int64 (Int64.ofNat tool.argumentsPerInput.length) ::
        (tool.argumentsPerInput.map .text ++
          .files hashes ::
            ((environmentTexts tool.environment).map .text ++
              [.bool copies])))

/-- The inputs of a tool, in the same grouping. -/
theorem inputs_eq (tool : ToolSettings) (copies : Bool) (tree : FileTree) :
    inputs tool copies tree =
      programInput tree tool.program ::
        .int64 (Int64.ofNat tool.arguments.length) ::
          (tool.arguments.map .text ++
            .int64 (Int64.ofNat tool.argumentsPerInput.length) ::
              (tool.argumentsPerInput.map .text ++
                .files tool.inputs ::
                  ((environmentTexts tool.environment).map .text ++
                    [.bool copies]))) := by
  simp [inputs, countedTexts, environmentTexts, List.map_flatMap]

theorem resolves_texts_append {tree : FileTree} {texts : List String}
    {rest : List HashInput} {resolved : List InputValue} :
    Resolves tree (texts.map .text ++ rest) resolved ↔
      ∃ later, Resolves tree rest later ∧
        resolved = texts.map .text ++ later := by
  rw [resolves_append_iff]
  constructor
  · rintro ⟨_, later, texts, resolves, rfl⟩
    rw [resolves_texts_iff.1 texts]
    exact ⟨later, resolves, rfl⟩
  · rintro ⟨later, resolves, rfl⟩
    exact ⟨_, later, resolves_texts_iff.2 rfl, resolves, rfl⟩

theorem resolves_inputs_iff {tree : FileTree} {tool : ToolSettings}
    {copies : Bool} {resolved : List InputValue} :
    Resolves tree (inputs tool copies tree) resolved ↔
      ∃ program hashes,
        (programInput tree tool.program).Denotes tree program ∧
        (HashInput.files tool.inputs).Denotes tree (.files hashes) ∧
        resolved = values tool copies program hashes := by
  rw [inputs_eq]
  constructor
  · rintro (_ | ⟨program, _ | ⟨⟨⟩, afterCount⟩⟩)
    obtain ⟨_, _ | ⟨⟨⟩, afterSecond⟩, rfl⟩ := resolves_texts_append.1 afterCount
    obtain ⟨_, _ | ⟨files, afterFiles⟩, rfl⟩ :=
      resolves_texts_append.1 afterSecond
    obtain ⟨_, _ | ⟨⟨⟩, ⟨⟩⟩, rfl⟩ := resolves_texts_append.1 afterFiles
    cases files with
    | files enumerates hashed =>
        exact ⟨_, _, program, .files enumerates hashed, rfl⟩
  · rintro ⟨program, hashes, denoted, files, rfl⟩
    refine .cons denoted (.cons (.int64 _) (resolves_texts_append.2 ⟨_, ?_, rfl⟩))
    refine .cons (.int64 _) (resolves_texts_append.2 ⟨_, ?_, rfl⟩)
    refine .cons files (resolves_texts_append.2 ⟨_, ?_, rfl⟩)
    exact .cons (.bool copies) .nil

/-- The values of a tool's inputs determine everything but the paths of its
further files. -/
theorem values_injective {left right : ToolSettings}
    {leftCopies rightCopies : Bool} {leftProgram rightProgram : InputValue}
    {leftHashes rightHashes : List Bytes}
    (same : values left leftCopies leftProgram leftHashes =
      values right rightCopies rightProgram rightHashes) :
    left.arguments = right.arguments ∧
      left.argumentsPerInput = right.argumentsPerInput ∧
      leftHashes = rightHashes ∧
      left.environment = right.environment ∧
      leftCopies = rightCopies := by
  -- Every list of texts ends at a value that is no text, so the counts before
  -- the lists are not needed to tell where they end.
  unfold values at same
  obtain ⟨_, afterProgram⟩ := List.cons.inj same
  obtain ⟨_, afterCount⟩ := List.cons.inj afterProgram
  obtain ⟨sameArguments, _, afterArguments⟩ :=
    texts_append_inj (by simp) (by simp) afterCount
  obtain ⟨samePerInput, sameFiles, afterFiles⟩ :=
    texts_append_inj (by simp) (by simp) afterArguments
  obtain ⟨sameEnvironment, sameCopies, _⟩ :=
    texts_append_inj (by simp) (by simp) afterFiles
  refine ⟨sameArguments, samePerInput, ?_, ?_, ?_⟩
  · exact InputValue.files.inj sameFiles
  · exact environmentTexts_injective sameEnvironment
  · exact InputValue.bool.inj sameCopies

/-! ## Sizes -/

/-- The texts of a tool's settings and the number of its further files fit into
eight bytes. -/
structure Fits (tool : ToolSettings) : Prop where
  program : (Text.encode tool.program.text).length < lengthLimit
  arguments : ∀ text ∈ tool.arguments,
    (Text.encode text).length < lengthLimit
  argumentsPerInput : ∀ text ∈ tool.argumentsPerInput,
    (Text.encode text).length < lengthLimit
  files : tool.inputs.length < lengthLimit
  environment : ∀ text ∈ environmentTexts tool.environment,
    (Text.encode text).length < lengthLimit

theorem length_le_of_enumerates {listed paths : List Path}
    (enumerates : Path.Enumerates listed paths) :
    listed.length ≤ paths.length := by
  have distinct : listed.Nodup := by
    refine enumerates.increasing.imp ?_
    intro first second before same
    exact Path.components_ne_of_less before (by rw [same])
  have inside : listed ⊆ paths := fun _ member => enumerates.subset member
  exact (List.subperm_of_subset distinct inside).length_le

theorem values_fit {tree : FileTree} {tool : ToolSettings} {copies : Bool}
    {program : InputValue} {hashes : List Bytes} (fits : Fits tool)
    (denoted : (programInput tree tool.program).Denotes tree program)
    (files : (HashInput.files tool.inputs).Denotes tree (.files hashes)) :
    ∀ value ∈ values tool copies program hashes, value.Fits := by
  have programFits : program.Fits := by
    unfold programInput at denoted
    split at denoted
    · cases denoted
      trivial
    · cases denoted
      exact fits.program
  have hashesFit : hashes.length < lengthLimit := by
    cases files with
    | files enumerates hashed =>
        rw [← hashed.length_eq]
        exact Nat.lt_of_le_of_lt (length_le_of_enumerates enumerates) fits.files
  have textsFit : ∀ {texts : List String},
      (∀ text ∈ texts, (Text.encode text).length < lengthLimit) →
      ∀ value ∈ texts.map InputValue.text, value.Fits := by
    intro texts short value member
    obtain ⟨text, inside, rfl⟩ := List.mem_map.1 member
    exact short text inside
  intro value member
  simp only [values, List.mem_cons, List.mem_append, List.not_mem_nil,
    or_false] at member
  rcases member with rfl | rfl | member | rfl | member | rfl | member | rfl
  · exact programFits
  · trivial
  · exact textsFit fits.arguments value member
  · trivial
  · exact textsFit fits.argumentsPerInput value member
  · exact hashesFit
  · exact textsFit fits.environment value member
  · trivial

/-- A template with the placeholders of a run replaced, but not that of a
further file. -/
def filled (paths : StagePaths) (template : String) : List Char :=
  (bindings paths).foldl expandOne template.toList

/-- The arguments for a further file tell which file it is. -/
def MentionsFile (tool : ToolSettings) (paths : StagePaths) : Prop :=
  ∃ template ∈ tool.argumentsPerInput,
    placeholder "file" <:+: filled paths template

theorem fileArguments_eq (tool : ToolSettings) (paths : StagePaths)
    (file : Path) :
    fileArguments tool paths file =
      tool.argumentsPerInput.map fun template =>
        String.ofList (Text.replaceAll (placeholder "file") file.text.toList
          (filled paths template)) := by
  simp [fileArguments, expandPlaceholders, expandArgument, expandOne, filled,
    List.foldl_append]

theorem length_fileArguments (tool : ToolSettings) (paths : StagePaths)
    (file : Path) :
    (fileArguments tool paths file).length =
      tool.argumentsPerInput.length := by
  rw [fileArguments_eq, List.length_map]

theorem fileArguments_eq_iff {tool : ToolSettings} {paths : StagePaths}
    {left right : Path} :
    fileArguments tool paths left = fileArguments tool paths right ↔
      (MentionsFile tool paths → left = right) := by
  have nonempty : placeholder "file" ≠ [] := List.cons_ne_nil _ _
  rw [fileArguments_eq, fileArguments_eq, List.map_inj_left]
  constructor
  · rintro same ⟨template, member, occurs⟩
    have replaced := String.ofList_injective (same template member)
    have spelled := (Text.replaceAll_eq_iff nonempty).1 replaced occurs
    have text : left.text = right.text := String.toList_injective spelled
    cases left
    cases right
    cases text
    rfl
  · intro equal template member
    refine congrArg String.ofList ((Text.replaceAll_eq_iff nonempty).2 ?_)
    intro occurs
    rw [equal ⟨template, member, occurs⟩]

/-- Repeated arguments are the same when they are for each file in turn. -/
theorem flatMap_fileArguments_eq_iff {tool : ToolSettings}
    {paths : StagePaths} (repeated : tool.argumentsPerInput ≠ [])
    {left right : List Path} :
    left.flatMap (fileArguments tool paths) =
        right.flatMap (fileArguments tool paths) ↔
      List.Forall₂ (fun leftFile rightFile =>
        MentionsFile tool paths → leftFile = rightFile) left right := by
  have some : 0 < tool.argumentsPerInput.length :=
    List.length_pos_iff.2 repeated
  have nothing : ∀ {file : Path} {rest : List String},
      ¬[] = fileArguments tool paths file ++ rest := by
    intro file rest empty
    have length := congrArg List.length empty
    rw [List.length_append, length_fileArguments] at length
    simp only [List.length_nil] at length
    omega
  induction left generalizing right with
  | nil =>
      cases right with
      | nil => simp
      | cons file rest =>
          simp only [List.flatMap_nil, List.flatMap_cons, nothing, false_iff]
          intro impossible
          cases impossible
  | cons file rest inductionHypothesis =>
      cases right with
      | nil =>
          simp only [List.flatMap_nil, List.flatMap_cons, eq_comm, nothing,
            false_iff]
          intro impossible
          cases impossible
      | cons other others =>
          rw [List.flatMap_cons, List.flatMap_cons, List.forall₂_cons]
          constructor
          · intro same
            obtain ⟨first, later⟩ :=
              List.append_inj same (by simp only [length_fileArguments])
            exact ⟨fileArguments_eq_iff.1 first, inductionHypothesis.1 later⟩
          · rintro ⟨first, later⟩
            rw [fileArguments_eq_iff.2 first, inductionHypothesis.2 later]

/-- Two paths are the same or lead to files with the same bytes. -/
def SameBytes (tree : FileTree) (left right : Path) : Prop :=
  left = right ∨
    ∃ content, tree.readBytes left = .ok content ∧
      tree.readBytes right = .ok content

/-- A command is that of another tool with further files replaced by files with
the same bytes. -/
def Agrees (tree : FileTree) (paths : StagePaths)
    (left right : ToolSettings) : Prop :=
  ∃ replaced, List.Forall₂ (SameBytes tree) left.inputs replaced ∧
    command right paths = command { left with inputs := replaced } paths

theorem sameBytes_refl (tree : FileTree) (files : List Path) :
    List.Forall₂ (SameBytes tree) files files :=
  List.forall₂_same.2 fun _ _ => Or.inl rfl

section Agrees

variable {tree : FileTree} {paths : StagePaths} {left right : ToolSettings}
  (sameProgram : left.program = right.program)
  (sameArguments : left.arguments = right.arguments)
  (samePerInput : left.argumentsPerInput = right.argumentsPerInput)
  (sameEnvironment : left.environment = right.environment)

include sameProgram sameArguments samePerInput sameEnvironment

theorem agrees_iff_exists :
    Agrees tree paths left right ↔
      ∃ replaced, List.Forall₂ (SameBytes tree) left.inputs replaced ∧
        right.inputs.flatMap (fileArguments left paths) =
          replaced.flatMap (fileArguments left paths) := by
  have sameFiles : fileArguments right paths = fileArguments left paths := by
    funext file
    rw [fileArguments, fileArguments, samePerInput]
  refine exists_congr fun replaced => and_congr_right fun _ => ?_
  have unchanged : fileArguments { left with inputs := replaced } paths =
      fileArguments left paths := rfl
  rw [command, command, unchanged, sameFiles]
  simp [sameProgram, sameArguments, sameEnvironment]

/-- Two tools with the same settings but for their further files agree exactly
when the files are as many, and have the same bytes one by one if the arguments
mention them. -/
theorem agrees_iff :
    Agrees tree paths left right ↔
      left.argumentsPerInput = [] ∨
        left.inputs.length = right.inputs.length ∧
          (MentionsFile left paths →
            List.Forall₂ (SameBytes tree) left.inputs right.inputs) := by
  rw [agrees_iff_exists sameProgram sameArguments samePerInput sameEnvironment]
  by_cases repeated : left.argumentsPerInput = []
  · have nothing : ∀ files : List Path,
        files.flatMap (fileArguments left paths) = [] := by
      intro files
      refine List.flatMap_eq_nil_iff.2 fun file _ => ?_
      rw [fileArguments_eq, repeated, List.map_nil]
    refine iff_of_true ?_ (Or.inl repeated)
    refine ⟨left.inputs, sameBytes_refl tree left.inputs, ?_⟩
    rw [nothing, nothing]
  · simp only [repeated, false_or, flatMap_fileArguments_eq_iff repeated]
    constructor
    · rintro ⟨replaced, same, repeats⟩
      refine ⟨same.length_eq.trans repeats.length_eq.symm, ?_⟩
      intro mentions
      have equal : right.inputs = replaced := by
        have pointwise := repeats.imp fun _ _ agree => agree mentions
        rwa [List.forall₂_eq_eq_eq] at pointwise
      rw [equal]
      exact same
    · rintro ⟨lengths, same⟩
      by_cases mentions : MentionsFile left paths
      · refine ⟨right.inputs, same mentions, ?_⟩
        exact List.forall₂_same.2 fun _ _ _ => rfl
      · -- Without a mention, as many files give the same arguments.
        refine ⟨left.inputs, sameBytes_refl tree left.inputs, ?_⟩
        refine List.forall₂_iff_zip.2 ⟨lengths.symm, ?_⟩
        intro _ _ _ mentioned
        exact absurd mentioned mentions

end Agrees

/-! ## The digest and the command -/

/-- Files of the tree with the same hash have the same bytes. -/
def CollisionFree (tree : FileTree) : Prop :=
  ∀ leftPath rightPath left right, tree.readBytes leftPath = .ok left →
    tree.readBytes rightPath = .ok right →
    Sha256.hash left = Sha256.hash right → left = right

theorem sameBytes_of_hashes {tree : FileTree} (free : CollisionFree tree)
    {left right : List Path} {hashes : List Bytes}
    (leftHashed : List.Forall₂ tree.HashesTo left hashes)
    (rightHashed : List.Forall₂ tree.HashesTo right hashes) :
    List.Forall₂ (SameBytes tree) left right := by
  induction leftHashed generalizing right with
  | nil =>
      cases rightHashed
      exact .nil
  | cons leftHash _ inductionHypothesis =>
      cases rightHashed with
      | cons rightHash later =>
          obtain ⟨leftContent, leftRead, rfl⟩ := leftHash
          obtain ⟨rightContent, rightRead, hash⟩ := rightHash
          have same := free _ _ _ _ leftRead rightRead hash
          refine .cons (Or.inr ⟨leftContent, leftRead, ?_⟩)
            (inductionHypothesis later)
          rw [same]
          exact rightRead

/-- The hashes of files that are given in path order are those of the files one
by one. -/
theorem hashes_of_increasing {tree : FileTree} {files : List Path}
    {hashes : List Bytes} (increasing : Path.Increasing files)
    (denoted : (HashInput.files files).Denotes tree (.files hashes)) :
    List.Forall₂ tree.HashesTo files hashes := by
  cases denoted with
  | files enumerates hashed =>
      rwa [enumerates.unique increasing.enumerates] at hashed

/-- Tools that are fed to the digest alike, and have the same program, have the
same arguments, environment and hashes of further files.  Their commands agree
exactly when the files are as many, and have the same bytes one by one if the
arguments mention them; so they do if both give their files in path order. -/
theorem sameStream_agrees_iff {tree : FileTree} {leftMemo rightMemo : Memo}
    (formed : tree.WellFormed) (leftFaithful : leftMemo.Faithful tree)
    (rightFaithful : rightMemo.Faithful tree) {left right : ToolSettings}
    {leftCopies rightCopies : Bool} (leftFits : Fits left)
    (rightFits : Fits right) {stream : Bytes}
    (leftRan : ((digestStream tree (inputs left leftCopies tree)).run
      leftMemo).1 = .ok stream)
    (rightRan : ((digestStream tree (inputs right rightCopies tree)).run
      rightMemo).1 = .ok stream)
    (sameProgram : left.program = right.program) (paths : StagePaths) :
    (left.arguments = right.arguments ∧
      left.argumentsPerInput = right.argumentsPerInput ∧
      left.environment = right.environment ∧
      leftCopies = rightCopies ∧
      ∃ hashes,
        (HashInput.files left.inputs).Denotes tree (.files hashes) ∧
        (HashInput.files right.inputs).Denotes tree (.files hashes)) ∧
    (Agrees tree paths left right ↔
      left.argumentsPerInput = [] ∨
        left.inputs.length = right.inputs.length ∧
          (MentionsFile left paths →
            List.Forall₂ (SameBytes tree) left.inputs right.inputs)) ∧
    (CollisionFree tree → Path.Increasing left.inputs →
      Path.Increasing right.inputs → Agrees tree paths left right) := by
  obtain ⟨_, leftResolves, leftFramed⟩ :=
    (digestStream_eq_ok formed leftFaithful).1 leftRan
  obtain ⟨_, rightResolves, rightFramed⟩ :=
    (digestStream_eq_ok formed rightFaithful).1 rightRan
  obtain ⟨leftProgram, leftHashes, leftDenoted, leftFiles, rfl⟩ :=
    resolves_inputs_iff.1 leftResolves
  obtain ⟨rightProgram, rightHashes, rightDenoted, rightFiles, rfl⟩ :=
    resolves_inputs_iff.1 rightResolves
  have sameValues := frame_values_injective leftResolves rightResolves
    (values_fit leftFits leftDenoted leftFiles)
    (values_fit rightFits rightDenoted rightFiles)
    (leftFramed.symm.trans rightFramed)
  obtain ⟨sameArguments, samePerInput, rfl, sameEnvironment, sameCopies⟩ :=
    values_injective sameValues
  have condition : Agrees tree paths left right ↔ _ :=
    agrees_iff sameProgram sameArguments samePerInput sameEnvironment
  refine ⟨⟨sameArguments, samePerInput, sameEnvironment, sameCopies,
    leftHashes, leftFiles, rightFiles⟩, condition, ?_⟩
  intro free leftIncreasing rightIncreasing
  have same := sameBytes_of_hashes free
    (hashes_of_increasing leftIncreasing leftFiles)
    (hashes_of_increasing rightIncreasing rightFiles)
  exact condition.2 (Or.inr ⟨same.length_eq, fun _ => same⟩)

/-- Two configurations, and a copy of the first one. -/
def configTree : FileTree :=
  { nodes := [(["a"], .file [65] 0 0), (["aa"], .file [65] 1 1),
      (["b"], .file [66] 2 2)] }

/-- A tool that is given configurations in turn. -/
def configTool (files : List Path) : ToolSettings where
  program := ⟨"sh"⟩
  inputs := files
  argumentsPerInput := ["--cfg={file}"]

def configPaths : StagePaths where
  input := none
  output := ⟨"out"⟩
  scratch := ⟨"tmp"⟩

def configStream (hashes : List Bytes) : Bytes :=
  frameInputs ((values (configTool []) false (.text "sh") hashes).map
    InputValue.resolved)

private theorem configTool_ran {files listed : List Path}
    {hashes : List Bytes} (sorted : Path.sortDistinct files = listed)
    (hashed : List.Forall₂ configTree.HashesTo listed hashes) :
    ((digestStream configTree
      (inputs (configTool files) false configTree)).run {}).1 =
        .ok (configStream hashes) := by
  have formed : configTree.WellFormed := by decide
  have program : (programInput configTree ⟨"sh"⟩).Denotes configTree
      (.text "sh") := .text "sh"
  have enumerates := Path.enumerates_sortDistinct files
  rw [sorted] at enumerates
  refine (digestStream_eq_ok formed (Memo.faithful_empty _)).2 ⟨_, ?_, rfl⟩
  exact resolves_inputs_iff.2
    ⟨_, _, program, .files enumerates hashed, rfl⟩

private theorem configTool_fits (first second : Path) :
    Fits (configTool [first, second]) where
  program := by
    have short : (Text.encode "sh").length < lengthLimit := by decide
    exact short
  arguments := fun _ member => absurd member List.not_mem_nil
  argumentsPerInput := by
    intro text member
    rw [List.mem_singleton.1 member]
    decide
  files := by simp [configTool, lengthLimit]
  environment := fun _ member => absurd member List.not_mem_nil

private theorem configs_hashed {first : Path}
    (read : configTree.readBytes first = .ok [65]) :
    List.Forall₂ configTree.HashesTo [first, ⟨"b"⟩]
      [Sha256.hash [65], Sha256.hash [66]] :=
  .cons ⟨[65], read, rfl⟩ (.cons ⟨[66], rfl, rfl⟩ .nil)

private theorem configTool_mentions (files : List Path) :
    MentionsFile (configTool files) configPaths := by
  refine ⟨"--cfg={file}", by simp [configTool], ?_⟩
  have whole : filled configPaths "--cfg={file}" =
      "--cfg=".toList ++ placeholder "file" := by decide
  rw [whole]
  exact (List.suffix_append _ _).isInfix

private theorem not_sameBytes : ¬SameBytes configTree ⟨"a"⟩ ⟨"b"⟩ := by
  have first : configTree.readBytes ⟨"a"⟩ = .ok [65] := rfl
  have second : configTree.readBytes ⟨"b"⟩ = .ok [66] := rfl
  rintro (same | ⟨content, leftRead, rightRead⟩)
  · exact absurd same (by decide)
  · rw [first] at leftRead
    rw [second, ← leftRead] at rightRead
    exact absurd (Except.ok.inj rightRead) (by decide)

/-- Given in two orders, configurations with different bytes are fed to the
digest alike, but the commands do not agree. -/
theorem swapped_files_undigested :
    ∃ stream,
      ((digestStream configTree
        (inputs (configTool [⟨"a"⟩, ⟨"b"⟩]) false configTree)).run {}).1 =
          .ok stream ∧
      ((digestStream configTree
        (inputs (configTool [⟨"b"⟩, ⟨"a"⟩]) false configTree)).run {}).1 =
          .ok stream ∧
      ¬Agrees configTree configPaths (configTool [⟨"a"⟩, ⟨"b"⟩])
        (configTool [⟨"b"⟩, ⟨"a"⟩]) := by
  have hashed : List.Forall₂ configTree.HashesTo [⟨"a"⟩, ⟨"b"⟩] _ :=
    configs_hashed rfl
  refine ⟨_, configTool_ran (by decide) hashed,
    configTool_ran (by decide) hashed, ?_⟩
  have condition : Agrees configTree configPaths
      (configTool [⟨"a"⟩, ⟨"b"⟩]) (configTool [⟨"b"⟩, ⟨"a"⟩]) ↔ _ :=
    agrees_iff rfl rfl rfl rfl
  rw [condition]
  rintro (nothing | ⟨_, pointwise⟩)
  · exact absurd nothing (List.cons_ne_nil _ _)
  · cases pointwise (configTool_mentions _) with
    | cons first _ => exact not_sameBytes first

/-- A copy of a configuration may take its place. -/
theorem sameStream_agrees_iff_copied :
    Agrees configTree configPaths (configTool [⟨"a"⟩, ⟨"b"⟩])
      (configTool [⟨"aa"⟩, ⟨"b"⟩]) := by
  have formed : configTree.WellFormed := by decide
  have original : Path.sortDistinct [⟨"a"⟩, ⟨"b"⟩] = [⟨"a"⟩, ⟨"b"⟩] := by
    decide
  have copied : Path.sortDistinct [⟨"aa"⟩, ⟨"b"⟩] = [⟨"aa"⟩, ⟨"b"⟩] := by
    decide
  refine (sameStream_agrees_iff formed (Memo.faithful_empty _)
    (Memo.faithful_empty _) (configTool_fits _ _) (configTool_fits _ _)
    (configTool_ran original (configs_hashed rfl))
    (configTool_ran copied (configs_hashed rfl)) rfl configPaths).2.1.2
    (Or.inr ⟨rfl, fun _ => ?_⟩)
  exact .cons (Or.inr ⟨[65], rfl, rfl⟩) (.cons (Or.inl rfl) .nil)

end ExternalTool

end Deobfuscate
