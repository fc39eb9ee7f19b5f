import Deobfuscate.Proofs.Patch.ExactDiff
import Deobfuscate.Proofs.Patch.Landing
import Mathlib.Data.Nat.Find

/-!
# Editing in machine words

The loops of the search compute the distances to both ends and, at every distance
that they come to, two positions.  Editing in place computes where a hunk is
expected, the shift behind it and how far it is off.  When each of these results is
checked to be a machine word, the run stops just if it does not get by with words;
otherwise it ends as the unchecked one does.
-/

namespace Deobfuscate.Patch

/-- An integer, if a signed machine word holds it. -/
def word? (value : Int) : Option Int :=
  if isWord value then some value else none

/-- The distance to the farther end; `none` if no word holds it. -/
def reachWords? (low high expected : Int) : Option Nat := do
  let toLow ← word? (expected - low)
  let toLow ← word? toLow.natAbs
  let toHigh ← word? (high - expected)
  let toHigh ← word? toHigh.natAbs
  return (max toLow toHigh).toNat

/-- Search outward; `none` if no word holds a position or a distance. -/
def searchWords? (options : Options) (lines : List String)
    (old : List HunkLine) (expected : Int) (floor : Nat) :
    Option (Option (Nat × Nat)) :=
  if lines.length < old.length ∨ lines.length - old.length < floor then
    some none
  else do
    let low : Int := floor
    let high : Int := (lines.length - old.length : Nat)
    let reach ← reachWords? low high expected
    (List.range (options.maxFuzz + 1)).findSomeM? fun fuzz =>
      (List.range (reach + 1)).findSomeM? fun (distance : Nat) => do
        let after ← word? (expected + distance)
        let before ← word? (expected - distance)
        let found ← [after, before].findM?
          (tryAt? options.canonicalizeAccess lines old low high fuzz)
        return found.map fun position => (position.toNat, fuzz)

/-- A word that holds the magnitude of an integer could hold the integer. -/
theorem word?_natAbs (value : Int) :
    (word? value).bind (fun value => word? value.natAbs) =
      word? value.natAbs := by
  by_cases small : isWord value
  · rw [word?, if_pos small, Option.bind_some]
  · have large : ¬ isWord value.natAbs := by
      rw [isWord_iff] at small ⊢
      omega
    rw [word?, if_neg small, word?, if_neg large, Option.bind_none]

theorem reachWords?_eq (low high expected : Int) :
    reachWords? low high expected =
      let reach := max (expected - low).natAbs (high - expected).natAbs
      if isWord reach then some reach else none := by
  have both : isWord (max (expected - low).natAbs (high - expected).natAbs :
      Nat) ↔ isWord (expected - low).natAbs ∧
        isWord (high - expected).natAbs := by
    rw [isWord_iff, isWord_iff, isWord_iff]
    omega
  unfold reachWords?
  simp only [Option.bind_eq_bind, ← Option.bind_assoc, word?_natAbs, both]
  have cast : (max ((expected - low).natAbs : Int)
      (high - expected).natAbs).toNat =
        max (expected - low).natAbs (high - expected).natAbs := by
    omega
  unfold word?
  by_cases near : isWord (expected - low).natAbs
  · by_cases far : isWord (high - expected).natAbs
    · simp only [near, far, and_self, if_true, Option.bind_some, cast]
      rfl
    · simp only [near, far, if_true, Option.bind_some]
      rfl
  · simp only [near]
    rfl

section Guarded

variable {α β : Type} {f : α → Option (Option β)} {find : α → Option β}

theorem findSomeM?_cons (entry : α) (rest : List α) :
    (entry :: rest).findSomeM? f = (f entry).bind fun found =>
      match found with
      | some value => some (some value)
      | none => rest.findSomeM? f := by
  rw [List.findSomeM?]
  rfl

/-- As long as the search returns, it finds what is found without stopping. -/
theorem findSomeM?_append {front rest : List α}
    (returns : ∀ entry ∈ front, f entry = some (find entry)) :
    (front ++ rest).findSomeM? f =
      match front.findSome? find with
      | some value => some (some value)
      | none => rest.findSomeM? f := by
  induction front with
  | nil => rfl
  | cons entry front inductionHypothesis =>
      obtain ⟨first, later⟩ := List.forall_mem_cons.1 returns
      rw [List.cons_append, findSomeM?_cons, first, List.findSome?_cons,
        inductionHypothesis later]
      cases find entry <;> rfl

theorem findSomeM?_of_returns {entries : List α}
    (returns : ∀ entry ∈ entries, f entry = some (find entry)) :
    entries.findSomeM? f = some (entries.findSome? find) := by
  rw [← List.append_nil entries, findSomeM?_append returns, List.append_nil]
  cases entries.findSome? find <;> rfl

section Distances

variable {check : Nat → Bool} {find : Nat → Option β} {reach last : Nat}

/-- Distances at which the check is passed and nothing found may be left out. -/
theorem findSomeM?_skip (more : Nat)
    (earlier : ∀ away < last, check away = true)
    (before : ∀ away < last, find away = none) :
    ((List.range (last + more)).findSomeM? fun away =>
        if check away then some (find away) else none) =
      ((List.range more).map (last + ·)).findSomeM? fun away =>
        if check away then some (find away) else none := by
  have returns : ∀ away ∈ List.range last,
      (if check away then some (find away) else none) = some (find away) :=
    fun away member => if_pos (earlier away (List.mem_range.1 member))
  have nothing : (List.range last).findSome? find = none :=
    List.findSome?_eq_none_iff.2 fun away member =>
      before away (List.mem_range.1 member)
  rw [List.range_add, findSomeM?_append returns, nothing]

variable (within : last ≤ reach) (before : ∀ away < last, find away = none)

include within before

/-- The search returns if every distance passes the check at which it looks. -/
theorem findSomeM?_passing (passes : ∀ away ≤ last, check away = true)
    (ends : last = reach ∨ (find last).isSome = true) :
    ((List.range (reach + 1)).findSomeM? fun away =>
        if check away then some (find away) else none) =
      some ((List.range (reach + 1)).findSome? find) := by
  have nothing : (List.range last).findSome? find = none :=
    List.findSome?_eq_none_iff.2 fun away member =>
      before away (List.mem_range.1 member)
  obtain ⟨beyond, rfl⟩ := Nat.exists_eq_add_of_le within
  have left : (List.range (last + (beyond + 1))).findSome? find =
      ((List.range (beyond + 1)).map (last + ·)).findSome? find := by
    rw [List.range_add, List.findSome?_append, nothing, Option.none_or]
  rw [Nat.add_assoc, left, findSomeM?_skip (beyond + 1)
    (fun away less => passes away (Nat.le_of_lt less)) before,
    List.range_succ_eq_map, List.map_cons, findSomeM?_cons,
    List.findSome?_cons, Nat.add_zero, if_pos (passes last (Nat.le_refl last))]
  cases found : find last with
  | some value => rfl
  | none =>
      rw [found] at ends
      obtain rfl : beyond = 0 := by simpa using ends
      rfl

/-- The search stops at the first distance that fails the check if it has found
nothing before. -/
theorem findSomeM?_failing (fails : check last ≠ true)
    (earlier : ∀ away < last, check away = true) :
    ((List.range (reach + 1)).findSomeM? fun away =>
        if check away then some (find away) else none) = none := by
  obtain ⟨beyond, rfl⟩ := Nat.exists_eq_add_of_le within
  rw [Nat.add_assoc, findSomeM?_skip (beyond + 1) earlier before,
    List.range_succ_eq_map, List.map_cons, findSomeM?_cons, Nat.add_zero,
    if_neg fails]
  rfl

/-- A search over growing distances that stops at a distance which fails a check
goes as far as something is found, or else to the last distance. -/
theorem findSomeM?_checked
    (closed : ∀ near far, near ≤ far → check far = true → check near = true)
    (ends : last = reach ∨ (find last).isSome = true) :
    ((List.range (reach + 1)).findSomeM? fun away =>
        if check away then some (find away) else none) =
      if check last then some ((List.range (reach + 1)).findSome? find)
      else none := by
  by_cases passes : check last = true
  · rw [if_pos passes, findSomeM?_passing within before
      (fun away less => closed away last less passes) ends]
  · have some : ∃ away, check away ≠ true := ⟨last, passes⟩
    have first : Nat.find some ≤ last := Nat.find_min' some passes
    rw [if_neg passes, findSomeM?_failing (Nat.le_trans first within)
      (fun away less => before away (Nat.lt_of_lt_of_le less first))
      (Nat.find_spec some)
      fun _ less => not_not.1 (Nat.find_min some less)]

end Distances

end Guarded

/-- Whether words hold both positions at a distance. -/
def holdsBoth (expected : Int) (away : Nat) : Bool :=
  isWord (expected + away) && isWord (expected - away)

theorem holdsBoth_closed (expected : Int) (near far : Nat) (less : near ≤ far)
    (held : holdsBoth expected far = true) : holdsBoth expected near = true := by
  rw [holdsBoth, Bool.and_eq_true, isWord_iff, isWord_iff] at held ⊢
  omega

section Search

variable {options : Options} {lines : List String} {old : List HunkLine}
variable {expected : Int} {floor : Nat}

theorem searchWords?_of_fits (fits : floor + old.length ≤ lines.length) :
    searchWords? options lines old expected floor =
      let reach := max (expected - floor).natAbs
        ((lines.length - old.length : Nat) - expected).natAbs
      if isWord reach then
        (List.range (options.maxFuzz + 1)).findSomeM? fun fuzz =>
          (List.range (reach + 1)).findSomeM? fun away =>
            if holdsBoth expected away then
              some (foundAt options.canonicalizeAccess lines old expected floor
                fuzz away)
            else none
      else none := by
  have inside : ¬ (lines.length < old.length ∨
      lines.length - old.length < floor) := by omega
  have body : ∀ fuzz away : Nat,
      ((word? (expected + away)).bind fun after =>
        (word? (expected - away)).bind fun before =>
          ([after, before].findM? (tryAt? options.canonicalizeAccess lines old
              floor (lines.length - old.length : Nat) fuzz)).bind fun found =>
            some (found.map fun position => (position.toNat, fuzz))) =
        if holdsBoth expected away then
          some (foundAt options.canonicalizeAccess lines old expected floor fuzz
            away)
        else none := by
    intro fuzz away
    have within : old.length ≤ lines.length := by omega
    rw [tryAt?_eq_pure within, holdsBoth]
    unfold word?
    by_cases after : isWord (expected + away)
    · by_cases before : isWord (expected - away)
      · simp only [after, before, if_true, Option.bind_some, Bool.and_self,
          List.findM?_pure]
        rfl
      · simp [after, before]
    · simp [after]
  unfold searchWords?
  rw [if_neg inside]
  dsimp only
  rw [reachWords?_eq]
  simp only [Option.bind_eq_bind, Option.pure_def, body]
  split
  · rw [Option.bind_some]
  · rw [Option.bind_none]

/-- The distance at which something is found at no fuzz, or else the last one. -/
def lastAway (options : Options) (lines : List String) (old : List HunkLine)
    (expected : Int) (floor reach : Nat) : Nat :=
  match findWindow options (lines.drop floor) old (expected - floor) with
  | some (position, 0) => distance (floor + position : Nat) expected
  | _ => reach

theorem foundAt_eq_none_iff {canonical : Bool} {fuzz away : Nat} :
    foundAt canonical lines old expected floor fuzz away = none ↔
      ∀ position, Admissible canonical lines old floor fuzz position →
        distance position expected ≠ away := by
  rw [foundAt, Option.map_eq_none_iff, List.find?_eq_none]
  constructor
  · intro nothing position admissible same
    obtain ⟨offset, rfl⟩ := Nat.exists_eq_add_of_le admissible.above
    refine nothing _ ?_ (matchesAt_iff.2 ⟨offset, rfl, admissible⟩)
    simp only [List.mem_cons, List.not_mem_nil, or_false]
    unfold distance at same
    omega
  · intro nothing position member found
    obtain ⟨offset, rfl, admissible⟩ := matchesAt_iff.1 found
    exact nothing _ admissible (distance_of_mem member)

theorem findWindow_exact_iff {position : Nat} :
    findWindow options lines old expected = some (position, 0) ↔
      windowAt options.canonicalizeAccess lines old expected 0 =
        some position := by
  rw [findWindow_eq, findSome?_range_eq_some]
  simp only [Option.map_eq_some_iff, Prod.mk.injEq]
  constructor
  · rintro ⟨_, _, ⟨_, window, rfl, rfl⟩, _⟩
    exact window
  · intro window
    exact ⟨0, Nat.succ_pos _, ⟨position, window, rfl, rfl⟩,
      fun _ less => absurd less (Nat.not_lt_zero _)⟩

theorem lastAway_cases {reach : Nat}
    (far : ∀ position : Nat, floor ≤ position →
      position + old.length ≤ lines.length →
        distance position expected ≤ reach) :
    let last := lastAway options lines old expected floor reach
    let found :=
      foundAt options.canonicalizeAccess lines old expected floor 0
    last ≤ reach ∧ (∀ away < last, found away = none) ∧
      (last = reach ∨ (found last).isSome = true) := by
  intro last found
  cases window : windowAt options.canonicalizeAccess (lines.drop floor) old
      (expected - floor) 0 with
  | none =>
      have nothing : ∀ away, found away = none := fun away =>
        foundAt_eq_none_iff.2 fun position admissible =>
          absurd admissible (windowAt_eq_none_iff.1 window position)
      have all : last = reach := by
        show lastAway options lines old expected floor reach = reach
        unfold lastAway
        split
        · rename_i exact
          rw [findWindow_exact_iff, window] at exact
          cases exact
        · rfl
      exact ⟨Nat.le_of_eq all, fun away _ => nothing away, .inl all⟩
  | some offset =>
      obtain ⟨admissible, nearest⟩ := nearest_of_windowAt window
      have here : last = distance (floor + offset : Nat) expected := by
        show lastAway options lines old expected floor reach = _
        unfold lastAway
        rw [findWindow_exact_iff.2 window]
        rfl
      rw [here]
      refine ⟨far _ admissible.above admissible.fits, ?_, .inr ?_⟩
      · intro away nearer
        refine foundAt_eq_none_iff.2 fun position other same => ?_
        have farther := nearest position other
        omega
      · rw [Option.isSome_iff_ne_none]
        intro nothing
        exact foundAt_eq_none_iff.1 nothing _ admissible rfl

theorem searchWords?_eq (fits : floor + old.length ≤ lines.length) :
    searchWords? options lines old expected floor =
      let reach := max (expected - floor).natAbs
        ((lines.length - old.length : Nat) - expected).natAbs
      if isWord reach && holdsBoth expected
          (lastAway options lines old expected floor reach) then
        searchOutward? options lines old expected floor
      else none := by
  rw [searchWords?_of_fits fits, searchOutward?_of_fits fits]
  dsimp only
  have far : ∀ position : Nat, floor ≤ position →
      position + old.length ≤ lines.length →
        distance position expected ≤ max (expected - floor).natAbs
          ((lines.length - old.length : Nat) - expected).natAbs :=
    fun _ => distance_le_reach
  generalize max (expected - floor).natAbs
    ((lines.length - old.length : Nat) - expected).natAbs = reach at far
  obtain ⟨within, before, ends⟩ := lastAway_cases far
  have closed := holdsBoth_closed expected
  by_cases word : isWord reach
  · have fuzzes : List.range (options.maxFuzz + 1) =
        0 :: (List.range options.maxFuzz).map Nat.succ :=
      List.range_succ_eq_map
    rw [if_pos word, word, Bool.true_and, fuzzes, findSomeM?_cons,
      findSomeM?_checked within before closed ends, List.findSome?_cons]
    by_cases held : holdsBoth expected
        (lastAway options lines old expected floor reach)
    · rw [if_pos held, if_pos held]
      cases exact : (List.range (reach + 1)).findSome?
          (foundAt options.canonicalizeAccess lines old expected floor 0) with
      | some found => rfl
      | none =>
          -- All distances have been gone through, so no other fuzz stops.
          have all : lastAway options lines old expected floor reach = reach := by
            refine ends.resolve_right fun found => ?_
            have nothing := List.findSome?_eq_none_iff.1 exact _
              (List.mem_range.2 (Nat.lt_succ_of_le within))
            rw [nothing] at found
            cases found
          rw [all] at held
          refine findSomeM?_of_returns fun fuzz _ =>
            findSomeM?_of_returns fun away member => if_pos ?_
          exact closed away reach
            (Nat.le_of_lt_succ (List.mem_range.1 member)) held
    · rw [if_neg held, if_neg held]
      rfl
  · rw [if_neg word, if_neg]
    simp [word]

end Search

section Placing

variable (progress : Progress) (options : Options) {hunk : Hunk}
variable (something : hunk.oldLines ≠ []) (expected : Int)

theorem length_buffer : progress.buffer.lines.length =
    progress.buffer.floor + progress.pending.length :=
  List.length_append

include something

theorem searchFits_eq
    (fits : progress.buffer.floor + hunk.oldLines.length ≤
      progress.buffer.lines.length) :
    progress.searchFits options hunk expected =
      let reach := max (expected - progress.buffer.floor).natAbs
        ((progress.buffer.lines.length - hunk.oldLines.length : Nat) -
          expected).natAbs
      isWord reach && holdsBoth expected (lastAway options
        progress.buffer.lines hunk.oldLines expected progress.buffer.floor
        reach) := by
  have total := length_buffer progress
  have pending : progress.buffer.lines.drop progress.buffer.floor =
      progress.pending :=
    List.drop_left
  have placed : progress.place options hunk expected =
      findWindow options progress.pending hunk.oldLines
        (expected - progress.buffer.floor) :=
    if_neg (by simp [something])
  have high : ((progress.buffer.lines.length - hunk.oldLines.length : Nat) :
      Int) = progress.buffer.floor + progress.pending.length -
        hunk.oldLines.length := by
    omega
  have long : ¬ (progress.buffer.floor + progress.pending.length -
      hunk.oldLines.length : Int) < progress.buffer.floor := by
    omega
  have start : (progress.settled.length : Int) = progress.buffer.floor := rfl
  unfold Progress.searchFits lastAway holdsBoth distance
  dsimp only
  rw [start, placed, pending, high, decide_eq_false long, Bool.false_or,
    Bool.and_assoc]
  rcases findWindow options progress.pending hunk.oldLines
    (expected - progress.buffer.floor) with _ | ⟨position, _ | fuzz⟩
  · rfl
  · simp only [Int.natCast_add]
  · rfl

/-- The search for the window of a hunk stops just if it does not get by with
words. -/
theorem searchWords?_buffer :
    searchWords? options progress.buffer.lines hunk.oldLines expected
        progress.buffer.floor =
      if progress.searchFits options hunk expected then
        searchOutward? options progress.buffer.lines hunk.oldLines expected
          progress.buffer.floor
      else none := by
  have total := length_buffer progress
  by_cases fits : progress.buffer.floor + hunk.oldLines.length ≤
      progress.buffer.lines.length
  · rw [searchWords?_eq fits, searchFits_eq progress options something expected
      fits]
  · have outside : progress.buffer.lines.length < hunk.oldLines.length ∨
        progress.buffer.lines.length - hunk.oldLines.length <
          progress.buffer.floor := by
      omega
    have short : progress.searchFits options hunk expected = true := by
      have start : progress.settled.length = progress.buffer.floor := rfl
      unfold Progress.searchFits
      dsimp only
      rw [Bool.or_eq_true, decide_eq_true_eq]
      omega
    rw [if_pos short, searchWords?, if_pos outside, searchOutward?,
      if_pos outside]

end Placing

/-! ## Editing in place -/

def Buffer.placeWords? (buffer : Buffer) (options : Options) (hunk : Hunk)
    (expected : Int) : Option (Option (Nat × Nat)) :=
  if hunk.oldLines.isEmpty then buffer.place? options hunk expected
  else searchWords? options buffer.lines hunk.oldLines expected buffer.floor

/-- Apply a hunk in place; `none` if no word holds what is computed. -/
def Buffer.stepWords? (buffer : Buffer) (options : Options) (index : Nat)
    (hunk : Hunk) : Option (Buffer × HunkReport) := do
  let expected ← word? (hunk.recorded + buffer.shift)
  let _ ← buffer.placeWords? options hunk expected
  let (next, report) ← buffer.step? options index hunk
  let _ ← word? next.shift
  let _ ← word? report.offset
  return (next, report)

def Buffer.runWords? (options : Options) :
    Nat → Buffer → List Hunk → Option (Buffer × List HunkReport)
  | _, buffer, [] => some (buffer, [])
  | index, buffer, hunk :: hunks => do
      let (buffer, report) ← buffer.stepWords? options index hunk
      let (buffer, reports) ←
        Buffer.runWords? options (index + 1) buffer hunks
      return (buffer, report :: reports)

section Editing

variable (progress : Progress) (options : Options)

/-- The index of a hunk counts for its report only. -/
theorem step_index (index : Nat) (hunk : Hunk) :
    (progress.step options index hunk).1 = (progress.step options 0 hunk).1 ∧
      (progress.step options index hunk).2.offset =
        (progress.step options 0 hunk).2.offset := by
  unfold Progress.step
  dsimp only
  split <;> exact ⟨rfl, rfl⟩

theorem placeWords?_buffer (hunk : Hunk) (expected : Int) :
    progress.buffer.placeWords? options hunk expected =
      if hunk.oldLines.isEmpty ||
          progress.searchFits options hunk expected then
        progress.buffer.place? options hunk expected
      else none := by
  unfold Buffer.placeWords? Buffer.place?
  by_cases nothing : hunk.oldLines.isEmpty
  · simp only [nothing, if_true, Bool.true_or]
  · have something : hunk.oldLines ≠ [] := by simpa using nothing
    simp only [nothing, Bool.false_or, Bool.false_eq_true, if_false]
    exact searchWords?_buffer progress options something expected

theorem stepWords?_buffer (index : Nat) (hunk : Hunk) :
    progress.buffer.stepWords? options index hunk =
      if progress.fits options hunk then
        progress.buffer.step? options index hunk
      else none := by
  obtain ⟨same, offset⟩ := step_index progress options index hunk
  have shift : progress.buffer.shift = progress.shift := rfl
  unfold Buffer.stepWords? Progress.fits
  rw [Progress.step?_buffer, shift]
  generalize progress.step options index hunk = given at same offset ⊢
  generalize progress.step options 0 hunk = first at same offset ⊢
  obtain ⟨next, report⟩ := given
  obtain ⟨_, shown⟩ := first
  subst same
  dsimp only at offset ⊢
  have moved : next.buffer.shift = next.shift := rfl
  simp only [← offset, placeWords?_buffer, Progress.place?_buffer, word?, moved,
    Option.bind_eq_bind, Option.pure_def, Option.bind_some]
  generalize hunk.recorded + progress.shift = expected
  by_cases word : isWord expected
  · by_cases search : (hunk.oldLines.isEmpty ||
        progress.searchFits options hunk expected) = true
    · by_cases next : isWord next.shift
      · by_cases away : isWord report.offset
        · simp only [word, search, next, away, if_true, Option.bind_some,
            Bool.true_and]
        · simp only [word, search, next, away, if_true, Option.bind_some]
          rfl
      · simp only [word, search, next, if_true, Option.bind_some]
        rfl
    · simp only [word, search, if_true, Option.bind_some]
      rfl
  · simp only [word]
    rfl

theorem runWords?_buffer (index : Nat) (hunks : List Hunk) :
    Buffer.runWords? options index progress.buffer hunks =
      if Progress.runFits options progress hunks then
        Buffer.run? options index progress.buffer hunks
      else none := by
  induction hunks generalizing index progress with
  | nil => rfl
  | cons hunk hunks inductionHypothesis =>
      have same := (step_index progress options index hunk).1
      rw [Buffer.runWords?, Buffer.run?, Progress.runFits, ← same,
        stepWords?_buffer, Progress.step?_buffer]
      by_cases fits : progress.fits options hunk
      · simp only [fits, if_true, Bool.true_and, Option.bind_eq_bind,
          Option.bind_some, inductionHypothesis]
        split <;> rfl
      · simp only [fits]
        rfl

end Editing

/-- Applying hunks stops just where editing in place does that checks each result
to be a machine word, and otherwise ends as it does. -/
theorem applyHunks?_eq_runWords? (options : Options) (lines : List String)
    (hunks : List Hunk) :
    applyHunks? options lines hunks =
      (Buffer.runWords? options 1 ⟨lines, 0, 0⟩ hunks).map fun edited =>
        (edited.1.lines, edited.2) := by
  have start : Progress.buffer ⟨[], lines, 0⟩ = ⟨lines, 0, 0⟩ := rfl
  rw [← start, runWords?_buffer, Progress.run?_buffer, applyHunks?]
  split <;> rfl

end Deobfuscate.Patch
