import Deobfuscate.Proofs.Text.Cutting
import Deobfuscate.Proofs.Text.Search
import Deobfuscate.Stage.SwitchLabels
import Mathlib.Data.List.TakeWhile

/-!
# Which lines labels cost

A blank line goes if the line before it has a label or the line behind it starts
with an indented one.  Both neighbours are those of the text as it was, so the
lines that stay are told by their places alone.

The lines that stay are the lines of the new text unless two of them run into
each other: where the blank line between a carriage return and an empty line
closed by a line feed goes, these two become one terminator.  The places where
this happens are described exactly.
-/

namespace Deobfuscate.SwitchLabels

open Deobfuscate.Text

/-- A keyword stands somewhere in a line and something follows it. -/
def MentionsLabel (content : List Char) : Prop :=
  ∃ before, ∃ keyword ∈ keywords, ∃ after,
    after ≠ [] ∧ content = before ++ (keyword ++ after)

/-- A line starts with blanks or tabs, at least one, and then a keyword. -/
def StartsIndented (content : List Char) : Prop :=
  ∃ indent, ∃ keyword ∈ keywords, ∃ after,
    indent ≠ [] ∧ (∀ char ∈ indent, char = ' ' ∨ char = '\t') ∧
      content = indent ++ (keyword ++ after)

theorem startsLabel_iff {chars : List Char} :
    startsLabel chars = true ↔
      ∃ keyword ∈ keywords, ∃ after, after ≠ [] ∧ chars = keyword ++ after := by
  rw [startsLabel, List.any_eq_true]
  refine exists_congr fun keyword => and_congr_right fun _ => ?_
  cases stripped : stripStart keyword chars with
  | none =>
      refine iff_of_false Bool.false_ne_true ?_
      rintro ⟨after, _, begins⟩
      exact stripStart_eq_none_iff.1 stripped ⟨after, begins.symm⟩
  | some rest =>
      constructor
      · intro some
        exact ⟨rest, by simpa using some, stripStart_eq_some stripped⟩
      · rintro ⟨after, some, rfl⟩
        rw [stripStart_append] at stripped
        obtain rfl := Option.some.inj stripped
        simpa using some

theorem not_mentionsLabel_nil : ¬ MentionsLabel [] := by
  rintro ⟨before, keyword, _, after, some, empty⟩
  exact some (List.append_eq_nil_iff.1 (List.append_eq_nil_iff.1 empty.symm).2).2

theorem hasLabel_iff {content : List Char} :
    hasLabel content = true ↔ MentionsLabel content := by
  induction content with
  | nil => simpa [hasLabel] using not_mentionsLabel_nil
  | cons char content inductionHypothesis =>
      rw [hasLabel, Bool.or_eq_true, startsLabel_iff, inductionHypothesis]
      constructor
      · rintro (⟨keyword, known, after, some, begins⟩ |
          ⟨before, keyword, known, after, some, rfl⟩)
        · exact ⟨[], keyword, known, after, some, begins⟩
        · exact ⟨char :: before, keyword, known, after, some, rfl⟩
      · rintro ⟨before, keyword, known, after, some, whole⟩
        cases before with
        | nil => exact Or.inl ⟨keyword, known, after, some, whole⟩
        | cons first before =>
            obtain ⟨_, rest⟩ := List.cons.inj whole
            exact Or.inr ⟨before, keyword, known, after, some, rest⟩

theorem isIndent_iff {char : Char} :
    isIndent char = true ↔ char = ' ' ∨ char = '\t' := by
  simp [isIndent]

/-- A keyword is not indented itself. -/
theorem dropWhile_keyword {keyword : List Char} (known : keyword ∈ keywords)
    (after : List Char) :
    (keyword ++ after).dropWhile isIndent = keyword ++ after := by
  simp only [keywords, List.mem_cons, List.not_mem_nil, or_false] at known
  rcases known with rfl | rfl <;> rfl

theorem isIndentedLabel_iff {content : List Char} :
    isIndentedLabel content = true ↔ StartsIndented content := by
  have cut := List.takeWhile_append_dropWhile (p := isIndent) (l := content)
  simp only [isIndentedLabel, Bool.and_eq_true, decide_eq_true_eq,
    List.any_eq_true, startsWith, List.isPrefixOf_iff_prefix]
  constructor
  · rintro ⟨shorter, keyword, known, after, begins⟩
    refine ⟨content.takeWhile isIndent, keyword, known, after, ?_, ?_, ?_⟩
    · intro nothing
      rw [nothing, List.nil_append] at cut
      rw [cut] at shorter
      exact Nat.lt_irrefl _ shorter
    · intro char member
      exact isIndent_iff.1 (List.mem_takeWhile_imp member)
    · rw [begins, cut]
  · rintro ⟨indent, keyword, known, after, some, blank, rfl⟩
    have rest : (indent ++ (keyword ++ after)).dropWhile isIndent =
        keyword ++ after := by
      rw [List.dropWhile_append_of_pos fun char member =>
        isIndent_iff.2 (blank char member), dropWhile_keyword known]
    rw [rest]
    have longer := List.length_pos_iff.2 some
    exact ⟨by simpa using longer, keyword, known, after, rfl⟩

instance (content : List Char) : Decidable (MentionsLabel content) :=
  decidable_of_iff _ hasLabel_iff

instance (content : List Char) : Decidable (StartsIndented content) :=
  decidable_of_iff _ isIndentedLabel_iff

/-- The line at a place goes: it is blank and not the first, and the line before
it has a label or the line behind it starts with an indented one. -/
def IsSuperfluous (lines : List Line) (place : Nat) : Prop :=
  0 < place ∧
    (∃ line ∈ lines[place]?,
      line.content = [] ∧ line.terminator ≠ .endOfText) ∧
    ((∃ before ∈ lines[place - 1]?, MentionsLabel before.content) ∨
      ∃ next ∈ lines[place + 1]?, StartsIndented next.content)

instance (lines : List Line) (place : Nat) :
    Decidable (IsSuperfluous lines place) :=
  inferInstanceAs (Decidable (_ ∧ _ ∧ _))

/-- The lines that stay, each with its own terminator and in order. -/
def remaining (lines : List Line) : List Line :=
  (lines.zipIdx.filter fun placed => ¬ IsSuperfluous lines placed.2).map
    Prod.fst

theorem isDropped_iff {before line : Line} {after : Option Line} :
    isDropped (some before) line after = true ↔
      (line.content = [] ∧ line.terminator ≠ .endOfText) ∧
        (MentionsLabel before.content ∨
          ∃ next ∈ after, StartsIndented next.content) := by
  simp [isDropped, isBlankLine, hasLabel_iff, Option.any_eq_true,
    isIndentedLabel_iff]

theorem content_of_isDropped {before after : Option Line} {line : Line}
    (goes : isDropped before line after = true) : line.content = [] := by
  cases before with
  | none => cases goes
  | some before => exact (isDropped_iff.1 goes).1.1

/-- A line is dropped for what stands around it just if its place says so. -/
theorem isDropped_iff_isSuperfluous {done rest : List Line} {line : Line} :
    isDropped done.getLast? line rest.head? = true ↔
      IsSuperfluous (done ++ line :: rest) done.length := by
  rcases List.eq_nil_or_concat' done with rfl | ⟨front, before, rfl⟩
  · simp [isDropped, IsSuperfluous]
  · have here : (front ++ [before] ++ line :: rest)[front.length + 1]? =
        some line := by
      simp
    have there : (front ++ [before] ++ line :: rest)[front.length]? =
        some before := by
      simp
    have next : (front ++ [before] ++ line :: rest)[front.length + 1 + 1]? =
        rest.head? := by
      have behind : front.length + 1 + 1 - front.length = 2 := by omega
      rw [List.append_assoc, List.getElem?_append_right (by omega), behind]
      simp [List.head?_eq_getElem?]
    rw [List.getLast?_concat, isDropped_iff, List.length_append,
      List.length_singleton, IsSuperfluous, here, next, Nat.add_sub_cancel,
      there]
    simp

theorem keptLines_eq_filter (done rest : List Line) :
    keptLines done.getLast? rest =
      ((rest.zipIdx done.length).filter fun placed =>
        ¬ IsSuperfluous (done ++ rest) placed.2).map Prod.fst := by
  induction rest generalizing done with
  | nil => rfl
  | cons line rest inductionHypothesis =>
      have later := inductionHypothesis (done ++ [line])
      rw [List.getLast?_concat, List.length_append, List.length_singleton,
        List.append_assoc, List.singleton_append] at later
      rw [keptLines, later, List.zipIdx_cons]
      by_cases superfluous : IsSuperfluous (done ++ line :: rest) done.length
      · rw [if_pos (isDropped_iff_isSuperfluous.2 superfluous),
          List.filter_cons_of_neg (by simpa using superfluous)]
      · rw [if_neg (mt isDropped_iff_isSuperfluous.1 superfluous),
          List.filter_cons_of_pos (by simpa using superfluous), List.map_cons]

/-- Dropping lines from the left is taking out those whose places say so. -/
theorem keptLines_eq_remaining (lines : List Line) :
    keptLines none lines = remaining lines :=
  keptLines_eq_filter [] lines

theorem remaining_sublist (lines : List Line) :
    (remaining lines).Sublist lines := by
  have kept := (List.filter_sublist (l := lines.zipIdx)
    (p := fun placed => ¬ IsSuperfluous lines placed.2)).map Prod.fst
  rwa [List.zipIdx_map_fst] at kept

theorem length_remaining_lt_iff {lines : List Line} :
    (remaining lines).length < lines.length ↔
      ∃ place, IsSuperfluous lines place := by
  have total : lines.length = lines.zipIdx.length := by simp
  rw [remaining, List.length_map, total,
    List.length_filter_lt_length_iff_exists]
  constructor
  · rintro ⟨placed, _, superfluous⟩
    exact ⟨placed.2, by simpa using superfluous⟩
  · rintro ⟨place, superfluous⟩
    obtain ⟨_, ⟨line, here, _⟩, _⟩ := id superfluous
    exact ⟨(line, place), List.mem_zipIdx_iff_getElem?.2 here,
      by simpa using superfluous⟩

/-! ## Lines that run into each other -/

def Collides (lines : List Line) (place : Nat) : Prop :=
  (∃ line ∈ lines[place]?,
      MentionsLabel line.content ∧ line.terminator = .carriageReturn) ∧
    lines[place + 1]? = some ⟨[], .carriageReturnLineFeed⟩ ∧
    lines[place + 2]? = some ⟨[], .lineFeed⟩ ∧
    ∀ next ∈ lines[place + 3]?, ¬ StartsIndented next.content

theorem forall_not_collides_cons {line : Line} {rest : List Line} :
    (∀ place, ¬ Collides (line :: rest) place) ↔
      ¬ Collides (line :: rest) 0 ∧ ∀ place, ¬ Collides rest place := by
  constructor
  · intro none
    exact ⟨none 0, fun place => none (place + 1)⟩
  · rintro ⟨here, there⟩ place
    cases place with
    | zero => exact here
    | succ place => exact there place

theorem not_startsIndented_nil : ¬ StartsIndented [] := by
  rintro ⟨indent, keyword, _, after, some, _, empty⟩
  exact some (List.append_eq_nil_iff.1 empty.symm).1

/-- What is empty and stands between a carriage return and a line feed is closed
by both. -/
theorem terminator_between {line middle : Line} (empty : middle.content = [])
    (closed : middle.terminator ≠ .endOfText)
    (returns : line.terminator = .carriageReturn) (follows : Follows line middle)
    (feeds : Follows middle ⟨[], .lineFeed⟩) :
    middle = ⟨[], .carriageReturnLineFeed⟩ := by
  obtain ⟨content, terminator⟩ := middle
  obtain rfl : content = [] := empty
  cases terminator with
  | lineFeed => exact absurd rfl (follows.2 returns)
  | carriageReturn => exact absurd rfl (feeds.2 rfl)
  | carriageReturnLineFeed => rfl
  | endOfText => exact absurd rfl closed

section Neighbours

variable {line second third : Line} {rest : List Line}

/-- Of two blank lines that both go, the second one stands before an indented
label, which stays. -/
theorem head?_keptLines_of_blank (empty : second.content = [])
    (goes : isDropped (some second) third rest.head? = true) :
    ∃ next ∈ rest.head?, StartsIndented next.content ∧
      (keptLines (some second) (third :: rest)).head? = some next := by
  obtain ⟨_, label | ⟨next, here, indented⟩⟩ := isDropped_iff.1 goes
  · rw [empty] at label
    exact absurd label not_mentionsLabel_nil
  · obtain ⟨others, rfl⟩ := List.head?_eq_some_iff.1 here
    have stays : ¬ isDropped (some third) next others.head? = true := by
      intro nextGoes
      rw [(isDropped_iff.1 nextGoes).1.1] at indented
      exact not_startsIndented_nil indented
    refine ⟨next, rfl, indented, ?_⟩
    rw [keptLines, if_pos goes, keptLines, if_neg stays, List.head?_cons]

/-- A line and the second one behind it, which both stay, collide just if a
carriage return meets a line feed. -/
theorem collides_iff (areLines : AreLines (line :: second :: third :: rest))
    (secondGoes : isDropped (some line) second (some third) = true)
    (thirdStays : ¬ isDropped (some second) third rest.head? = true) :
    Collides (line :: second :: third :: rest) 0 ↔
      line.terminator = .carriageReturn ∧ third = ⟨[], .lineFeed⟩ := by
  obtain ⟨_, follows, later⟩ := areLines_cons.1 areLines
  obtain ⟨_, laterFollows, _⟩ := areLines_cons.1 later
  obtain ⟨⟨empty, closed⟩, reason⟩ := isDropped_iff.1 secondGoes
  constructor
  · rintro ⟨⟨_, here, _, returns⟩, _, there, _⟩
    obtain rfl := Option.some.inj here
    exact ⟨returns, Option.some.inj there⟩
  · rintro ⟨returns, rfl⟩
    have label : MentionsLabel line.content := by
      rcases reason with label | ⟨next, here, indented⟩
      · exact label
      · obtain rfl := Option.some.inj here
        exact absurd indented not_startsIndented_nil
    have between := terminator_between empty closed returns
      (follows second rfl) (laterFollows _ rfl)
    refine ⟨⟨line, rfl, label, returns⟩, congrArg some between, rfl,
      fun next here indented => thirdStays ?_⟩
    rw [List.head?_eq_getElem?]
    exact isDropped_iff.2 ⟨by simp, Or.inr ⟨next, here, indented⟩⟩

end Neighbours

/-- Between a line that stays and the next one that does, a terminator is torn
apart just if the two collide. -/
theorem follows_keptLines_iff {line : Line} {rest : List Line}
    (areLines : AreLines (line :: rest)) :
    (∀ next ∈ (keptLines (some line) rest).head?, Follows line next) ↔
      ¬ Collides (line :: rest) 0 := by
  obtain ⟨_, follows, later⟩ := areLines_cons.1 areLines
  cases rest with
  | nil => simp [keptLines, Collides]
  | cons second rest =>
      have first := follows second rfl
      by_cases secondGoes : isDropped (some line) second rest.head? = true
      case neg =>
        -- The next line is the one that stood there.
        rw [keptLines, if_neg secondGoes]
        refine iff_of_true (fun next here => ?_) ?_
        · obtain rfl := Option.some.inj here
          exact first
        · rintro ⟨⟨_, here, label, _⟩, there, _⟩
          obtain rfl := Option.some.inj here
          obtain rfl := Option.some.inj there
          exact secondGoes (isDropped_iff.2 ⟨by simp, Or.inl label⟩)
      case pos =>
        rw [keptLines, if_pos secondGoes]
        cases rest with
        | nil => simp [keptLines, Collides]
        | cons third rest =>
            have empty := (isDropped_iff.1 secondGoes).1.1
            by_cases thirdGoes :
                isDropped (some second) third rest.head? = true
            case pos =>
              -- Both go, and an indented label is next.
              obtain ⟨next, here, indented, head⟩ :=
                head?_keptLines_of_blank empty thirdGoes
              rw [List.head?_eq_getElem?] at here
              refine iff_of_true (fun other there => ?_)
                fun collides => collides.2.2.2 next here indented
              obtain rfl := Option.some.inj (head.symm.trans there)
              have member : next ∈ third :: rest :=
                List.mem_cons_of_mem _ (List.mem_of_getElem? here)
              exact follows_of_content first.1
                (later.whole next (List.mem_cons_of_mem _ member)).1
                fun nothing => not_startsIndented_nil (nothing ▸ indented)
            case neg =>
              have unbroken := (later.whole third (by simp)).1
              rw [collides_iff areLines secondGoes thirdGoes, keptLines,
                if_neg thirdGoes, List.head?_cons, not_and]
              constructor
              · intro apart
                exact ((follows_iff unbroken).1 (apart third rfl)).2
              · intro apart next here
                obtain rfl := Option.some.inj here
                exact (follows_iff unbroken).2 ⟨first.1, apart⟩

/-- The lines that stay are the lines of a text just if no two of them
collide. -/
theorem areLines_keptLines_iff {lines : List Line} (areLines : AreLines lines)
    (before : Option Line) :
    AreLines (keptLines before lines) ↔ ∀ place, ¬ Collides lines place := by
  induction lines generalizing before with
  | nil => simp [keptLines, areLines_nil, Collides]
  | cons line rest inductionHypothesis =>
      obtain ⟨whole, _, later⟩ := areLines_cons.1 areLines
      rw [forall_not_collides_cons, keptLines]
      split
      · rename_i goes
        have apart : ¬ Collides (line :: rest) 0 := by
          rintro ⟨⟨_, here, label, _⟩, _⟩
          obtain rfl := Option.some.inj here
          rw [content_of_isDropped goes] at label
          exact not_mentionsLabel_nil label
        rw [inductionHypothesis later, and_iff_right apart]
      · rw [areLines_cons, inductionHypothesis later, and_iff_right whole,
          follows_keptLines_iff areLines]

theorem normalize?_eq_some_iff {text result : String} :
    normalize? text = some result ↔
      (∃ place, IsSuperfluous (scanLines text.toList) place) ∧
        result = String.ofList
          (joinLines (remaining (scanLines text.toList))) := by
  simp only [normalize?, keptLines_eq_remaining]
  rw [Option.ite_none_right_eq_some, length_remaining_lt_iff, Option.some_inj]
  exact and_congr_right fun _ => eq_comm

theorem normalize?_eq_none_iff {text : String} :
    normalize? text = none ↔
      ∀ place, ¬ IsSuperfluous (scanLines text.toList) place := by
  rw [Option.eq_none_iff_forall_ne_some, ← not_exists]
  simp [normalize?_eq_some_iff]

/-- A text is left alone just if none of its lines is superfluous; otherwise the
new text is what the other lines give when they are joined.  Cutting it gives
these lines, with line breaks that have come together merged, so it gives exactly
these lines just if no two of them collide. -/
theorem normalized_lines_iff (text : String) :
    (normalize? text = none ↔
        ∀ place, ¬ IsSuperfluous (scanLines text.toList) place) ∧
      ∀ result, normalize? text = some result →
        result.toList = joinLines (remaining (scanLines text.toList)) ∧
          scanLines result.toList =
            mergeBreaks (remaining (scanLines text.toList)) ∧
          (scanLines result.toList = remaining (scanLines text.toList) ↔
            ∀ place, ¬ Collides (scanLines text.toList) place) := by
  have areLines : AreLines (scanLines text.toList) := by
    rw [scanLines_eq_splitLines]
    exact areLines_splitLines _
  have closed : Closed (scanLines text.toList) := by
    rw [scanLines_eq_splitLines]
    exact closed_splitLines _
  have kept := remaining_sublist (scanLines text.toList)
  refine ⟨normalize?_eq_none_iff, fun result normalized => ?_⟩
  obtain ⟨_, rfl⟩ := normalize?_eq_some_iff.1 normalized
  rw [String.toList_ofList, scanLines_eq_splitLines (joinLines _)]
  refine ⟨rfl, splitLines_joinLines_eq_mergeBreaks
    (fun line member => areLines.whole line (kept.subset member))
    (closed.sublist kept), ?_⟩
  rw [splitLines_joinLines_iff, ← keptLines_eq_remaining]
  exact areLines_keptLines_iff areLines none

/-- Blank lines go on both sides of a label, and the others keep their various
terminators. -/
theorem normalized_lines_iff_mixed :
    let text := "x;\r\n\r\n\tcase 1:\r\ry;\n"
    let result := "x;\r\n\tcase 1:\ry;\n"
    normalize? text = some result ∧
      scanLines result.toList = remaining (scanLines text.toList) ∧
      ∀ place, ¬ Collides (scanLines text.toList) place := by
  intro text result
  have normalized : normalize? text = some result := by decide
  have kept : scanLines result.toList = remaining (scanLines text.toList) := by
    decide
  obtain ⟨_, _, exact⟩ := (normalized_lines_iff text).2 result normalized
  exact ⟨normalized, kept, exact.1 kept⟩

/-- The blank line behind a label goes, and the carriage return that closes the
label runs into the line feed of the next empty line, which stays: the label is
closed by both, and the empty line is lost. -/
theorem empty_line_swallowed :
    let text := "case 1:\r\r\n\nf();\n"
    let result := "case 1:\r\nf();\n"
    normalize? text = some result ∧
      remaining (scanLines text.toList) =
        [⟨"case 1:".toList, .carriageReturn⟩, ⟨[], .lineFeed⟩,
          ⟨"f();".toList, .lineFeed⟩] ∧
      scanLines result.toList =
        [⟨"case 1:".toList, .carriageReturnLineFeed⟩,
          ⟨"f();".toList, .lineFeed⟩] := by
  decide

end Deobfuscate.SwitchLabels
