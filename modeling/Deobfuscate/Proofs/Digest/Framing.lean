import Deobfuscate.Digest.Input

/-!
# Framing is unambiguous

Bytes that stand for a value are self-delimiting when what follows them cannot
change how they are read.  Numbers of a fixed width and bytes behind their
length are, and so are lists of such things behind their count.

It follows that every resolved input is framed by self-delimiting bytes, and that
no two lists of resolved inputs are framed by the same bytes, as long as lengths
and counts fit into a word of eight bytes.
-/

namespace Deobfuscate

section SelfDelimiting

variable {α : Type}

/-- Valid values are told apart by their bytes, whatever follows them. -/
def SelfDelimiting (Valid : α → Prop) (encode : α → Bytes) : Prop :=
  ∀ (left right : α) (leftRest rightRest : Bytes), Valid left → Valid right →
    encode left ++ leftRest = encode right ++ rightRest →
    left = right ∧ leftRest = rightRest

/-- Bytes of the same length delimit themselves. -/
theorem SelfDelimiting.of_length {Valid : α → Prop} {encode : α → Bytes}
    (width : Nat)
    (sized : ∀ value, Valid value → (encode value).length = width)
    (injective : ∀ left right, Valid left → Valid right →
      encode left = encode right → left = right) :
    SelfDelimiting Valid encode := by
  intro left right leftRest rightRest leftValid rightValid same
  have lengths : (encode left).length = (encode right).length := by
    rw [sized left leftValid, sized right rightValid]
  obtain ⟨encoded, rest⟩ := List.append_inj same lengths
  exact ⟨injective left right leftValid rightValid encoded, rest⟩

/-- As many values on both sides are told apart by their bytes in a row. -/
theorem SelfDelimiting.flatMap {Valid : α → Prop} {encode : α → Bytes}
    (delimiting : SelfDelimiting Valid encode) :
    ∀ {left right : List α} {leftRest rightRest : Bytes},
      (∀ value ∈ left, Valid value) → (∀ value ∈ right, Valid value) →
      left.length = right.length →
      left.flatMap encode ++ leftRest = right.flatMap encode ++ rightRest →
      left = right ∧ leftRest = rightRest
  | [], [], _, _, _, _, _, same => ⟨rfl, same⟩
  | [], _ :: _, _, _, _, _, lengths, _ => by simp at lengths
  | _ :: _, [], _, _, _, _, lengths, _ => by simp at lengths
  | leftHead :: leftTail, rightHead :: rightTail, leftRest, rightRest,
      leftValid, rightValid, lengths, same => by
      simp only [List.flatMap_cons, List.append_assoc] at same
      obtain ⟨sameHead, later⟩ := delimiting leftHead rightHead _ _
        (leftValid leftHead (by simp)) (rightValid rightHead (by simp)) same
      obtain ⟨sameTail, rest⟩ := delimiting.flatMap
        (fun value member => leftValid value (by simp [member]))
        (fun value member => rightValid value (by simp [member]))
        (by simpa using lengths) later
      exact ⟨by rw [sameHead, sameTail], rest⟩

end SelfDelimiting

/-- The number of lengths that eight bytes can hold. -/
def lengthLimit : Nat := 0x10000000000000000

theorem lengthLimit_eq_capacity : LittleEndian.capacity 8 = lengthLimit :=
  rfl

theorem frameLength_delimiting :
    SelfDelimiting (· < lengthLimit) frameLength := by
  apply SelfDelimiting.of_length 8
  · intro length _
    exact LittleEndian.length_bytes 8 length
  · intro left right leftSmall rightSmall same
    rw [← lengthLimit_eq_capacity] at leftSmall rightSmall
    exact LittleEndian.bytes_injective leftSmall rightSmall same

theorem frameBytes_delimiting :
    SelfDelimiting (fun bytes : Bytes => bytes.length < lengthLimit)
      frameBytes := by
  intro left right leftRest rightRest leftSmall rightSmall same
  simp only [frameBytes, List.append_assoc] at same
  obtain ⟨lengths, contents⟩ :=
    frameLength_delimiting _ _ _ _ leftSmall rightSmall same
  exact List.append_inj contents lengths

theorem encode_injective {left right : String}
    (same : Text.encode left = Text.encode right) : left = right := by
  apply String.toByteArray_inj.1
  apply ByteArray.ext
  exact Array.toList_inj.1 same

theorem frameText_delimiting :
    SelfDelimiting (fun text : String => (Text.encode text).length < lengthLimit)
      (fun text => frameBytes (Text.encode text)) := by
  intro left right leftRest rightRest leftSmall rightSmall same
  obtain ⟨encoded, rest⟩ :=
    frameBytes_delimiting _ _ _ _ leftSmall rightSmall same
  exact ⟨encode_injective encoded, rest⟩

theorem int32_delimiting :
    SelfDelimiting (fun _ : Int32 => True)
      (fun value => LittleEndian.bytes 4 value.toUInt32.toNat) := by
  apply SelfDelimiting.of_length 4
  · intro value _
    exact LittleEndian.length_bytes 4 _
  · intro left right _ _ same
    have numbers := LittleEndian.bytes_injective
      left.toUInt32.toNat_lt right.toUInt32.toNat_lt same
    exact congrArg Int32.ofUInt32 (UInt32.toNat_inj.1 numbers)

theorem int64_delimiting :
    SelfDelimiting (fun _ : Int64 => True)
      (fun value => LittleEndian.bytes 8 value.toUInt64.toNat) := by
  apply SelfDelimiting.of_length 8
  · intro value _
    exact LittleEndian.length_bytes 8 _
  · intro left right _ _ same
    have numbers := LittleEndian.bytes_injective
      left.toUInt64.toNat_lt right.toUInt64.toNat_lt same
    exact congrArg Int64.ofUInt64 (UInt64.toNat_inj.1 numbers)

def hashLength : Nat := 32

theorem hash_delimiting :
    SelfDelimiting (fun hash : Bytes => hash.length = hashLength) id :=
  .of_length hashLength (fun _ sized => sized) fun _ _ _ _ same => same

def SizedEntry (entry : String × Bytes) : Prop :=
  (Text.encode entry.1).length < lengthLimit ∧ entry.2.length = hashLength

theorem entry_delimiting :
    SelfDelimiting SizedEntry
      (fun entry => frameBytes (Text.encode entry.1) ++ entry.2) := by
  intro left right leftRest rightRest leftSized rightSized same
  simp only [List.append_assoc] at same
  obtain ⟨names, later⟩ :=
    frameText_delimiting _ _ _ _ leftSized.1 rightSized.1 same
  obtain ⟨hashes, rest⟩ :=
    hash_delimiting _ _ _ _ leftSized.2 rightSized.2 later
  exact ⟨Prod.ext names hashes, rest⟩

/-- A list of things behind their number delimits itself if they do. -/
theorem counted_delimiting {α : Type} {Valid : α → Prop} {encode : α → Bytes}
    (delimiting : SelfDelimiting Valid encode) :
    SelfDelimiting
      (fun values : List α =>
        values.length < lengthLimit ∧ ∀ value ∈ values, Valid value)
      (fun values => frameLength values.length ++ values.flatMap encode) := by
  intro left right leftRest rightRest leftValid rightValid same
  simp only [List.append_assoc] at same
  obtain ⟨lengths, contents⟩ :=
    frameLength_delimiting _ _ _ _ leftValid.1 rightValid.1 same
  exact delimiting.flatMap leftValid.2 rightValid.2 lengths contents

namespace ResolvedInput

/-- A resolved input whose lengths and counts fit into eight bytes and whose
hashes are as long as hashes are. -/
def Sized : ResolvedInput → Prop
  | bytes value => value.length < lengthLimit
  | text value => (Text.encode value).length < lengthLimit
  | int32 _ => True
  | int64 _ => True
  | bool _ => True
  | file hash => hash.length = hashLength
  | files hashes => hashes.length < lengthLimit ∧
      ∀ hash ∈ hashes, hash.length = hashLength
  | directory hashes => hashes.length < lengthLimit ∧
      ∀ entry ∈ hashes, SizedEntry entry
  | absent => True

/-- The byte that tells the kind of an input. -/
def tag : ResolvedInput → UInt8
  | bytes _ => 0x01
  | text _ => 0x02
  | int32 _ => 0x03
  | int64 _ => 0x04
  | bool _ => 0x05
  | file _ => 0x10
  | files _ => 0x11
  | directory _ => 0x12
  | absent => 0x7F

def body : ResolvedInput → Bytes
  | bytes value => frameBytes value
  | text value => frameBytes (Text.encode value)
  | int32 value => LittleEndian.bytes 4 value.toUInt32.toNat
  | int64 value => LittleEndian.bytes 8 value.toUInt64.toNat
  | bool value => [if value then 1 else 0]
  | file hash => hash
  | files hashes => frameLength hashes.length ++ hashes.flatMap id
  | directory hashes =>
      frameLength hashes.length ++
        hashes.flatMap fun entry => frameBytes (Text.encode entry.1) ++ entry.2
  | absent => absentMark

theorem frame_eq (input : ResolvedInput) :
    input.frame = input.tag :: input.body := by
  cases input <;> simp [frame, tag, body, List.flatMap_id]

/-- Every frame delimits itself: its tag tells how its length is found. -/
theorem frame_delimiting : SelfDelimiting Sized frame := by
  intro left right leftRest rightRest leftSized rightSized same
  rw [frame_eq, frame_eq, List.cons_append, List.cons_append] at same
  obtain ⟨tags, bodies⟩ := List.cons.inj same
  cases left with
  | bytes value =>
      cases right with
      | bytes other =>
          obtain ⟨equal, rest⟩ :=
            frameBytes_delimiting _ _ _ _ leftSized rightSized bodies
          exact ⟨congrArg bytes equal, rest⟩
      | _ => exact absurd tags (by simp [tag])
  | text value =>
      cases right with
      | text other =>
          obtain ⟨equal, rest⟩ :=
            frameText_delimiting _ _ _ _ leftSized rightSized bodies
          exact ⟨congrArg text equal, rest⟩
      | _ => exact absurd tags (by simp [tag])
  | int32 value =>
      cases right with
      | int32 other =>
          obtain ⟨equal, rest⟩ :=
            int32_delimiting _ _ _ _ leftSized rightSized bodies
          exact ⟨congrArg int32 equal, rest⟩
      | _ => exact absurd tags (by simp [tag])
  | int64 value =>
      cases right with
      | int64 other =>
          obtain ⟨equal, rest⟩ :=
            int64_delimiting _ _ _ _ leftSized rightSized bodies
          exact ⟨congrArg int64 equal, rest⟩
      | _ => exact absurd tags (by simp [tag])
  | bool value =>
      cases right with
      | bool other =>
          obtain ⟨first, rest⟩ := List.cons.inj bodies
          cases value <;> cases other <;> simp_all
      | _ => exact absurd tags (by simp [tag])
  | file hash =>
      cases right with
      | file other =>
          obtain ⟨equal, rest⟩ :=
            hash_delimiting _ _ _ _ leftSized rightSized bodies
          exact ⟨congrArg file equal, rest⟩
      | _ => exact absurd tags (by simp [tag])
  | files hashes =>
      cases right with
      | files other =>
          obtain ⟨equal, rest⟩ :=
            counted_delimiting hash_delimiting _ _ _ _ leftSized rightSized bodies
          exact ⟨congrArg files equal, rest⟩
      | _ => exact absurd tags (by simp [tag])
  | directory hashes =>
      cases right with
      | directory other =>
          obtain ⟨equal, rest⟩ :=
            counted_delimiting entry_delimiting _ _ _ _ leftSized rightSized bodies
          exact ⟨congrArg directory equal, rest⟩
      | _ => exact absurd tags (by simp [tag])
  | absent =>
      cases right with
      | absent => exact ⟨rfl, List.append_cancel_left bodies⟩
      | _ => exact absurd tags (by simp [tag])

end ResolvedInput

/-- Lists of inputs are told apart by their bytes: nothing runs together. -/
theorem frameInputs_injective :
    ∀ {left right : List ResolvedInput},
      (∀ input ∈ left, input.Sized) → (∀ input ∈ right, input.Sized) →
      frameInputs left = frameInputs right → left = right
  | [], [], _, _, _ => rfl
  | [], input :: rest, _, _, same => by
      simp [frameInputs, ResolvedInput.frame_eq] at same
  | input :: rest, [], _, _, same => by
      simp [frameInputs, ResolvedInput.frame_eq] at same
  | left :: leftRest, right :: rightRest, leftSized, rightSized, same => by
      simp only [frameInputs, List.flatMap_cons] at same
      obtain ⟨sameHead, later⟩ := ResolvedInput.frame_delimiting left right
        _ _ (leftSized left (by simp)) (rightSized right (by simp)) same
      have sameRest := frameInputs_injective
        (fun input member => leftSized input (by simp [member]))
        (fun input member => rightSized input (by simp [member])) later
      rw [sameHead, sameRest]

end Deobfuscate
