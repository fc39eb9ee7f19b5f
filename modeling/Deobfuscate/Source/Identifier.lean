import Deobfuscate.Text.Search
import Deobfuscate.Text.Word

/-!
# Intermediate names in source text

An intermediate name is `func_` or `field_`, a number, an underscore and ASCII
letters or underscores; or `p_`, word characters, an underscore, a number and
an underscore.  It counts where it ends its run of word characters, unless a
dollar sign follows.
-/

namespace Deobfuscate.Source

open Deobfuscate.Text

/-- What an intermediate name stands for. -/
inductive NameKind
  | method
  | field
  | parameter
  deriving DecidableEq, Repr

/-- Letters of the last part of a method or field name. -/
def isNameLetter (char : Char) : Bool :=
  char.isAlpha || char == '_'

def endsName : List Char → Bool
  | [] => true
  | char :: _ => !isWordChar char && char != '$'

/-- The length of a number, an underscore and letters at the start of a text,
if they end a name there. -/
def numberedLength (chars : List Char) : Option Nat :=
  let digits := (chars.takeWhile isDecimal).length
  match chars.drop digits with
  | '_' :: rest =>
      let letters := (rest.takeWhile isNameLetter).length
      if digits = 0 ∨ letters = 0 ∨ !endsName (rest.drop letters) then none
      else some (digits + 1 + letters)
  | _ => none

/-- Whether a run of word characters, given in reverse, is a non-empty part, an
underscore, a number and an underscore. -/
def isParameterTail : List Char → Bool
  | '_' :: rest =>
      let digits := (rest.takeWhile isDecimal).length
      match rest.drop digits with
      | '_' :: part => 0 < digits && !part.isEmpty
      | _ => false
  | _ => false

def parameterLength (chars : List Char) : Option Nat :=
  let run := chars.takeWhile isWordChar
  if isParameterTail run.reverse && endsName (chars.drop run.length) then
    some run.length
  else none

def nameAt (chars : List Char) : Option (NameKind × Nat) :=
  match stripStart "func_".toList chars with
  | some rest => (numberedLength rest).map fun length => (.method, length + 5)
  | none =>
      match stripStart "field_".toList chars with
      | some rest => (numberedLength rest).map fun length => (.field, length + 6)
      | none =>
          match stripStart "p_".toList chars with
          | some rest =>
              (parameterLength rest).map fun length => (.parameter, length + 2)
          | none => none

/-- Replace the intermediate names of a text; the first `pending` characters
belong to a name already replaced. -/
def replaceNames (lookup : NameKind → String → Option String) :
    Nat → List Char → List Char
  | _, [] => []
  | pending + 1, _ :: rest => replaceNames lookup pending rest
  | 0, char :: rest =>
      match nameAt (char :: rest) with
      | none => char :: replaceNames lookup 0 rest
      | some (kind, length) =>
          let name := (char :: rest).take length
          let new := (lookup kind (String.ofList name)).map String.toList
          new.getD name ++ replaceNames lookup (length - 1) rest

def firstName : List Char → Option (NameKind × String)
  | [] => none
  | char :: rest =>
      match nameAt (char :: rest) with
      | some (kind, length) =>
          some (kind, String.ofList ((char :: rest).take length))
      | none => firstName rest

end Deobfuscate.Source
