/-
Identifiers of audit records: 128 bits, written as 32 hexadecimal digits in five groups. Identifiers
are read with or without hyphens, in braces or behind the prefix `urn:uuid:`, in either case.
-/

import AccessPolicy.Json.Token

namespace AccessPolicy

structure Identifier where
  bits : BitVec 128
  deriving DecidableEq, Repr

namespace Identifier

/-- An identifier of random bits has the version 4 and the variant 2 in their places. -/
def random (high low : UInt64) : Identifier :=
  let high := high.toNat / 0x10000 * 0x10000 + 0x4000 + high.toNat % 0x1000
  let low := 0x8000000000000000 + low.toNat % 0x4000000000000000
  { bits := BitVec.ofNat 128 (high * UInt64.size + low) }

def version (id : Identifier) : Nat := id.bits.toNat / Nat.pow 2 76 % 0x10

def groupLengths : List Nat := [8, 4, 4, 4, 12]

def digits (id : Identifier) : List Char :=
  let shown := Nat.toDigits 16 id.bits.toNat
  List.replicate (32 - shown.length) '0' ++ shown

def group : List Nat → List Char → List (List Char)
  | [], _ => []
  | length :: lengths, digits => digits.take length :: group lengths (digits.drop length)

def write (id : Identifier) : String :=
  String.intercalate "-" ((group groupLengths id.digits).map String.ofList)

/-! ### Reading -/

inductive Fault
  | character (found : Char) (place : Nat)
  | simpleLength (found : Nat)
  | groupCount (found : Nat)
  | groupLength (group expected found : Nat)
  deriving DecidableEq, Repr

def Fault.message : Fault → String
  | .character found place =>
    "invalid character: expected an optional prefix of `urn:uuid:` followed by [0-9a-fA-F-], found `"
      ++ String.singleton found ++ "` at " ++ Text.natural place
  | .simpleLength found =>
    "invalid length: expected length 32 for simple format, found " ++ Text.natural found
  | .groupCount found => "invalid group count: expected 5, found " ++ Text.natural found
  | .groupLength group expected found =>
    "invalid group length in group " ++ Text.natural group ++ ": expected "
      ++ Text.natural expected ++ ", found " ++ Text.natural found

/-- The part of a text that holds the digits, the place where it starts, and whether it stands
alone. -/
def body (text : List Char) : List Char × Nat × Bool :=
  match text with
  | '\x7b' :: rest =>
    if rest.getLast? = some '\x7d' then (rest.dropLast, 1, false) else (text, 0, true)
  | _ =>
    if text.take 9 = "urn:uuid:".toList then (text.drop 9, 9, false) else (text, 0, true)

def splitGroups (digits : List Char) : List (List Char) :=
  digits.foldr (fun c groups =>
    match c, groups with
    | '-', groups => [] :: groups
    | c, [] => [[c]]
    | c, group :: groups => (c :: group) :: groups) [[]]

/-- The first group of a wrong length. The last one is measured by the whole text. -/
def wrongLength? (total index : Nat) : List Nat → List (List Char) → Option Fault
  | length :: lengths, group :: groups =>
    if group.length = length then wrongLength? total (index + 1) lengths groups
    else if lengths.isEmpty then some (.groupLength index length (total - 24))
    else some (.groupLength index length group.length)
  | _, _ => none

def wrongCharacter? (place : Nat) : List Char → Option Fault
  | [] => none
  | c :: rest =>
    if c = '-' || (Json.hexValue? c).isSome then wrongCharacter? (place + c.utf8Size) rest
    else some (.character c place)

def ofDigits (digits : List Char) : Identifier :=
  { bits := BitVec.ofNat 128
      (digits.foldl (fun value digit => 16 * value + (Json.hexValue? digit).getD 0) 0) }

/-- Only an identifier that stands alone may do without hyphens. -/
def read (text : String) : Except Fault Identifier :=
  let (digits, start, alone) := body text.toList
  let groups := splitGroups digits
  match wrongCharacter? (start + 1) digits with
  | some fault => .error fault
  | none =>
    if groups.length = 1 && alone then
      if digits.length = 32 then .ok (ofDigits digits)
      else .error (.simpleLength text.utf8ByteSize)
    else if groups.length ≠ 5 then .error (.groupCount groups.length)
    else match wrongLength? text.utf8ByteSize 0 groupLengths groups with
      | some fault => .error fault
      | none => .ok (ofDigits groups.flatten)

end Identifier

end AccessPolicy
