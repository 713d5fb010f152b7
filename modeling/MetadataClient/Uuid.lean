import MetadataClient.Text.Hexadecimal

/-! Identifiers of 128 bits. They are written as thirty-two hexadecimal digits in
five groups, in lower case. Digits of either case are read, without groups, in groups,
in groups between braces, and in groups behind `urn:uuid:`. -/
namespace MetadataClient

structure Uuid where
  bits : BitVec 128
deriving DecidableEq

namespace Uuid

/-- Why a text is no identifier. Positions and lengths count bytes. -/
inductive Fault
  | length (found : Nat)
  | character (found : Char) (position : Nat)
  | groupCount (found : Nat)
  | groupLength (group expected found : Nat)
deriving DecidableEq

def Fault.message : Fault → String
  | length found => "invalid length: found " ++ toString found
  | character found position =>
    "invalid character: found \x60" ++ found.toString ++ "\x60 at " ++ toString position
  | groupCount found => "invalid group count: expected 5, found " ++ toString found
  | groupLength group expected found =>
    "invalid group length in group " ++ toString group ++ ": expected " ++ toString expected
      ++ ", found " ++ toString found

def groupLengths : List Nat := [8, 4, 4, 4, 12]

def hyphenate : List Nat → List Char → List Char
  | [], chars => chars
  | [_], chars => chars
  | length :: lengths, chars =>
    chars.take length ++ '-' :: hyphenate lengths (chars.drop length)

def unhyphenate? : List Nat → List Char → Option (List Char)
  | [], chars => if chars.isEmpty then some [] else none
  | [length], chars => if chars.length = length then some chars else none
  | length :: lengths, chars =>
    match chars.drop length with
    | '-' :: rest => (unhyphenate? lengths rest).map (chars.take length ++ ·)
    | _ => none

def ofNumber (number : Nat) : Uuid :=
  ⟨.ofNat 128 number⟩

def ofDigits? (chars : List Char) : Option Uuid :=
  if chars.length = 32 then
    (chars.mapM Text.hexValue?).map fun digits => ofNumber (Text.hexNumber digits)
  else none

def ofGroups? (chars : List Char) : Option Uuid :=
  (unhyphenate? groupLengths chars).bind ofDigits?

def text (uuid : Uuid) : String :=
  String.ofList
    (hyphenate groupLengths ((Text.hexDigits 32 uuid.bits.toNat).map Text.hexDigit))

def byteCount (chars : List Char) : Nat :=
  (String.ofList chars).utf8ByteSize

def unbraced? (chars : List Char) : Option (List Char) :=
  match chars with
  | '\x7b' :: rest => if rest.getLast? = some '\x7d' then some rest.dropLast else none
  | _ => none

def unprefixed? (chars : List Char) : Option (List Char) :=
  if (chars.take 9).map Char.toLower = "urn:uuid:".toList then some (chars.drop 9) else none

def strangeCharacter? (position : Nat) : List Char → Option (Char × Nat)
  | [] => none
  | char :: rest =>
    if char = '-' || (Text.hexValue? char).isSome then
      strangeCharacter? (position + char.utf8Size) rest
    else some (char, position)

def hyphenPositions (chars : List Char) : List Nat :=
  (List.range chars.length).filter fun position => chars[position]? == some '-'

/-- The first group that ends too early or too late, given where the hyphens are. -/
def wrongGroup (total : Nat) (hyphens : List Nat) : Fault :=
  match ((hyphens.zip [0, 9, 14, 19]).zip groupLengths).zipIdx.find?
      fun (((hyphen, start), expected), _) => hyphen != start + expected with
  | some (((hyphen, start), expected), group) => .groupLength group expected (hyphen - start)
  | none => .groupLength 4 12 (total - 24)

/-- What is wrong with `inside`, which starts at a position of a text of `total`
bytes. Without any hyphen a text that might be plain digits has the wrong length. -/
def faultInside (mayBePlain : Bool) (total position : Nat) (inside : List Char) : Fault :=
  match strangeCharacter? position inside with
  | some (char, position) => .character char position
  | none =>
    let hyphens := hyphenPositions inside
    if hyphens.isEmpty && mayBePlain then .length total
    else if hyphens.length ≠ 4 then .groupCount (hyphens.length + 1)
    else wrongGroup total hyphens

def groupFault (chars : List Char) : Fault :=
  faultInside false (byteCount chars) 0 chars

def shapeFault (chars : List Char) : Fault :=
  let total := byteCount chars
  if total = 0 ∨ 45 < total then .length total
  else match unbraced? chars with
    | some inside => faultInside false total 1 inside
    | none =>
      match unprefixed? chars with
      | some inside => faultInside false total 9 inside
      | none => faultInside true total 0 chars

def parseChars (chars : List Char) : Except Fault Uuid :=
  let grouped inside :=
    match ofGroups? inside with
    | some uuid => .ok uuid
    | none => .error (groupFault inside)
  let total := byteCount chars
  if total = 36 then grouped chars
  else match ofDigits? chars with
    | some uuid => .ok uuid
    | none =>
      match unbraced? chars, unprefixed? chars with
      | some inside, _ => if total = 38 then grouped inside else .error (shapeFault chars)
      | none, some inside => if total = 45 then grouped inside else .error (shapeFault chars)
      | none, none => .error (shapeFault chars)

def parse (text : String) : Except Fault Uuid :=
  parseChars text.toList

end Uuid
end MetadataClient
