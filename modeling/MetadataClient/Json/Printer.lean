import MetadataClient.Text.Encoding
import MetadataClient.Decimal.Digits
import MetadataClient.Decimal.Shortest
import MetadataClient.Json.Tree

/-! The compact written form of a JSON tree, as bytes. Nothing stands between two
tokens, and members are written in the order in which the tree has them. -/
namespace MetadataClient.Json

def quoteByte : UInt8 := 0x22
def backslash : UInt8 := 0x5c
def comma : UInt8 := 0x2c
def colon : UInt8 := 0x3a
def openArray : UInt8 := 0x5b
def closeArray : UInt8 := 0x5d
def openObject : UInt8 := 0x7b
def closeObject : UInt8 := 0x7d

def shortEscape? (byte : UInt8) : Option UInt8 :=
  if byte = quoteByte then some quoteByte
  else if byte = backslash then some backslash
  else if byte = 0x08 then some 0x62
  else if byte = 0x0c then some 0x66
  else if byte = 0x0a then some 0x6e
  else if byte = 0x0d then some 0x72
  else if byte = 0x09 then some 0x74
  else none

def hexDigit (value : UInt8) : UInt8 :=
  if value < 10 then 0x30 + value else 0x57 + value

/-- Only the quote, the backslash and control characters are escaped. They have one
byte each, so text is escaped byte by byte. -/
def escape (byte : UInt8) : Bytes :=
  match shortEscape? byte with
  | some letter => [backslash, letter]
  | none =>
    if byte < 0x20 then [backslash, 0x75, 0x30, 0x30, hexDigit (byte / 16), hexDigit (byte % 16)]
    else [byte]

def printString (text : String) : Bytes :=
  quoteByte :: (Bytes.ofString text).flatMap escape ++ [quoteByte]

def printNatural (number : Nat) : Bytes :=
  (Decimal.digits number).map fun digit => 0x30 + digit.toUInt8

def minus : UInt8 := 0x2d
def plus : UInt8 := 0x2b
def point : UInt8 := 0x2e
def zeroDigit : UInt8 := 0x30
def exponentMark : UInt8 := 0x65

/-- The shortest decimal that reads back, positional from `1e-5` up to but not
including `1e16` and always with a fraction there, else with a signed exponent. -/
def printMagnitude (rank : Nat) : Bytes :=
  if rank = 0 then [zeroDigit, point, zeroDigit]
  else
    let scaled := Decimal.shortest rank
    let digits := printNatural scaled.digits
    let whole : Int := digits.length + scaled.power
    if whole < -4 ∨ 16 < whole then
      let fraction := digits.drop 1
      digits.take 1 ++ (if fraction.isEmpty then [] else point :: fraction) ++
        exponentMark :: (if whole < 1 then minus else plus) ::
          printNatural (whole - 1).natAbs
    else if whole ≤ 0 then
      zeroDigit :: point :: List.replicate (-whole).toNat zeroDigit ++ digits
    else if 0 ≤ scaled.power then
      digits ++ List.replicate scaled.power.toNat zeroDigit ++ [point, zeroDigit]
    else digits.take whole.toNat ++ point :: digits.drop whole.toNat

def printNumber : Number → Bytes
  | .integer value _ _ =>
    if value < 0 then minus :: printNatural value.natAbs else printNatural value.natAbs
  | .real value =>
    if value.negative then minus :: printMagnitude value.rank else printMagnitude value.rank

namespace Tree

mutual

def print : Tree → Bytes
  | .null => Bytes.ofString "null"
  | .bool value => Bytes.ofString (if value then "true" else "false")
  | .number value => printNumber value
  | .string text => printString text
  | .array items => openArray :: [comma].intercalate (printItems items) ++ [closeArray]
  | .object members => openObject :: [comma].intercalate (printMembers members) ++ [closeObject]

def printItems : List Tree → List Bytes
  | [] => []
  | item :: rest => print item :: printItems rest

def printMembers : List (String × Tree) → List Bytes
  | [] => []
  | (name, value) :: rest => (printString name ++ colon :: print value) :: printMembers rest

end
end Tree

def Value.text (value : Value) : String :=
  (Bytes.toString? value.tree.print).getD ""

end MetadataClient.Json
