import MetadataClient.Json.Scan
import MetadataClient.Proofs.Text.Hexadecimal

/-! The grammar of JSON text. A text is described by the parts that it is put together from and
not by a reader, so no limit is set to how deep its values nest or how large its numbers
are. -/
namespace MetadataClient.Json

/-! ## White space -/

def Blank (text : Bytes) : Prop :=
  ∀ byte ∈ text, byte = 0x20 ∨ byte = 0x09 ∨ byte = 0x0a ∨ byte = 0x0d

instance (text : Bytes) : Decidable (Blank text) :=
  List.decidableBAll _ text

theorem blank_nil : Blank [] := by
  decide

structure Padded where
  before : Bytes
  inner : Bytes
  after : Bytes
  blank_before : Blank before
  blank_after : Blank after

def Padded.text (padded : Padded) : Bytes :=
  padded.before ++ padded.inner ++ padded.after

def Padded.bare (inner : Bytes) : Padded :=
  ⟨[], inner, [], blank_nil, blank_nil⟩

theorem Padded.text_bare (inner : Bytes) : (bare inner).text = inner :=
  List.append_nil inner

/-- Parts with commas between them, or white space where there are none. -/
inductive Listed : List Bytes → Bytes → Prop
  | none {blank : Bytes} (white : Blank blank) : Listed [] blank
  | some {parts : List Bytes} (nonempty : parts ≠ []) : Listed parts ([comma].intercalate parts)

/-! ## Strings -/

def inQuotes (content : Bytes) : Bytes :=
  quoteByte :: (content ++ [quoteByte])

def letters : List (UInt8 × Char) :=
  [(0x22, '"'), (0x5c, '\\'), (0x2f, '/'), (0x62, '\x08'), (0x66, '\x0c'), (0x6e, '\n'),
    (0x72, '\r'), (0x74, '\t')]

/-- Four hexadecimal digits of either case and the number that they write. -/
inductive CodeUnit : Bytes → Nat → Prop
  | digits {first second third fourth : UInt8} {a b c d : Nat}
      (highest : Text.HexDigit a (.ofNat first.toNat))
      (high : Text.HexDigit b (.ofNat second.toNat))
      (low : Text.HexDigit c (.ofNat third.toNat))
      (lowest : Text.HexDigit d (.ofNat fourth.toNat)) :
      CodeUnit [first, second, third, fourth] (((a * 16 + b) * 16 + c) * 16 + d)

/-- What may stand between quotes. This is only about the shape: the bytes need not be text, and
escapes may stand for half a character. -/
inductive Quoted : Bytes → Prop
  | nil : Quoted []
  | plain {byte : UInt8} {rest : Bytes} (visible : 0x20 ≤ byte) (unquoted : byte ≠ quoteByte)
      (unescaped : byte ≠ backslash) (quoted : Quoted rest) : Quoted (byte :: rest)
  | letter {letter : UInt8} {meant : Char} {rest : Bytes} (means : (letter, meant) ∈ letters)
      (quoted : Quoted rest) : Quoted (backslash :: letter :: rest)
  | unit {digits rest : Bytes} {unit : Nat} (writes : CodeUnit digits unit) (quoted : Quoted rest) :
      Quoted (backslash :: 0x75 :: (digits ++ rest))

/-- What may stand between quotes for these characters. Each of them stands for itself or is
escaped in one of several ways. -/
inductive Spells : Bytes → List Char → Prop
  | nil : Spells [] []
  | plain {char : Char} {rest : Bytes} {chars : List Char} (visible : 0x20 ≤ char.toNat)
      (unquoted : char ≠ '"') (unescaped : char ≠ '\\') (spells : Spells rest chars) :
      Spells (String.utf8EncodeChar char ++ rest) (char :: chars)
  | letter {letter : UInt8} {meant : Char} {rest : Bytes} {chars : List Char}
      (means : (letter, meant) ∈ letters) (spells : Spells rest chars) :
      Spells (backslash :: letter :: rest) (meant :: chars)
  | unit {digits rest : Bytes} {char : Char} {chars : List Char}
      (writes : CodeUnit digits char.toNat) (spells : Spells rest chars) :
      Spells (backslash :: 0x75 :: (digits ++ rest)) (char :: chars)
  | pair {digits digits' rest : Bytes} {high low : Nat} {char : Char} {chars : List Char}
      (first : CodeUnit digits (0xd800 + high)) (second : CodeUnit digits' (0xdc00 + low))
      (small : high < 0x400) (small' : low < 0x400)
      (joined : char.toNat = 0x10000 + high * 0x400 + low) (spells : Spells rest chars) :
      Spells (backslash :: 0x75 :: (digits ++ backslash :: 0x75 :: (digits' ++ rest)))
        (char :: chars)

/-- What stands inside the white space is this text in quotes, spelled in some way. -/
def Padded.Holds (padded : Padded) (text : String) : Prop :=
  ∃ content, Spells content text.toList ∧ padded.inner = inQuotes content

/-! ## Numbers -/

def Digits (text : Bytes) : Prop :=
  text ≠ [] ∧ ∀ byte ∈ text, 0x30 ≤ byte ∧ byte ≤ 0x39

instance (text : Bytes) : Decidable (Digits text) :=
  @instDecidableAnd _ _ _ (List.decidableBAll _ text)

structure Numeral where
  sign : Bytes
  whole : Bytes
  fraction : Bytes
  exponent : Bytes
  signed : sign = [] ∨ sign = [minus]
  counts : Digits whole
  leading : whole.head? = some zeroDigit → whole = [zeroDigit]
  divided : fraction = [] ∨ ∃ digits, Digits digits ∧ fraction = point :: digits
  scaled : exponent = [] ∨ ∃ mark sign digits, (mark = exponentMark ∨ mark = 0x45) ∧
    (sign = [] ∨ sign = [plus] ∨ sign = [minus]) ∧ Digits digits ∧
    exponent = mark :: (sign ++ digits)

def Numeral.text (numeral : Numeral) : Bytes :=
  numeral.sign ++ (numeral.whole ++ (numeral.fraction ++ numeral.exponent))

/-! ## Values -/

/-- A member of an object, white space included. -/
structure Member where
  name : Padded
  value : Padded

def Member.text (member : Member) : Bytes :=
  member.name.text ++ colon :: member.value.text

/-- The text of any value. -/
inductive ValueText : Bytes → Prop
  | null : ValueText (Bytes.ofString "null")
  | bool (value : Bool) : ValueText (Bytes.ofString (if value then "true" else "false"))
  | number (numeral : Numeral) : ValueText numeral.text
  | string {content : Bytes} (quoted : Quoted content) : ValueText (inQuotes content)
  | array {items : List Padded} {inside : Bytes} (listed : Listed (items.map Padded.text) inside)
      (values : ∀ item ∈ items, ValueText item.inner) :
      ValueText (openArray :: inside ++ [closeArray])
  | object {members : List Member} {inside : Bytes}
      (listed : Listed (members.map Member.text) inside)
      (names : ∀ member ∈ members, ∃ content, Quoted content ∧
        member.name.inner = inQuotes content)
      (values : ∀ member ∈ members, ValueText member.value.inner) :
      ValueText (openObject :: inside ++ [closeObject])

/-- A whole text that holds an object with these members. -/
inductive ObjectText (members : List Member) : Bytes → Prop
  | around {before inside after : Bytes} (blank_before : Blank before) (blank_after : Blank after)
      (listed : Listed (members.map Member.text) inside) :
      ObjectText members (before ++ (openObject :: inside ++ closeObject :: after))

end MetadataClient.Json
