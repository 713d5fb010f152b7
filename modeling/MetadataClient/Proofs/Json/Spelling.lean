import MetadataClient.Proofs.Json.Skipping

/-! Spellings of strings. Whichever way the characters of a string are spelled, the string that is
read is made of them, and the way in which strings are written is one of the ways to spell
them. -/
namespace MetadataClient.Json

def PlainByte (byte : UInt8) : Prop :=
  0x20 ≤ byte ∧ byte ≠ quoteByte ∧ byte ≠ backslash

instance (byte : UInt8) : Decidable (PlainByte byte) :=
  inferInstanceAs (Decidable (_ ∧ _))

theorem utf8EncodeChar_small : ∀ code < 0x80,
    String.utf8EncodeChar (.ofNat code) = [.ofNat code] := by
  decide

theorem le_of_mem_utf8EncodeChar {char : Char} (large : 0x80 ≤ char.toNat) {byte : UInt8}
    (member : byte ∈ String.utf8EncodeChar char) : 0x80 ≤ byte := by
  have most : char.val.toNat < 0x110000 := by
    rcases char.valid with low | ⟨-, high⟩ <;> omega
  rw [Char.toNat] at large
  simp only [String.utf8EncodeChar] at member
  generalize char.val.toNat = code at large most member
  rw [UInt8.le_iff_toNat_le]
  change 128 ≤ byte.toNat
  -- One case for each length.
  split_ifs at member <;> simp only [List.mem_cons, List.not_mem_nil, or_false] at member
  · omega
  · rcases member with rfl | rfl <;> simp only [UInt8.toNat_ofNat'] <;> omega
  · rcases member with rfl | rfl | rfl <;> simp only [UInt8.toNat_ofNat'] <;> omega
  · rcases member with rfl | rfl | rfl | rfl <;> simp only [UInt8.toNat_ofNat'] <;> omega

/-- Outside ASCII all bytes of a character are beyond those that mean something. -/
theorem plainByte_of_mem {char : Char} (visible : 0x20 ≤ char.toNat) (unquoted : char ≠ '"')
    (unescaped : char ≠ '\\') : ∀ byte ∈ String.utf8EncodeChar char, PlainByte byte := by
  by_cases small : char.toNat < 0x80
  · have all : ∀ code < 0x80, 0x20 ≤ code → Char.ofNat code ≠ '"' → Char.ofNat code ≠ '\\' →
        PlainByte (.ofNat code) := by
      decide
    have single := utf8EncodeChar_small char.toNat small
    have plain := all char.toNat small visible
    rw [Char.ofNat_toNat] at single plain
    rw [single]
    exact List.forall_mem_singleton.mpr (plain unquoted unescaped)
  · intro byte member
    have large := le_of_mem_utf8EncodeChar (Nat.not_lt.mp small) member
    have other {mark : UInt8} (small : ¬ 0x80 ≤ mark) : byte ≠ mark := by
      rintro rfl
      exact small large
    exact ⟨UInt8.le_trans (by decide) large, other (by decide), other (by decide)⟩

theorem readText_append {bytes : Bytes} (plain : ∀ byte ∈ bytes, PlainByte byte)
    (earlier rest : Bytes) :
    readText earlier (bytes ++ rest) = readText (bytes.reverse ++ earlier) rest := by
  induction bytes generalizing earlier with
  | nil => rfl
  | cons byte bytes ih =>
    obtain ⟨⟨visible, unquoted, unescaped⟩, later⟩ := List.forall_mem_cons.mp plain
    rw [List.cons_append, readText, if_neg unquoted, if_neg unescaped,
      if_neg (UInt8.not_lt.mpr visible), ih later, List.reverse_cons, List.append_assoc]
    rfl

/-! ## Escapes -/

theorem readText_escaped_char {input meant : Bytes} {count : Nat}
    (read : readEscape input = .ok (meant, count)) (earlier : Bytes) :
    readText earlier (backslash :: input) =
      readText (meant.reverse ++ earlier) (input.drop count) := by
  rw [readText, if_neg (by decide), if_pos rfl, read]

section Escapes

variable (earlier rest : Bytes)

theorem readText_letter {letter : UInt8} {meant : Char} (means : (letter, meant) ∈ letters) :
    readText earlier (backslash :: letter :: rest) =
      readText ((String.utf8EncodeChar meant).reverse ++ earlier) rest := by
  obtain ⟨other, known, bytes⟩ := letterMeaning?_of_mem _ means
  have read : readEscape (letter :: rest) = .ok (String.utf8EncodeChar meant, 1) := by
    rw [readEscape, if_neg other, known, bytes]
  exact readText_escaped_char read earlier

theorem readText_unit {digits : Bytes} {char : Char} (writes : CodeUnit digits char.toNat) :
    readText earlier (backslash :: 0x75 :: (digits ++ rest)) =
      readText ((String.utf8EncodeChar char).reverse ++ earlier) rest := by
  have valid : char.toNat < 0xd800 ∨ 0xdfff < char.toNat ∧ char.toNat < 0x110000 := char.valid
  have notLow : isLowSurrogate char.toNat = false := by
    simp only [isLowSurrogate, Bool.and_eq_false_iff, decide_eq_false_iff_not]
    omega
  have notHigh : isHighSurrogate char.toNat = false := by
    simp only [isHighSurrogate, Bool.and_eq_false_iff, decide_eq_false_iff_not]
    omega
  have read : readEscape (0x75 :: (digits ++ rest)) = .ok (String.utf8EncodeChar char, 5) := by
    rw [readEscape, if_pos rfl, readUnit_append writes]
    simp only [bind, Except.bind, notLow, notHigh, Bool.false_eq_true, if_false, Char.ofNat_toNat]
  rw [readText_escaped_char read, List.drop_succ_cons, List.drop_left' writes.length]

theorem readLowHalf_append {digits : Bytes} {low : Nat} (writes : CodeUnit digits (0xdc00 + low))
    (small : low < 0x400) :
    readLowHalf (backslash :: 0x75 :: (digits ++ rest)) = .ok (0xdc00 + low) := by
  have isLow : isLowSurrogate (0xdc00 + low) = true := by
    simp only [isLowSurrogate, Bool.and_eq_true, decide_eq_true_eq]
    omega
  simp only [readLowHalf, ne_eq, not_true_eq_false, if_false, readUnit_append writes, bind,
    Except.bind, isLow, if_true]

theorem readText_pair {digits digits' : Bytes} {high low : Nat} {char : Char}
    (first : CodeUnit digits (0xd800 + high)) (second : CodeUnit digits' (0xdc00 + low))
    (small : high < 0x400) (small' : low < 0x400)
    (joined : char.toNat = 0x10000 + high * 0x400 + low) :
    readText earlier (backslash :: 0x75 :: (digits ++ backslash :: 0x75 :: (digits' ++ rest))) =
      readText ((String.utf8EncodeChar char).reverse ++ earlier) rest := by
  have notLow : isLowSurrogate (0xd800 + high) = false := by
    simp only [isLowSurrogate, Bool.and_eq_false_iff, decide_eq_false_iff_not]
    omega
  have isHigh : isHighSurrogate (0xd800 + high) = true := by
    simp only [isHighSurrogate, Bool.and_eq_true, decide_eq_true_eq]
    omega
  have scalar : 0x10000 + (0xd800 + high - 0xd800) * 0x400 + (0xdc00 + low - 0xdc00) =
      char.toNat := by
    omega
  have read : readEscape (0x75 :: (digits ++ backslash :: 0x75 :: (digits' ++ rest))) =
      .ok (String.utf8EncodeChar char, 11) := by
    rw [readEscape, if_pos rfl, readUnit_append first]
    simp only [bind, Except.bind, notLow, isHigh, Bool.false_eq_true, if_false, if_true,
      List.drop_left' first.length, readLowHalf_append rest second small', scalar,
      Char.ofNat_toNat]
  have both : 0x75 :: (digits ++ backslash :: 0x75 :: (digits' ++ rest)) =
      (0x75 :: (digits ++ backslash :: 0x75 :: digits')) ++ rest := by
    simp only [List.cons_append, List.append_assoc]
  have length : (0x75 :: (digits ++ backslash :: 0x75 :: digits')).length = 11 := by
    simp only [List.length_cons, List.length_append, first.length, second.length]
  rw [readText_escaped_char read, both, List.drop_left' length]

end Escapes

/-! ## Strings -/

theorem reverse_append_utf8EncodeChar (earlier : Bytes) (char : Char) (chars : List Char) :
    ((String.utf8EncodeChar char).reverse ++ earlier).reverse ++
        chars.flatMap String.utf8EncodeChar =
      earlier.reverse ++ (char :: chars).flatMap String.utf8EncodeChar := by
  rw [List.reverse_append, List.reverse_reverse, List.append_assoc, List.flatMap_cons]

theorem readText_spells {content : Bytes} {chars : List Char} (spells : Spells content chars)
    (earlier rest : Bytes) :
    readText earlier (content ++ quoteByte :: rest) =
      .ok (earlier.reverse ++ chars.flatMap String.utf8EncodeChar, rest) := by
  induction spells generalizing earlier with
  | nil => rw [List.nil_append, readText, if_pos rfl, List.flatMap_nil, List.append_nil]
  | plain visible unquoted unescaped _ ih =>
    rw [List.append_assoc, readText_append (plainByte_of_mem visible unquoted unescaped), ih,
      reverse_append_utf8EncodeChar]
  | letter means _ ih =>
    rw [List.cons_append, List.cons_append, readText_letter _ _ means, ih,
      reverse_append_utf8EncodeChar]
  | unit writes _ ih =>
    rw [List.cons_append, List.cons_append, List.append_assoc, readText_unit _ _ writes, ih,
      reverse_append_utf8EncodeChar]
  | pair first second small small' joined _ ih =>
    simp only [List.cons_append, List.append_assoc]
    rw [readText_pair _ _ first second small small' joined, ih, reverse_append_utf8EncodeChar]

theorem readString_spells {content : Bytes} {text : String} (spells : Spells content text.toList)
    (rest : Bytes) : readString (content ++ quoteByte :: rest) = .ok (text, rest) := by
  simp only [readString, readText_spells spells, bind, Except.bind, List.reverse_nil,
    List.nil_append, ← Bytes.ofString_eq_flatMap, Bytes.toString?_ofString]

/-! ## Written strings -/

theorem escape_plain {byte : UInt8} (plain : PlainByte byte) : escape byte = [byte] := by
  have all : ∀ code < 256, PlainByte (.ofNat code) → escape (.ofNat code) = [.ofNat code] := by
    decide +kernel
  have same := all byte.toNat byte.toNat_lt
  rw [UInt8.ofNat_toNat] at same
  exact same plain

theorem flatMap_escape_plain {bytes : Bytes} (plain : ∀ byte ∈ bytes, PlainByte byte) :
    bytes.flatMap escape = bytes := by
  rw [List.flatMap_congr fun byte member => escape_plain (plain byte member),
    List.flatMap_singleton']

theorem mem_letters_of_shortEscape? : ∀ code < 0x80,
    (shortEscape? (.ofNat code)).all fun letter => (letter, Char.ofNat code) ∈ letters := by
  decide

/-- A control character is escaped by its last two digits behind two zeros. -/
theorem codeUnit_control : ∀ code < 0x20, CodeUnit
    [0x30, 0x30, hexDigit (.ofNat code / 16), hexDigit (.ofNat code % 16)] code := by
  have digits : ∀ code < 0x20,
      Text.HexDigit (code / 16) (.ofNat (hexDigit (.ofNat code / 16)).toNat) ∧
        Text.HexDigit (code % 16) (.ofNat (hexDigit (.ofNat code % 16)).toNat) := by
    decide
  intro code control
  obtain ⟨low, lowest⟩ := digits code control
  have zero : Text.HexDigit 0 (.ofNat (0x30 : UInt8).toNat) := .inl rfl
  have unit := CodeUnit.digits zero zero low lowest
  rwa [show ((0 * 16 + 0) * 16 + code / 16) * 16 + code % 16 = code by omega] at unit

theorem spells_escaped_char (char : Char) {rest : Bytes} {chars : List Char}
    (spells : Spells rest chars) :
    Spells ((String.utf8EncodeChar char).flatMap escape ++ rest) (char :: chars) := by
  by_cases small : char.toNat < 0x80
  · have code := utf8EncodeChar_small char.toNat small
    have letter := mem_letters_of_shortEscape? char.toNat small
    rw [Char.ofNat_toNat] at code letter
    rw [code, List.flatMap_singleton, escape]
    cases short : shortEscape? (.ofNat char.toNat) with
    | some mark =>
      rw [short] at letter
      exact .letter (of_decide_eq_true letter) spells
    | none =>
      have size : (UInt8.ofNat char.toNat).toNat = char.toNat :=
        UInt8.toNat_ofNat_of_lt' (Nat.lt_trans small (by decide))
      dsimp only
      by_cases control : char.toNat < 0x20
      · rw [if_pos (UInt8.lt_iff_toNat_lt.mpr (by rwa [size]))]
        exact .unit (codeUnit_control char.toNat control) spells
      · have unquoted : char ≠ '"' := by
          rintro rfl
          exact absurd short (by decide)
        have unescaped : char ≠ '\\' := by
          rintro rfl
          exact absurd short (by decide)
        rw [if_neg (mt UInt8.lt_iff_toNat_lt.mp (by rwa [size])), ← code]
        exact .plain (Nat.not_lt.mp control) unquoted unescaped spells
  · have large := Nat.not_lt.mp small
    have visible := Nat.le_trans (by decide : 0x20 ≤ 0x80) large
    have unquoted : char ≠ '"' := by
      rintro rfl
      exact absurd large (by decide)
    have unescaped : char ≠ '\\' := by
      rintro rfl
      exact absurd large (by decide)
    rw [flatMap_escape_plain (plainByte_of_mem visible unquoted unescaped)]
    exact .plain visible unquoted unescaped spells

/-- A string is written in one of its spellings. -/
theorem spells_printed (text : String) :
    Spells ((Bytes.ofString text).flatMap escape) text.toList := by
  rw [Bytes.ofString_eq_flatMap, List.flatMap_assoc]
  induction text.toList with
  | nil => exact .nil
  | cons char chars ih => exact spells_escaped_char char ih

theorem Padded.holds_bare (text : String) : (bare (printString text)).Holds text :=
  ⟨_, spells_printed text, rfl⟩

end MetadataClient.Json
