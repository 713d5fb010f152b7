import MetadataClient.Json.Skip
import MetadataClient.Proofs.Json.Grammar
import MetadataClient.Proofs.Json.RoundTrip

/-! Values that are passed over. Whatever the grammar allows as a value is left behind to its
last byte, however deep it nests and whatever it is spelled like. -/
namespace MetadataClient.Json

/-! ## White space -/

theorem isBlank_iff {byte : UInt8} :
    isBlank byte = true ↔ byte = 0x20 ∨ byte = 0x09 ∨ byte = 0x0a ∨ byte = 0x0d := by
  simp only [isBlank, Bool.or_eq_true, decide_eq_true_eq, or_assoc]

theorem skipBlanks_append {blank : Bytes} (white : Blank blank) (rest : Bytes) :
    skipBlanks (blank ++ rest) = skipBlanks rest := by
  induction blank with
  | nil => rfl
  | cons byte blank ih =>
    obtain ⟨first, later⟩ := List.forall_mem_cons.mp white
    rw [List.cons_append, skipBlanks, if_pos (isBlank_iff.mpr first), ih later]

/-- Nothing follows, or white space or a mark that ends a value. -/
def Ended (rest : Bytes) : Prop :=
  ∀ byte ∈ rest.head?, isBlank byte = true ∨ byte = comma ∨ byte = closeArray ∨ byte = closeObject

theorem ended_append {blank rest : Bytes} (white : Blank blank) (closed : Closed rest) :
    Ended (blank ++ rest) := by
  cases blank with
  | nil => exact fun byte first => .inr (closed byte first)
  | cons byte blank =>
    rintro byte ⟨⟩
    exact .inl (isBlank_iff.mpr (white byte List.mem_cons_self))

theorem Ended.stops {rest : Bytes} (ended : Ended rest) : StopsDigits rest ∧
    ∀ byte ∈ rest.head?, byte ≠ point ∧ byte ≠ exponentMark ∧ byte ≠ 0x45 := by
  have all : ∀ byte ∈ rest.head?, isDigit byte = false ∧ byte ≠ point ∧ byte ≠ exponentMark ∧
      byte ≠ 0x45 := by
    intro byte first
    rcases ended byte first with blank | rfl | rfl | rfl
    · rcases isBlank_iff.mp blank with rfl | rfl | rfl | rfl <;> decide
    · decide
    · decide
    · decide
  exact ⟨fun byte first => (all byte first).1, fun byte first => (all byte first).2⟩

/-! ## Strings -/

theorem letterMeaning?_of_mem : ∀ entry ∈ letters,
    entry.1 ≠ 0x75 ∧ letterMeaning? entry.1 = some (.ofNat entry.2.toNat) ∧
      String.utf8EncodeChar entry.2 = [.ofNat entry.2.toNat] := by
  decide

theorem hexValue?_of_hexDigit {digit : Nat} {byte : UInt8}
    (is : Text.HexDigit digit (.ofNat byte.toNat)) : hexValue? byte = some digit := by
  have lower : ∀ digit < 16, ("0123456789abcdef".toList[digit]?).bind
      (fun char => hexValue? (.ofNat char.toNat)) = some digit := by
    decide +kernel
  have upper : ∀ digit < 16, ("0123456789ABCDEF".toList[digit]?).bind
      (fun char => hexValue? (.ofNat char.toNat)) = some digit := by
    decide +kernel
  have code : ∀ code < 256, (Char.ofNat code).toNat = code := by
    decide +kernel
  have same : UInt8.ofNat (Char.ofNat byte.toNat).toNat = byte := by
    rw [code byte.toNat byte.toNat_lt, UInt8.ofNat_toNat]
  rcases is with found | found
  · have value := lower digit (Text.HexDigit.lt (.inl found))
    rwa [found, Option.bind_some, same] at value
  · have value := upper digit (Text.HexDigit.lt (.inr found))
    rwa [found, Option.bind_some, same] at value

theorem readUnit_append {digits : Bytes} {unit : Nat} (writes : CodeUnit digits unit)
    (rest : Bytes) : readUnit (digits ++ rest) = .ok unit := by
  obtain ⟨highest, high, low, lowest⟩ := writes
  simp only [List.cons_append, List.nil_append, readUnit, hexValue?_of_hexDigit highest,
    hexValue?_of_hexDigit high, hexValue?_of_hexDigit low, hexValue?_of_hexDigit lowest]

theorem CodeUnit.length {digits : Bytes} {unit : Nat} (writes : CodeUnit digits unit) :
    digits.length = 4 := by
  cases writes
  rfl

theorem skipString_quoted {content : Bytes} (quoted : Quoted content) (rest : Bytes) :
    skipString (content ++ quoteByte :: rest) = .ok rest := by
  induction quoted with
  | nil => rw [List.nil_append, skipString, if_pos rfl]
  | plain visible unquoted unescaped _ ih =>
    rw [List.cons_append, skipString, if_neg unquoted, if_neg unescaped,
      if_neg (UInt8.not_lt.mpr visible), ih]
  | @letter letter meant content means _ ih =>
    obtain ⟨other, known, -⟩ := letterMeaning?_of_mem _ means
    have taken : skipEscape (letter :: (content ++ quoteByte :: rest)) = .ok 1 := by
      rw [skipEscape, if_neg other, known]
      rfl
    rw [List.cons_append, List.cons_append, skipString, if_neg (by decide), if_pos rfl, taken]
    exact ih
  | @unit digits content unit writes _ ih =>
    have taken : skipEscape (0x75 :: (digits ++ content ++ quoteByte :: rest)) = .ok 5 := by
      rw [skipEscape, if_pos rfl, List.append_assoc, readUnit_append writes]
      rfl
    rw [List.cons_append, List.cons_append, skipString, if_neg (by decide), if_pos rfl, taken]
    dsimp only
    rw [List.append_assoc, List.drop_succ_cons, List.drop_left' writes.length, ih]

/-! ## Numbers -/

theorem isDigit_iff {byte : UInt8} : isDigit byte = true ↔ 0x30 ≤ byte ∧ byte ≤ 0x39 := by
  rw [isDigit, Bool.and_eq_true, decide_eq_true_eq, decide_eq_true_eq]

theorem readDigits_append {digits rest : Bytes} (all : ∀ byte ∈ digits, 0x30 ≤ byte ∧ byte ≤ 0x39)
    (stops : StopsDigits rest) :
    readDigits (digits ++ rest) = (digits.map fun byte => (byte - 0x30).toNat, rest) := by
  induction digits with
  | nil => exact readDigits_of_stops stops
  | cons byte digits ih =>
    obtain ⟨first, later⟩ := List.forall_mem_cons.mp all
    rw [List.cons_append, readDigits, if_pos (isDigit_iff.mpr first), ih later]
    rfl

theorem readSomeDigits_append {digits rest : Bytes} (some : Digits digits)
    (stops : StopsDigits rest) :
    ∃ numbers, readSomeDigits (digits ++ rest) = .ok (numbers, rest) := by
  obtain ⟨nonempty, all⟩ := some
  rw [readSomeDigits, readDigits_append all stops]
  cases digits with
  | nil => contradiction
  | cons byte digits => exact ⟨_, rfl⟩

theorem readWhole_append {digits rest : Bytes} (some : Digits digits)
    (leading : digits.head? = .some zeroDigit → digits = [zeroDigit]) (stops : StopsDigits rest) :
    ∃ numbers, readWhole (digits ++ rest) = .ok (numbers, rest) := by
  obtain ⟨nonempty, all⟩ := some
  cases digits with
  | nil => contradiction
  | cons byte digits =>
    by_cases zero : byte = zeroDigit
    · obtain ⟨rfl, rfl⟩ := List.cons.inj (leading (congrArg _ zero))
      refine ⟨[0], ?_⟩
      cases rest with
      | nil => rfl
      | cons next rest =>
        change (if isDigit next = true then _ else _) = _
        rw [stops next rfl, if_neg Bool.false_ne_true]
        rfl
    · refine ⟨(byte :: digits).map fun byte => (byte - 0x30).toNat, ?_⟩
      have digit := isDigit_iff.mpr (all byte List.mem_cons_self)
      have read := readDigits_append all stops
      simp only [List.cons_append] at read ⊢
      simp only [readWhole, zero, digit, if_false, if_true, read]

theorem readFraction_append {fraction rest : Bytes}
    (divided : fraction = [] ∨ ∃ digits, Digits digits ∧ fraction = point :: digits)
    (stops : StopsDigits rest) (noPoint : ∀ byte ∈ rest.head?, byte ≠ point) :
    ∃ numbers, readFraction (fraction ++ rest) = .ok (numbers, rest) := by
  rcases divided with rfl | ⟨digits, some, rfl⟩
  · refine ⟨[], ?_⟩
    cases rest with
    | nil => rfl
    | cons byte rest => rw [List.nil_append, readFraction, if_neg (noPoint byte rfl)]
  · obtain ⟨numbers, read⟩ := readSomeDigits_append some stops
    exact ⟨numbers, by rw [List.cons_append, readFraction, if_pos rfl, read]⟩

theorem readExponent_append {exponent rest : Bytes}
    (scaled : exponent = [] ∨ ∃ mark sign digits, (mark = exponentMark ∨ mark = 0x45) ∧
      (sign = [] ∨ sign = [plus] ∨ sign = [minus]) ∧ Digits digits ∧
      exponent = mark :: (sign ++ digits)) (stops : StopsDigits rest)
    (noMark : ∀ byte ∈ rest.head?, byte ≠ exponentMark ∧ byte ≠ 0x45) :
    ∃ power, readExponent (exponent ++ rest) = .ok (power, rest) := by
  rcases scaled with rfl | ⟨mark, sign, digits, marks, signs, some, rfl⟩
  · refine ⟨none, ?_⟩
    cases rest with
    | nil => rfl
    | cons byte rest =>
      simp only [List.nil_append, readExponent, not_or.mpr (noMark byte rfl), if_false]
  · obtain ⟨numbers, read⟩ := readSomeDigits_append some stops
    rw [List.cons_append, List.append_assoc, readExponent.eq_def]
    dsimp only
    rw [if_pos marks]
    rcases signs with rfl | rfl | rfl
    · obtain ⟨nonempty, all⟩ := some
      cases digits with
      | nil => contradiction
      | cons byte digits =>
        have unsigned : ¬ (byte = plus ∨ byte = minus) := by
          have digit := isDigit_iff.mpr (all byte List.mem_cons_self)
          rintro (rfl | rfl) <;> cases digit
        refine ⟨.some (false, numbers), ?_⟩
        simp only [List.nil_append, List.cons_append] at read ⊢
        rw [if_neg unsigned, read]
        rfl
    · exact ⟨.some (false, numbers), by simp [read, bind, Except.bind, plus, minus]⟩
    · exact ⟨.some (true, numbers), by simp [read, bind, Except.bind]⟩

theorem Numeral.readLiteral_append (numeral : Numeral) (negative : Bool) {rest : Bytes}
    (ended : Ended rest) : ∃ literal, readLiteral negative
      (numeral.whole ++ (numeral.fraction ++ (numeral.exponent ++ rest))) =
        .ok (literal, rest) := by
  obtain ⟨stops, others⟩ := ended.stops
  have behindFraction : StopsDigits (numeral.exponent ++ rest) ∧
      ∀ byte ∈ (numeral.exponent ++ rest).head?, byte ≠ point := by
    rcases numeral.scaled with none | ⟨mark, sign, digits, marks, -, -, shape⟩
    · rw [none]
      exact ⟨stops, fun byte first => (others byte first).1⟩
    · rw [shape]
      constructor <;> rintro byte ⟨⟩ <;> rcases marks with rfl | rfl <;> decide
  have behindWhole : StopsDigits (numeral.fraction ++ (numeral.exponent ++ rest)) := by
    rcases numeral.divided with none | ⟨digits, -, shape⟩
    · rw [none]
      exact behindFraction.1
    · rw [shape]
      rintro byte ⟨⟩
      decide
  obtain ⟨whole, readWhole⟩ := readWhole_append numeral.counts numeral.leading behindWhole
  obtain ⟨fraction, readFraction⟩ :=
    readFraction_append numeral.divided behindFraction.1 behindFraction.2
  obtain ⟨exponent, readExponent⟩ := readExponent_append numeral.scaled stops
    fun byte first => (others byte first).2
  refine ⟨⟨negative, whole, fraction, exponent⟩, ?_⟩
  rw [readLiteral, readWhole]
  simp only [bind, Except.bind, readFraction, readExponent]

theorem skipScalar_numeral (numeral : Numeral) {rest : Bytes} (ended : Ended rest) :
    skipScalar (numeral.text ++ rest) = .ok rest := by
  have skips (negative : Bool) : skipNumber negative
      (numeral.whole ++ (numeral.fraction ++ (numeral.exponent ++ rest))) = .ok rest := by
    obtain ⟨literal, read⟩ := numeral.readLiteral_append negative ended
    rw [skipNumber, read]
  simp only [Numeral.text, List.append_assoc]
  rcases numeral.signed with unsigned | signed
  · have skips := skips false
    obtain ⟨nonempty, all⟩ := numeral.counts
    cases begins : numeral.whole with
    | nil => contradiction
    | cons byte after =>
      rw [begins] at all skips
      have digit := isDigit_iff.mpr (all byte List.mem_cons_self)
      have other {mark : UInt8} (no : isDigit mark = false) : byte ≠ mark := by
        rintro rfl
        rw [no] at digit
        cases digit
      rw [List.cons_append] at skips
      rw [unsigned, List.nil_append, List.cons_append, skipScalar, if_neg (other rfl),
        if_neg (other rfl), if_neg (other rfl), if_neg (other rfl), if_neg (other rfl),
        if_pos digit, skips]
  · rw [signed, List.cons_append, List.nil_append, skipScalar, if_neg (by decide),
      if_neg (by decide), if_neg (by decide), if_neg (by decide), if_pos rfl, skips]

/-! ## One step past a value

The functions are unfolded here and nowhere else. -/

theorem skipValue_eq (enclosures : List Enclosure) (input : Bytes) :
    skipValue enclosures input =
      match skipBlanks input with
      | [] => .error .endOfText
      | byte :: rest =>
        if byte = openArray then
          match skipBlanks rest with
          | [] => .error .endOfText
          | next :: after =>
            if next = closeArray then skipRest enclosures after
            else skipValue (.array :: enclosures) rest
        else if byte = openObject then
          match skipBlanks rest with
          | [] => .error .endOfText
          | next :: after =>
            if next = closeObject then skipRest enclosures after
            else match skipKey rest with
              | .error fault => .error fault
              | .ok after => skipValue (.object :: enclosures) after
        else match skipScalar (byte :: rest) with
          | .error fault => .error fault
          | .ok after => skipRest enclosures after := by
  rw [skipValue]
  split
  next start => rw [start]
  next start =>
    rw [start]
    dsimp only
    congr 1
    · split
      next inside => rw [inside]
      next inside => rw [inside]
    · congr 1
      · split
        next inside => rw [inside]
        next inside =>
          rw [inside]
          dsimp only
          congr 1
          split
          next named => rw [named]
          next named => rw [named]
      · split
        next skipped => rw [skipped]
        next skipped => rw [skipped]

theorem skipRest_eq (enclosures : List Enclosure) (input : Bytes) :
    skipRest enclosures input =
      match enclosures with
      | [] => .ok input
      | .array :: outer =>
        match skipBlanks input with
        | [] => .error .endOfText
        | byte :: rest =>
          if byte = comma then skipValue (.array :: outer) rest
          else if byte = closeArray then skipRest outer rest
          else .error .malformed
      | .object :: outer =>
        match skipBlanks input with
        | [] => .error .endOfText
        | byte :: rest =>
          if byte = comma then
            match skipKey rest with
            | .error fault => .error fault
            | .ok after => skipValue (.object :: outer) after
          else if byte = closeObject then skipRest outer rest
          else .error .malformed := by
  rw [skipRest.eq_def]
  match enclosures with
  | [] => rfl
  | .array :: outer =>
    dsimp only
    split
    next start => rw [start]
    next start => rw [start]
  | .object :: outer =>
    dsimp only
    split
    next start => rw [start]
    next start =>
      rw [start]
      dsimp only
      congr 1
      split
      next named => rw [named]
      next named => rw [named]

theorem skipScalar_quoted {content : Bytes} (quoted : Quoted content) (rest : Bytes) :
    skipScalar (inQuotes content ++ rest) = .ok rest := by
  have skips := skipString_quoted quoted rest
  simp only [inQuotes, List.cons_append, List.append_assoc, List.nil_append]
  rw [skipScalar, if_neg (by decide), if_neg (by decide), if_neg (by decide), if_pos rfl, skips]

section Marks

variable (outer : List Enclosure) (rest : Bytes)

theorem skipRest_nil : skipRest [] rest = .ok rest := by
  rw [skipRest_eq]

theorem skipRest_comma_array :
    skipRest (.array :: outer) (comma :: rest) = skipValue (.array :: outer) rest := by
  rw [skipRest_eq]
  dsimp only
  rw [skipBlanks_cons rfl]
  rfl

theorem skipRest_closeArray :
    skipRest (.array :: outer) (closeArray :: rest) = skipRest outer rest := by
  rw [skipRest_eq]
  dsimp only
  rw [skipBlanks_cons rfl]
  rfl

theorem skipRest_comma_object {behind : Bytes} (named : skipKey rest = .ok behind) :
    skipRest (.object :: outer) (comma :: rest) = skipValue (.object :: outer) behind := by
  rw [skipRest_eq]
  dsimp only
  rw [skipBlanks_cons rfl]
  dsimp only
  rw [if_pos rfl, named]

theorem skipRest_closeObject :
    skipRest (.object :: outer) (closeObject :: rest) = skipRest outer rest := by
  rw [skipRest_eq]
  dsimp only
  rw [skipBlanks_cons rfl]
  rfl

end Marks

section White

variable {blank : Bytes} (white : Blank blank)
include white

theorem skipValue_append (enclosures : List Enclosure) (rest : Bytes) :
    skipValue enclosures (blank ++ rest) = skipValue enclosures rest := by
  rw [skipValue_eq, skipBlanks_append white, ← skipValue_eq]

theorem skipRest_append (enclosure : Enclosure) (outer : List Enclosure) (rest : Bytes) :
    skipRest (enclosure :: outer) (blank ++ rest) = skipRest (enclosure :: outer) rest := by
  cases enclosure with
  | array =>
    rw [skipRest_eq]
    dsimp only
    rw [skipBlanks_append white, skipRest_eq _ rest]
  | object =>
    rw [skipRest_eq]
    dsimp only
    rw [skipBlanks_append white, skipRest_eq _ rest]

end White

/-! ## Values -/

/-- The bytes are passed over where a value is not wanted. -/
def Skips (text : Bytes) : Prop :=
  ∀ enclosures {rest : Bytes}, Ended rest →
    skipValue enclosures (text ++ rest) = skipRest enclosures rest

theorem begins_of_skipScalar {input rest : Bytes} (skipped : skipScalar input = .ok rest) :
    ∃ byte after, input = byte :: after ∧ isBlank byte = false ∧ byte ≠ openArray ∧
      byte ≠ openObject ∧ byte ≠ closeArray := by
  refine begins_of_refuses rfl ?_ skipped
  simp only [List.forall_mem_cons]
  exact ⟨fun _ => rfl, fun _ => rfl, fun _ => rfl, fun _ => rfl, fun _ => rfl, fun _ => rfl,
    fun _ => rfl, List.forall_mem_nil _⟩

theorem skips_of_skipScalar {text : Bytes}
    (skips : ∀ {rest : Bytes}, Ended rest → skipScalar (text ++ rest) = .ok rest) :
    Skips text := by
  intro enclosures rest ended
  have skips := skips ended
  obtain ⟨byte, after, begins, visible, noArray, noObject, -⟩ := begins_of_skipScalar skips
  rw [begins] at skips ⊢
  rw [skipValue_eq, skipBlanks_cons visible]
  dsimp only
  rw [if_neg noArray, if_neg noObject, skips]

theorem skips_null : Skips (Bytes.ofString "null") :=
  skips_of_skipScalar fun _ => rfl

theorem skips_bool (value : Bool) :
    Skips (Bytes.ofString (if value then "true" else "false")) := by
  cases value
  · exact skips_of_skipScalar fun _ => rfl
  · exact skips_of_skipScalar fun _ => rfl

theorem skips_numeral (numeral : Numeral) : Skips numeral.text :=
  skips_of_skipScalar (skipScalar_numeral numeral)

theorem skips_quoted {content : Bytes} (quoted : Quoted content) : Skips (inQuotes content) :=
  skips_of_skipScalar fun _ => skipScalar_quoted quoted _

theorem ValueText.begins {text : Bytes} (value : ValueText text) :
    ∃ byte after, text = byte :: after ∧ isBlank byte = false ∧ byte ≠ closeArray := by
  cases value with
  | bool value => cases value <;> exact ⟨_, _, rfl, rfl, by decide⟩
  | null | string | array | object => exact ⟨_, _, rfl, rfl, by decide⟩
  | number numeral =>
    have skipped : skipScalar (numeral.text ++ []) = .ok [] := skipScalar_numeral numeral nofun
    rw [List.append_nil] at skipped
    obtain ⟨byte, after, begins, visible, -, -, some⟩ := begins_of_skipScalar skipped
    exact ⟨byte, after, begins, visible, some⟩

namespace Padded

variable (padded : Padded)

theorem skipBlanks_text {byte : UInt8} {after : Bytes} (begins : padded.inner = byte :: after)
    (visible : isBlank byte = false) (rest : Bytes) :
    skipBlanks (padded.text ++ rest) = byte :: (after ++ (padded.after ++ rest)) := by
  rw [text, List.append_assoc, List.append_assoc, skipBlanks_append padded.blank_before, begins,
    List.cons_append, skipBlanks_cons visible]

theorem skipValue_text (skips : Skips padded.inner) (enclosures : List Enclosure) {rest : Bytes}
    (closed : Closed rest) :
    skipValue enclosures (padded.text ++ rest) = skipRest enclosures (padded.after ++ rest) := by
  rw [text, List.append_assoc, List.append_assoc, skipValue_append padded.blank_before]
  exact skips enclosures (ended_append padded.blank_after closed)

end Padded

theorem Listed.nil_or_cons {α : Type} {write : α → Bytes} {values : List α} {inside : Bytes}
    (listed : Listed (values.map write) inside) : values = [] ∧ Blank inside ∨
      ∃ first later, values = first :: later ∧
        inside = write first ++ (later.map write).flatMap (comma :: ·) := by
  cases values with
  | nil =>
    cases listed with
    | none white => exact .inl ⟨rfl, white⟩
    | some nonempty => contradiction
  | cons first later =>
    cases listed with
    | some => exact .inr ⟨first, later, rfl, intercalate_comma ..⟩

/-! ### Arrays -/

theorem skipRest_items {items : List Padded} (skips : ∀ item ∈ items, Skips item.inner)
    {blank : Bytes} (white : Blank blank) (outer : List Enclosure) (rest : Bytes) :
    skipRest (.array :: outer)
        (blank ++ ((items.map Padded.text).flatMap (comma :: ·) ++ closeArray :: rest)) =
      skipRest outer rest := by
  induction items generalizing blank with
  | nil =>
    rw [skipRest_append white]
    exact skipRest_closeArray outer rest
  | cons item items ih =>
    obtain ⟨first, later⟩ := List.forall_mem_cons.mp skips
    rw [skipRest_append white, List.map_cons, List.flatMap_cons, List.cons_append,
      List.cons_append, List.append_assoc, skipRest_comma_array,
      item.skipValue_text first _ (closed_parts (.inl rfl) _ rest), ih later item.blank_after]

theorem skips_array {items : List Padded} {inside : Bytes}
    (listed : Listed (items.map Padded.text) inside)
    (values : ∀ item ∈ items, ValueText item.inner) (skips : ∀ item ∈ items, Skips item.inner) :
    Skips (openArray :: inside ++ [closeArray]) := by
  intro enclosures rest ended
  rw [List.append_assoc, List.cons_append, skipValue_eq, skipBlanks_cons rfl]
  dsimp only
  rw [if_pos rfl]
  rcases listed.nil_or_cons with ⟨rfl, white⟩ | ⟨item, items, rfl, rfl⟩
  · rw [skipBlanks_append white, List.singleton_append, skipBlanks_cons rfl]
    dsimp only
    rw [if_pos rfl]
  · obtain ⟨value, -⟩ := List.forall_mem_cons.mp values
    obtain ⟨first, later⟩ := List.forall_mem_cons.mp skips
    obtain ⟨byte, after, begins, visible, some⟩ := value.begins
    rw [List.append_assoc, item.skipBlanks_text begins visible]
    dsimp only
    rw [if_neg some, List.singleton_append,
      item.skipValue_text first _ (closed_parts (.inl rfl) _ rest),
      skipRest_items later item.blank_after]

/-! ### Objects -/

theorem Member.skipBlanks_text {member : Member} {content : Bytes}
    (named : member.name.inner = inQuotes content) (rest : Bytes) :
    skipBlanks (member.text ++ rest) = quoteByte :: (content ++ quoteByte ::
      (member.name.after ++ (colon :: (member.value.text ++ rest)))) := by
  rw [text, List.append_assoc, member.name.skipBlanks_text named rfl]
  simp only [List.append_assoc, List.cons_append, List.nil_append]

theorem skipKey_text {member : Member} {content : Bytes} (quoted : Quoted content)
    (named : member.name.inner = inQuotes content) (rest : Bytes) :
    skipKey (member.text ++ rest) = .ok (member.value.text ++ rest) := by
  rw [skipKey, member.skipBlanks_text named]
  dsimp only
  rw [if_pos rfl, skipString_quoted quoted]
  dsimp only
  rw [skipBlanks_append member.name.blank_after, skipBlanks_cons rfl]
  rfl

section Members

variable {members : List Member}
  (names : ∀ member ∈ members, ∃ content, Quoted content ∧ member.name.inner = inQuotes content)
  (skips : ∀ member ∈ members, Skips member.value.inner)
include names skips

theorem skipRest_members {blank : Bytes} (white : Blank blank) (outer : List Enclosure)
    (rest : Bytes) :
    skipRest (.object :: outer)
        (blank ++ ((members.map Member.text).flatMap (comma :: ·) ++ closeObject :: rest)) =
      skipRest outer rest := by
  induction members generalizing blank with
  | nil =>
    rw [skipRest_append white]
    exact skipRest_closeObject outer rest
  | cons member members ih =>
    obtain ⟨⟨content, quoted, named⟩, others⟩ := List.forall_mem_cons.mp names
    obtain ⟨first, later⟩ := List.forall_mem_cons.mp skips
    rw [skipRest_append white, List.map_cons, List.flatMap_cons, List.cons_append,
      List.cons_append, List.append_assoc,
      skipRest_comma_object outer _ (skipKey_text quoted named _),
      member.value.skipValue_text first _ (closed_parts (.inr rfl) _ rest),
      ih others later member.value.blank_after]

theorem skips_object {inside : Bytes} (listed : Listed (members.map Member.text) inside) :
    Skips (openObject :: inside ++ [closeObject]) := by
  intro enclosures rest ended
  rw [List.append_assoc, List.cons_append, skipValue_eq, skipBlanks_cons rfl]
  dsimp only
  rw [if_neg (by decide), if_pos rfl]
  rcases listed.nil_or_cons with ⟨rfl, white⟩ | ⟨member, members, rfl, rfl⟩
  · rw [skipBlanks_append white, List.singleton_append, skipBlanks_cons rfl]
    dsimp only
    rw [if_pos rfl]
  · obtain ⟨⟨content, quoted, named⟩, others⟩ := List.forall_mem_cons.mp names
    obtain ⟨first, later⟩ := List.forall_mem_cons.mp skips
    have key := skipKey_text quoted named
      ((members.map Member.text).flatMap (comma :: ·) ++ closeObject :: rest)
    rw [List.append_assoc, List.singleton_append, key, member.skipBlanks_text named]
    dsimp only
    rw [if_neg (by decide),
      member.value.skipValue_text first _ (closed_parts (.inr rfl) _ rest),
      skipRest_members others later member.value.blank_after]

end Members

/-- Every value is passed over. -/
theorem ValueText.skips {text : Bytes} (value : ValueText text) : Skips text := by
  induction value with
  | null => exact skips_null
  | bool value => exact skips_bool value
  | number numeral => exact skips_numeral numeral
  | string quoted => exact skips_quoted quoted
  | array listed values skips => exact skips_array listed values skips
  | object listed names _ skips => exact skips_object names skips listed

end MetadataClient.Json
