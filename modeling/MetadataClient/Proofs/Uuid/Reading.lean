import Mathlib.Data.List.Forall2
import Mathlib.Data.Nat.Digits.Defs
import MetadataClient.Proofs.Text.Hexadecimal
import MetadataClient.Uuid

/-! How identifiers are written. The four accepted notations are told apart by their length in
bytes; each of them holds the digits of the number in order. -/
namespace MetadataClient.Uuid

/-! ## Bytes -/

theorem byteCount_cons (char : Char) (chars : List Char) :
    byteCount (char :: chars) = char.utf8Size + byteCount chars := by
  have single : (String.ofList [char]).utf8ByteSize = char.utf8Size := by
    rw [← String.singleton_eq_ofList]
    exact String.utf8ByteSize_singleton ..
  rw [byteCount, byteCount, ← single, ← String.utf8ByteSize_append, ← String.ofList_append]
  rfl

theorem byteCount_append (first second : List Char) :
    byteCount (first ++ second) = byteCount first + byteCount second := by
  simp only [byteCount, String.ofList_append, String.utf8ByteSize_append]

/-- A letter has one byte in either case, and all else has no case. -/
theorem utf8Size_toLower (char : Char) : char.toLower.utf8Size = char.utf8Size := by
  by_cases small : char.toNat < 128
  · have all : ∀ code < 128, (Char.ofNat code).toLower.utf8Size = (Char.ofNat code).utf8Size := by
      decide
    have same := all char.toNat small
    rwa [Char.ofNat_toNat] at same
  · have same : char.toLower = char :=
      dif_neg fun upper => small (Nat.lt_of_le_of_lt upper.2 (by decide))
    rw [same]

theorem byteCount_map_toLower (chars : List Char) :
    byteCount (chars.map Char.toLower) = byteCount chars := by
  induction chars with
  | nil => rfl
  | cons char chars ih => rw [List.map_cons, byteCount_cons, byteCount_cons, utf8Size_toLower, ih]

theorem byteCount_digits {digits : List Nat} {chars : List Char}
    (digital : List.Forall₂ Text.HexDigit digits chars) : byteCount chars = digits.length := by
  induction digital with
  | nil => rfl
  | cons first rest ih => rw [byteCount_cons, first.utf8Size, ih, List.length_cons, Nat.add_comm]

theorem byteCount_intercalate {groups : List (List Char)} (some : groups ≠ []) :
    byteCount (['-'].intercalate groups) + 1 = byteCount groups.flatten + groups.length := by
  induction groups with
  | nil => contradiction
  | cons group groups ih =>
    cases groups with
    | nil => simp
    | cons next others =>
      have later := ih (List.cons_ne_nil next others)
      have hyphen : byteCount ['-'] = 1 := by decide
      simp only [List.intercalate_cons_cons, List.flatten_cons, List.length_cons,
        byteCount_append, hyphen] at later ⊢
      omega

/-! ## Notations -/

/-- The characters are the thirty-two digits of the identifier, the highest first. -/
def Digital (uuid : Uuid) (chars : List Char) : Prop :=
  ∃ digits : List Nat, digits.length = 32 ∧ List.Forall₂ Text.HexDigit digits chars ∧
    Nat.ofDigits 16 digits.reverse = uuid.bits.toNat

/-- The digits stand in five groups with hyphens between them. -/
def Grouped (uuid : Uuid) (chars : List Char) : Prop :=
  ∃ groups : List (List Char), groups.map List.length = [8, 4, 4, 4, 12] ∧
    ['-'].intercalate groups = chars ∧ uuid.Digital groups.flatten

/-- The notations of an identifier. -/
inductive Written (uuid : Uuid) : List Char → Prop
  | plain {chars : List Char} : uuid.Digital chars → Written uuid chars
  | grouped {chars : List Char} : uuid.Grouped chars → Written uuid chars
  | braced {inside : List Char} : uuid.Grouped inside →
      Written uuid ('\x7b' :: inside ++ ['\x7d'])
  | prefixed {scheme inside : List Char} : scheme.map Char.toLower = "urn:uuid:".toList →
      uuid.Grouped inside → Written uuid (scheme ++ inside)

variable {uuid : Uuid} {chars inside : List Char}

theorem Digital.byteCount (digital : uuid.Digital chars) : byteCount chars = 32 := by
  obtain ⟨digits, length, spelled, -⟩ := digital
  rw [byteCount_digits spelled, length]

theorem Grouped.byteCount (grouped : uuid.Grouped chars) : byteCount chars = 36 := by
  obtain ⟨groups, lengths, rfl, digital⟩ := grouped
  have five : groups.length = 5 := by
    rw [← List.length_map, lengths]
    rfl
  have counted := byteCount_intercalate (List.ne_nil_of_length_eq_add_one five)
  rw [digital.byteCount, five] at counted
  omega

/-! ## Reading digits -/

theorem mapM_hexValue?_eq_some_iff {digits : List Nat} :
    chars.mapM Text.hexValue? = some digits ↔ List.Forall₂ Text.HexDigit digits chars := by
  induction chars generalizing digits with
  | nil =>
    rw [List.mapM_nil, List.forall₂_nil_right_iff]
    exact ⟨fun same => (Option.some.inj same).symm, fun same => same ▸ rfl⟩
  | cons char chars ih =>
    simp only [List.mapM_cons, Option.bind_eq_bind, Option.bind_eq_some_iff, Option.pure_def,
      Option.some.injEq, Text.hexValue?_eq_some_iff, ih, List.forall₂_cons_right_iff]
    constructor
    · rintro ⟨digit, first, rest, later, same⟩
      exact ⟨digit, rest, first, later, same.symm⟩
    · rintro ⟨digit, rest, first, later, same⟩
      exact ⟨digit, first, rest, later, same.symm⟩

theorem hexNumber_eq_ofDigits (digits : List Nat) :
    Text.hexNumber digits = Nat.ofDigits 16 digits.reverse := by
  rw [Nat.ofDigits_eq_foldr, List.foldr_reverse, Text.hexNumber]
  congr 1
  funext number digit
  rw [Nat.add_comm, Nat.mul_comm]
  rfl

theorem ofDigits?_eq_some_iff : ofDigits? chars = some uuid ↔ uuid.Digital chars := by
  have number {digits : List Nat} (length : digits.length = 32)
      (spelled : List.Forall₂ Text.HexDigit digits chars) :
      (ofNumber (Text.hexNumber digits)).bits.toNat = Nat.ofDigits 16 digits.reverse := by
    have small : ∀ digit ∈ digits, digit < 16 :=
      ((List.forall₂_and_left digits chars).mp (spelled.imp fun _ _ is => ⟨is.lt, is⟩)).1
    have bounded := Nat.ofDigits_lt_base_pow_length (by decide : 1 < 16) fun digit member =>
      small digit (List.mem_reverse.mp member)
    rw [List.length_reverse, length] at bounded
    rw [hexNumber_eq_ofDigits]
    exact Nat.mod_eq_of_lt bounded
  rw [ofDigits?]
  split
  next enough =>
    simp only [Option.map_eq_some_iff, mapM_hexValue?_eq_some_iff, Digital]
    constructor
    · rintro ⟨digits, spelled, rfl⟩
      have length := spelled.length_eq.trans enough
      exact ⟨digits, length, spelled, (number length spelled).symm⟩
    · rintro ⟨digits, length, spelled, same⟩
      refine ⟨digits, spelled, ?_⟩
      have bits := BitVec.eq_of_toNat_eq ((number length spelled).trans same)
      exact congrArg Uuid.mk bits
  next other =>
    constructor
    · intro none
      cases none
    · rintro ⟨digits, length, spelled, -⟩
      exact absurd (spelled.length_eq.symm.trans length) other

theorem unhyphenate?_cons (length next : Nat) (others : List Nat) (chars : List Char) :
    unhyphenate? (length :: next :: others) chars =
      match chars.drop length with
      | '-' :: rest => (unhyphenate? (next :: others) rest).map (chars.take length ++ ·)
      | _ => none :=
  rfl

theorem unhyphenate?_intercalate {groups : List (List Char)} (some : groups ≠ []) :
    unhyphenate? (groups.map List.length) (['-'].intercalate groups) = .some groups.flatten := by
  induction groups with
  | nil => contradiction
  | cons group groups ih =>
    cases groups with
    | nil =>
      rw [List.intercalate_singleton, List.flatten_singleton]
      exact if_pos rfl
    | cons next others =>
      have later := ih (List.cons_ne_nil next others)
      rw [List.map_cons] at later
      rw [List.map_cons, List.map_cons, unhyphenate?_cons, List.intercalate_cons_cons,
        List.append_assoc, List.drop_left, List.take_left]
      simp only [List.singleton_append, later, Option.map_some, List.flatten_cons]

theorem exists_groups_of_unhyphenate? {lengths : List Nat} {plain : List Char}
    (some : lengths ≠ []) (read : unhyphenate? lengths chars = .some plain) :
    ∃ groups : List (List Char), groups.map List.length = lengths ∧
      ['-'].intercalate groups = chars ∧ groups.flatten = plain := by
  induction lengths generalizing chars plain with
  | nil => contradiction
  | cons length lengths ih =>
    cases lengths with
    | nil =>
      rw [unhyphenate?] at read
      split at read
      next same =>
        obtain rfl := Option.some.inj read
        exact ⟨[chars], congrArg (· :: []) same, List.intercalate_singleton,
          List.flatten_singleton⟩
      next => cases read
    | cons next others =>
      rw [unhyphenate?_cons] at read
      split at read
      next rest behind =>
        obtain ⟨inner, found, rfl⟩ := Option.map_eq_some_iff.mp read
        obtain ⟨groups, lengths, joined, rfl⟩ := ih (List.cons_ne_nil next others) found
        have inside : length < chars.length := by
          have left := congrArg List.length behind
          rw [List.length_drop, List.length_cons] at left
          omega
        refine ⟨chars.take length :: groups, ?_, ?_, List.flatten_cons⟩
        · rw [List.map_cons, lengths, List.length_take_of_le (Nat.le_of_lt inside)]
        · obtain ⟨group, more, rfl, -⟩ := List.map_eq_cons_iff.mp lengths
          rw [List.intercalate_cons_cons, joined, List.append_assoc, List.singleton_append,
            ← behind]
          exact List.take_append_drop length chars
      next => cases read

theorem unhyphenate?_eq_some_iff {lengths : List Nat} {plain : List Char} (some : lengths ≠ []) :
    unhyphenate? lengths chars = .some plain ↔
      ∃ groups : List (List Char), groups.map List.length = lengths ∧
        ['-'].intercalate groups = chars ∧ groups.flatten = plain := by
  constructor
  · exact exists_groups_of_unhyphenate? some
  · rintro ⟨groups, rfl, rfl, rfl⟩
    exact unhyphenate?_intercalate fun none => some (List.map_eq_nil_iff.mpr none)

theorem ofGroups?_eq_some_iff : ofGroups? chars = some uuid ↔ uuid.Grouped chars := by
  simp only [ofGroups?, Option.bind_eq_some_iff, ofDigits?_eq_some_iff, Grouped, groupLengths,
    unhyphenate?_eq_some_iff (List.cons_ne_nil _ _)]
  constructor
  · rintro ⟨plain, ⟨groups, lengths, joined, rfl⟩, digital⟩
    exact ⟨groups, lengths, joined, digital⟩
  · rintro ⟨groups, lengths, joined, digital⟩
    exact ⟨groups.flatten, ⟨groups, lengths, joined, rfl⟩, digital⟩

theorem unbraced?_eq_some_iff :
    unbraced? chars = some inside ↔ '\x7b' :: inside ++ ['\x7d'] = chars := by
  constructor
  · intro read
    rw [unbraced?.eq_def] at read
    split at read
    next rest =>
      split at read
      next closed =>
        obtain rfl := Option.some.inj read
        rw [List.cons_append, List.dropLast_append_getLast? _ closed]
      next => cases read
    next => cases read
  · rintro rfl
    change (if (inside ++ ['\x7d']).getLast? = some '\x7d'
      then some (inside ++ ['\x7d']).dropLast else none) = some inside
    rw [if_pos List.getLast?_concat, List.dropLast_concat]

theorem unprefixed?_eq_some_iff : unprefixed? chars = some inside ↔
    ∃ scheme : List Char, scheme.map Char.toLower = "urn:uuid:".toList ∧
      scheme ++ inside = chars := by
  rw [unprefixed?]
  constructor
  · intro read
    split at read
    next named =>
      obtain rfl := Option.some.inj read
      exact ⟨chars.take 9, named, List.take_append_drop ..⟩
    next => cases read
  · rintro ⟨scheme, named, rfl⟩
    have nine : scheme.length = 9 := by
      rw [← List.length_map, named]
      rfl
    rw [List.take_left' nine, List.drop_left' nine, if_pos named]

/-- No text begins with a brace and with the name of the scheme. -/
theorem unbraced?_scheme {scheme : List Char}
    (named : scheme.map Char.toLower = "urn:uuid:".toList) :
    unbraced? (scheme ++ inside) = none := by
  cases found : unbraced? (scheme ++ inside) with
  | none => rfl
  | some other =>
    have same := unbraced?_eq_some_iff.mp found
    cases scheme with
    | nil => cases named
    | cons first rest =>
      obtain rfl : '\x7b' = first := (List.cons.inj same).1
      exact absurd (List.cons.inj named).1 (by decide)

theorem written_of_parseChars (read : parseChars chars = .ok uuid) : uuid.Written chars := by
  simp only [parseChars] at read
  split at read
  next =>
    split at read
    next found =>
      cases read
      exact .grouped (ofGroups?_eq_some_iff.mp found)
    next => cases read
  next =>
    split at read
    next found =>
      cases read
      exact .plain (ofDigits?_eq_some_iff.mp found)
    next =>
      split at read
      next inside unbraced =>
        split at read
        next =>
          split at read
          next found =>
            cases read
            rw [← unbraced?_eq_some_iff.mp unbraced]
            exact .braced (ofGroups?_eq_some_iff.mp found)
          next => cases read
        next => cases read
      next inside other unprefixed =>
        split at read
        next =>
          split at read
          next found =>
            cases read
            obtain ⟨scheme, named, rfl⟩ := unprefixed?_eq_some_iff.mp unprefixed
            exact .prefixed named (ofGroups?_eq_some_iff.mp found)
          next => cases read
        next => cases read
      next => cases read

theorem ofDigits?_eq_none (other : byteCount chars ≠ 32) : ofDigits? chars = none := by
  cases found : ofDigits? chars with
  | none => rfl
  | some uuid => exact absurd (ofDigits?_eq_some_iff.mp found).byteCount other

theorem parseChars_of_written (written : uuid.Written chars) : parseChars chars = .ok uuid := by
  cases written with
  | plain digital =>
    have total : byteCount chars ≠ 36 := by
      rw [digital.byteCount]
      decide
    simp only [parseChars, if_neg total, ofDigits?_eq_some_iff.mpr digital]
  | grouped grouped =>
    simp only [parseChars, if_pos grouped.byteCount, ofGroups?_eq_some_iff.mpr grouped]
  | @braced inside grouped =>
    have total : byteCount ('\x7b' :: inside ++ ['\x7d']) = 38 := by
      rw [byteCount_append, byteCount_cons, grouped.byteCount]
      decide
    have plain : ofDigits? ('\x7b' :: inside ++ ['\x7d']) = none := by
      apply ofDigits?_eq_none
      rw [total]
      decide
    simp only [parseChars, total, plain, unbraced?_eq_some_iff.mpr rfl,
      ofGroups?_eq_some_iff.mpr grouped]
    rfl
  | @prefixed scheme inside named grouped =>
    have total : byteCount (scheme ++ inside) = 45 := by
      rw [byteCount_append, ← byteCount_map_toLower, named, grouped.byteCount]
      decide
    have plain : ofDigits? (scheme ++ inside) = none := by
      apply ofDigits?_eq_none
      rw [total]
      decide
    simp only [parseChars, total, plain, unbraced?_scheme named,
      unprefixed?_eq_some_iff.mpr ⟨scheme, named, rfl⟩, ofGroups?_eq_some_iff.mpr grouped]
    rfl

/-- A text is read as an identifier if it writes this identifier in one of the notations. -/
theorem parse_eq_ok_iff {text : String} : parse text = .ok uuid ↔ uuid.Written text.toList :=
  ⟨written_of_parseChars, parseChars_of_written⟩

/-! ## Writing -/

theorem hyphenate_cons (length next : Nat) (others : List Nat) (chars : List Char) :
    hyphenate (length :: next :: others) chars =
      chars.take length ++ '-' :: hyphenate (next :: others) (chars.drop length) :=
  rfl

theorem exists_groups {lengths : List Nat} (some : lengths ≠ [])
    (enough : chars.length = lengths.sum) :
    ∃ groups : List (List Char), groups.map List.length = lengths ∧
      ['-'].intercalate groups = hyphenate lengths chars ∧ groups.flatten = chars := by
  induction lengths generalizing chars with
  | nil => contradiction
  | cons length lengths ih =>
    rw [List.sum_cons] at enough
    cases lengths with
    | nil =>
      refine ⟨[chars], congrArg (· :: []) enough, List.intercalate_singleton, ?_⟩
      exact List.flatten_singleton
    | cons next others =>
      have rest : (chars.drop length).length = (next :: others).sum := by
        rw [List.length_drop, enough, Nat.add_sub_cancel_left]
      obtain ⟨groups, lengths, joined, whole⟩ := ih (List.cons_ne_nil next others) rest
      refine ⟨chars.take length :: groups, ?_, ?_, ?_⟩
      · rw [List.map_cons, lengths, List.length_take_of_le (enough ▸ Nat.le_add_right ..)]
      · obtain ⟨group, more, rfl, -⟩ := List.map_eq_cons_iff.mp lengths
        rw [List.intercalate_cons_cons, List.append_assoc, joined, hyphenate_cons]
        rfl
      · rw [List.flatten_cons, whole, List.take_append_drop]

theorem written_text (uuid : Uuid) : uuid.Written uuid.text.toList := by
  let digits := Text.hexDigits 32 uuid.bits.toNat
  have length : digits.length = 32 := Text.length_hexDigits ..
  have spelled : List.Forall₂ Text.HexDigit digits (digits.map Text.hexDigit) := by
    rw [List.forall₂_map_right_iff, List.forall₂_same]
    intro digit member
    rw [← Text.hexValue?_eq_some_iff]
    exact Text.hexValue?_hexDigit digit (Text.lt_of_mem_hexDigits member)
  have number : Nat.ofDigits 16 digits.reverse = uuid.bits.toNat := by
    rw [← hexNumber_eq_ofDigits, Text.hexNumber_hexDigits]
    exact Nat.mod_eq_of_lt uuid.bits.isLt
  obtain ⟨groups, lengths, joined, whole⟩ :=
    @exists_groups (digits.map Text.hexDigit) groupLengths (List.cons_ne_nil _ _)
      (by rw [List.length_map, length]; rfl)
  rw [text, String.toList_ofList, ← joined]
  refine .grouped ⟨groups, lengths, rfl, digits, length, ?_, number⟩
  rwa [whole]

theorem parse_text (uuid : Uuid) : parse uuid.text = .ok uuid :=
  parse_eq_ok_iff.mpr uuid.written_text

end MetadataClient.Uuid
