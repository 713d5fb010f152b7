import MetadataClient.Toml.Quoted
import Mathlib.Tactic.Common

/-! Quoted text that is read as it was written. Whichever quotes are chosen for a text, the
text between them comes back character by character, as long as no quote follows that
could belong to it. -/
namespace MetadataClient.Toml.Quoted

/-! ## Escapes -/

theorem hexValue?_toUpper_hexDigit : ∀ value < 16,
    Text.hexValue? (Text.hexDigit value).toUpper = some value := by
  decide

theorem mapM_hexValue? {digits : List Nat} (small : ∀ digit ∈ digits, digit < 16) :
    (digits.map fun digit => (Text.hexDigit digit).toUpper).mapM Text.hexValue? = some digits := by
  induction digits with
  | nil => rfl
  | cons digit digits ih =>
    have first := hexValue?_toUpper_hexDigit digit (small digit List.mem_cons_self)
    have later := ih fun other member => small other (List.mem_cons_of_mem _ member)
    rw [List.map_cons, List.mapM_cons, first, later]
    rfl

theorem readCode_hexDigits {char : Char} (basic : char.toNat < 0x10000) (rest : List Char) :
    readCode 4 ((Text.hexDigits 4 char.toNat).map (fun digit => (Text.hexDigit digit).toUpper)
      ++ rest) = some (char, rest) := by
  let digits := (Text.hexDigits 4 char.toNat).map fun digit => (Text.hexDigit digit).toUpper
  have length : digits.length = 4 := by
    rw [List.length_map, Text.length_hexDigits]
  have read : digits.mapM Text.hexValue? = some (Text.hexDigits 4 char.toNat) :=
    mapM_hexValue? fun digit member => Text.lt_of_mem_hexDigits member
  have code : Text.hexNumber (Text.hexDigits 4 char.toNat) = char.toNat :=
    (Text.hexNumber_hexDigits ..).trans (Nat.mod_eq_of_lt basic)
  have enough : 4 ≤ (digits ++ rest).length := by
    rw [List.length_append, length]
    exact Nat.le_add_right ..
  rw [readCode, if_pos enough, List.take_left' length, List.drop_left' length, read]
  simp only [Option.bind_eq_bind, Option.bind_some, code]
  rw [if_pos (show char.toNat.isValidChar from char.valid), Char.ofNat_toNat]

/-- Neither blanks up to the end of a line come here nor that end. -/
def Inked (input : List Char) : Prop :=
  lineEnd? (skipBlanks input) = none

/-- A character stands for itself, or a backslash and its escape stand for it. -/
theorem printChar_spec (char : Char) :
    isBasicChar char = true ∧ printChar char = [char] ∨
      ∃ escape, printChar char = '\\' :: escape ∧ ∀ rest, Inked (escape ++ rest) ∧
        readEscape (escape ++ rest) = some (char, rest) := by
  fun_cases printChar char with
  | case8 char _ _ _ _ _ _ _ control =>
    have basic : char.toNat < 0x10000 := by
      simp only [isControl, Bool.or_eq_true, Bool.and_eq_true, decide_eq_true_eq] at control
      rcases control with ⟨low, -⟩ | rfl
      · exact Nat.lt_trans low (by decide)
      · decide
    exact .inr ⟨_, rfl, fun rest => ⟨rfl, readCode_hexDigits basic rest⟩⟩
  | case9 char _ _ _ _ _ noQuote noBackslash plain =>
    left
    simpa [isBasicChar, plain] using And.intro noQuote noBackslash
  | _ =>
    refine .inr ⟨_, rfl, ?_⟩
    intro rest
    constructor
    · rfl
    · rfl

theorem readBasic_printChar (char : Char) (rest : List Char) :
    readBasic (printChar char ++ rest) = cons char (readBasic rest) := by
  rcases printChar_spec char with ⟨basic, printed⟩ | ⟨escape, printed, read⟩
  · have other : char ≠ '"' ∧ char ≠ '\\' := by
      constructor <;> rintro rfl <;> exact absurd basic (by decide)
    rw [printed, List.singleton_append, readBasic, if_pos basic]
    · exact other.1
    · exact other.2
  · obtain ⟨-, read⟩ := read rest
    rw [printed, List.cons_append, readBasic]
    split
    next char' after found =>
      cases read.symm.trans found
      rfl
    next found => cases read.symm.trans found

theorem readBasic_print (text rest : List Char) :
    readBasic (text.flatMap printChar ++ '"' :: rest) = some (text, rest) := by
  induction text with
  | nil => rw [List.flatMap_nil, List.nil_append, readBasic]
  | cons char text ih =>
    rw [List.flatMap_cons, List.append_assoc, readBasic_printChar, ih]
    rfl

theorem readLiteral_append {text : List Char} (plain : ∀ char ∈ text, isLiteralChar char = true)
    (rest : List Char) : readLiteral (text ++ '\'' :: rest) = some (text, rest) := by
  induction text with
  | nil => rw [List.nil_append, readLiteral, if_pos rfl]
  | cons char text ih =>
    have first := plain char List.mem_cons_self
    have other : char ≠ '\'' := by
      rintro rfl
      exact absurd first (by decide)
    rw [List.cons_append, readLiteral, if_neg other, if_pos first,
      ih fun later member => plain later (List.mem_cons_of_mem _ member)]
    rfl

/-! ## Tripled quotes -/

def Stops (quote : Char) (rest : List Char) : Prop :=
  rest.head? ≠ some quote

theorem Stops.cons {quote char : Char} (other : char ≠ quote) (rest : List Char) :
    Stops quote (char :: rest) :=
  fun same => other (Option.some.inj same)

variable {quote : Char} {rest : List Char}

/-- The quotes in front of the last three belong to the text. -/
theorem closing_zero (stops : Stops quote rest) : closing quote rest = ([], rest) := by
  rcases rest with _ | ⟨first, _ | ⟨second, rest⟩⟩
  · rfl
  · have other : first ≠ quote := fun same => stops (congrArg some same)
    rw [closing, if_neg other]
  · have other : first ≠ quote := fun same => stops (congrArg some same)
    rw [closing, if_pos other]

theorem closing_one (stops : Stops quote rest) :
    closing quote (quote :: rest) = ([quote], rest) := by
  rcases rest with _ | ⟨second, rest⟩
  · rw [closing, if_pos rfl]
  · have other : second ≠ quote := fun same => stops (congrArg some same)
    rw [closing, if_neg (not_not_intro rfl), if_pos other]

theorem closing_two (rest : List Char) :
    closing quote (quote :: quote :: rest) = ([quote, quote], rest) := by
  rw [closing, if_neg (not_not_intro rfl), if_neg (not_not_intro rfl)]

/-- A quote is part of the text if not two more follow at once. -/
theorem readLongBasic_quote {input : List Char} (few : ∀ more, input ≠ '"' :: '"' :: more) :
    readLongBasic ('"' :: input) = cons '"' (readLongBasic input) := by
  rw [readLongBasic]
  exact few

theorem readLongBasic_line (rest : List Char) :
    readLongBasic ('\n' :: rest) = cons '\n' (readLongBasic rest) := by
  rw [readLongBasic, if_neg (by decide)]
  · rfl
  · exact fun _ same => absurd same (by decide)
  · decide
  · decide

theorem readLongBasic_printChar (char : Char) (rest : List Char) :
    readLongBasic (printChar char ++ rest) = cons char (readLongBasic rest) := by
  rcases printChar_spec char with ⟨basic, printed⟩ | ⟨escape, printed, read⟩
  · have other : char ≠ '"' ∧ char ≠ '\\' := by
      constructor <;> rintro rfl <;> exact absurd basic (by decide)
    rw [printed, List.singleton_append, readLongBasic, if_pos basic]
    · exact fun _ same => absurd same other.1
    · exact other.1
    · exact other.2
  · obtain ⟨inked, read⟩ := read rest
    rw [printed, List.cons_append, readLongBasic]
    split
    next after ended => cases ended.symm.trans inked
    next =>
      split
      next char' after found =>
        cases read.symm.trans found
        rfl
      next found => cases read.symm.trans found

theorem printChar_stops (char : Char) (rest : List Char) : Stops '"' (printChar char ++ rest) := by
  rcases printChar_spec char with ⟨basic, printed⟩ | ⟨escape, printed, -⟩
  · rw [printed]
    refine Stops.cons ?_ rest
    rintro rfl
    exact absurd basic (by decide)
  · rw [printed]
    exact Stops.cons (by decide) _

/-- Behind two quotes a third one is escaped, and all else is not a quote. -/
theorem printLong_stops {quotes : Nat} {char : Char} (full : char = '"' → 2 ≤ quotes)
    (text rest : List Char) : Stops '"' (printLong quotes (char :: text) ++ rest) := by
  rw [printLong]
  split
  next same =>
    rw [if_neg (Nat.not_lt_of_le (full same))]
    exact Stops.cons (by decide) _
  next =>
    split
    · exact Stops.cons (by decide) _
    · rw [List.append_assoc]
      exact printChar_stops char _

/-- Two more quotes come behind a quote of the text only where the text ends. -/
theorem ends_of_quotes {quotes : Nat} (some : 0 < quotes) {text more : List Char}
    (same : printLong quotes text ++ '"' :: '"' :: '"' :: rest = '"' :: '"' :: more) :
    text = [] ∨ text = ['"'] ∧ quotes < 2 := by
  match text with
  | [] => exact .inl rfl
  | char :: text =>
    by_cases next : char = '"' ∧ quotes < 2
    · obtain ⟨rfl, few⟩ := next
      match text with
      | [] => exact .inr ⟨rfl, few⟩
      | other :: text =>
        rw [printLong, if_pos rfl, if_pos few, List.cons_append, List.cons.injEq] at same
        have stops : Stops '"'
            (printLong (quotes + 1) (other :: text) ++ '"' :: '"' :: '"' :: rest) :=
          printLong_stops (fun _ => Nat.succ_le_succ some) text _
        rw [same.2] at stops
        exact absurd rfl stops
    · have stops : Stops '"' (printLong quotes (char :: text) ++ '"' :: '"' :: '"' :: rest) :=
        printLong_stops (fun quote => Nat.le_of_not_lt fun few => next ⟨quote, few⟩) text _
      rw [same] at stops
      exact absurd rfl stops

theorem readLongBasic_printLong (stops : Stops '"' rest) (quotes : Nat) (text : List Char) :
    readLongBasic (printLong quotes text ++ '"' :: '"' :: '"' :: rest) = some (text, rest) := by
  induction text generalizing quotes with
  | nil => rw [printLong, List.nil_append, readLongBasic, closing_zero stops]
  | cons char text ih =>
    rw [printLong]
    split
    next same =>
      subst same
      split
      next few =>
        rw [List.cons_append]
        -- The last quotes of the text are read with those that end it.
        by_cases none : text = []
        · subst none
          rw [printLong, List.nil_append, readLongBasic, closing_one stops]
        · by_cases one : text = ['"'] ∧ quotes + 1 < 2
          · obtain ⟨rfl, few⟩ := one
            rw [printLong, if_pos rfl, if_pos few, printLong, List.cons_append, List.nil_append,
              readLongBasic, closing_two]
          · rw [readLongBasic_quote, ih]
            · rfl
            · intro more same
              exact (ends_of_quotes (Nat.succ_pos quotes) same).elim none one
      next => exact (readLongBasic_printChar '"' _).trans (congrArg (cons '"') (ih 0))
    next =>
      split
      next same =>
        subst same
        rw [List.cons_append, readLongBasic_line, ih]
        rfl
      next =>
        rw [List.append_assoc, readLongBasic_printChar, ih]
        rfl

/-! ## Single quotes, tripled -/

theorem readLongLiteral_quote {input : List Char} (few : ∀ more, input ≠ '\'' :: '\'' :: more) :
    readLongLiteral ('\'' :: input) = cons '\'' (readLongLiteral input) := by
  rw [readLongLiteral]
  exact few

theorem readLongLiteral_line (rest : List Char) :
    readLongLiteral ('\n' :: rest) = cons '\n' (readLongLiteral rest) := by
  rw [readLongLiteral, if_neg (by decide)]
  · rfl
  · exact fun _ same => absurd same (by decide)
  · decide

theorem readLongLiteral_plain {char : Char} (plain : isLiteralChar char = true)
    (rest : List Char) : readLongLiteral (char :: rest) = cons char (readLongLiteral rest) := by
  have other : char ≠ '\'' := by
    rintro rfl
    exact absurd plain (by decide)
  rw [readLongLiteral, if_pos plain]
  · exact fun _ same => absurd same other
  · exact other

theorem le_longestRow (char : Char) (row : Nat) (text : List Char) :
    row ≤ longestRow char row text := by
  induction text generalizing row with
  | nil => exact Nat.le_refl row
  | cons first text ih =>
    rw [longestRow]
    split
    · exact Nat.le_of_succ_le (ih (row + 1))
    · exact Nat.le_max_left ..

theorem ends_of_singleQuotes {row : Nat} (some : 0 < row) {text more : List Char}
    (few : longestRow '\'' row text ≤ 2)
    (same : text ++ '\'' :: '\'' :: '\'' :: rest = '\'' :: '\'' :: more) :
    text = [] ∨ text = ['\''] := by
  match text with
  | [] => exact .inl rfl
  | [char] =>
    rw [List.cons_append, List.cons.injEq] at same
    exact .inr (congrArg (fun char => [char]) same.1)
  | first :: second :: text =>
    rw [List.cons_append, List.cons_append, List.cons.injEq, List.cons.injEq] at same
    rw [longestRow, if_pos same.1, longestRow, if_pos same.2.1] at few
    have three := le_longestRow '\'' (row + 1 + 1) text
    omega

/-- Lines in which no three quotes stand in a row. -/
theorem readLongLiteral_append (stops : Stops '\'' rest) {row : Nat} {text : List Char}
    (plain : ∀ char ∈ text, char = '\n' ∨ char = '\'' ∨ isLiteralChar char = true)
    (few : longestRow '\'' row text ≤ 2) :
    readLongLiteral (text ++ '\'' :: '\'' :: '\'' :: rest) = some (text, rest) := by
  induction text generalizing row with
  | nil => rw [List.nil_append, readLongLiteral, closing_zero stops]
  | cons char text ih =>
    have later {row : Nat} := @ih row fun other member => plain other (List.mem_cons_of_mem _ member)
    rw [longestRow] at few
    rw [List.cons_append]
    split at few
    next same =>
      subst same
      -- The last quotes of the text are read with those that end it.
      by_cases none : text = []
      · subst none
        rw [List.nil_append, readLongLiteral, closing_one stops]
      · by_cases one : text = ['\'']
        · subst one
          rw [List.cons_append, List.nil_append, readLongLiteral, closing_two]
        · rw [readLongLiteral_quote, later few]
          · rfl
          · intro more same
            exact (ends_of_singleQuotes (Nat.succ_pos row) few same).elim none one
    next other =>
      have few := (Nat.max_le.mp few).2
      rcases plain char List.mem_cons_self with rfl | quote | plain
      · rw [readLongLiteral_line, later few]
        rfl
      · contradiction
      · rw [readLongLiteral_plain plain, later few]
        rfl

/-! ## The choice of quotes -/

theorem read_basic (stops : Stops '"' rest) (text : List Char) :
    read ('"' :: (text.flatMap printChar ++ '"' :: rest)) = some (text, rest) := by
  rw [read, readBasic_print]
  intro more same
  cases text with
  | nil =>
    rw [List.flatMap_nil, List.nil_append, List.cons.injEq] at same
    exact stops (congrArg List.head? same.2)
  | cons char text =>
    have other := printChar_stops char (text.flatMap printChar ++ '"' :: rest)
    rw [List.flatMap_cons, List.append_assoc] at same
    rw [same] at other
    exact other rfl

theorem read_literal {text : List Char} (some : text ≠ [])
    (plain : ∀ char ∈ text, isLiteralChar char = true) (rest : List Char) :
    read ('\'' :: (text ++ '\'' :: rest)) = .some (text, rest) := by
  rw [read, readLiteral_append plain]
  intro more same
  cases text with
  | nil => contradiction
  | cons char text =>
    rw [List.cons_append, List.cons.injEq] at same
    have first := plain char List.mem_cons_self
    rw [same.1] at first
    exact absurd first (by decide)

/-- The line end behind the opening quotes is there if the text has lines. -/
def opening (text : List Char) : List Char :=
  if text.contains '\n' then ['\n'] else []

theorem skipLineEnd_opening {text input : List Char}
    (none : '\n' ∉ text → lineEnd? input = none) : skipLineEnd (opening text ++ input) = input := by
  rw [opening]
  split
  · rfl
  next lines =>
    rw [skipLineEnd, List.nil_append, none]
    · rfl
    · simpa using lines

theorem lineEnd?_cons {char : Char} (printing : isControl char = false) (rest : List Char) :
    lineEnd? (char :: rest) = none := by
  rw [lineEnd?]
  · rintro _ ⟨⟩
    exact absurd printing (by decide)
  · rintro _ ⟨⟩
    exact absurd printing (by decide)

theorem printing_of_basic {char : Char} (basic : isBasicChar char = true) :
    isControl char = false := by
  simp only [isBasicChar, Bool.and_eq_true, Bool.not_eq_true'] at basic
  exact basic.1.1

theorem printing_of_literal {char : Char} (plain : isLiteralChar char = true) :
    isControl char = false := by
  simp only [isLiteralChar, Bool.and_eq_true, Bool.not_eq_true'] at plain
  exact plain.1

theorem lineEnd?_printLong {text : List Char} (none : '\n' ∉ text) (rest : List Char) :
    lineEnd? (printLong 0 text ++ '"' :: rest) = .none := by
  cases text with
  | nil => rfl
  | cons char text =>
    rw [printLong]
    split
    · rfl
    · have other : char ≠ '\n' := fun same => none (same ▸ List.mem_cons_self)
      rw [if_neg other, List.append_assoc]
      rcases printChar_spec char with ⟨basic, printed⟩ | ⟨escape, printed, -⟩
      · rw [printed]
        exact lineEnd?_cons (printing_of_basic basic) _
      · rw [printed]
        rfl

theorem read_long (stops : Stops '"' rest) (text : List Char) :
    read (['"', '"', '"'] ++ opening text ++ printLong 0 text ++ ['"', '"', '"'] ++ rest) =
      some (text, rest) := by
  simp only [List.append_assoc, List.cons_append, List.nil_append]
  rw [read, skipLineEnd_opening, readLongBasic_printLong stops]
  intro none
  exact lineEnd?_printLong none _

theorem read_longLiteral (stops : Stops '\'' rest) {text : List Char}
    (plain : ∀ char ∈ text, char = '\n' ∨ char = '\'' ∨ isLiteralChar char = true)
    (few : longestRow '\'' 0 text ≤ 2) :
    read (['\'', '\'', '\''] ++ opening text ++ text ++ ['\'', '\'', '\''] ++ rest) =
      some (text, rest) := by
  simp only [List.append_assoc, List.cons_append, List.nil_append]
  rw [read, skipLineEnd_opening, readLongLiteral_append stops plain few]
  intro none
  cases text with
  | nil => rfl
  | cons char text =>
    rcases plain char List.mem_cons_self with rfl | rfl | plain
    · exact absurd List.mem_cons_self none
    · rfl
    · exact lineEnd?_cons (printing_of_literal plain) _

theorem not_mem_of_longestRow {char : Char} {text : List Char}
    (none : longestRow char 0 text = 0) : char ∉ text := by
  induction text with
  | nil => exact List.not_mem_nil
  | cons first text ih =>
    rw [longestRow] at none
    split at none
    · have row := le_longestRow char (0 + 1) text
      omega
    next other =>
      have later := ih (Nat.max_eq_zero_iff.mp none).2
      rintro (_ | ⟨_, member⟩)
      · exact other rfl
      · exact later member

theorem printing_or_line {text : List Char}
    (ordinary : (text.any fun char => isControl char && char ≠ '\n') = false) {char : Char}
    (member : char ∈ text) : char = '\n' ∨ isControl char = false := by
  have printing := List.any_eq_false.mp ordinary char member
  simp only [Bool.and_eq_true, decide_eq_true_eq, not_and, not_not] at printing
  cases control : isControl char with
  | true => exact .inl (printing control)
  | false => exact .inr rfl

/-- Text between the quotes that are chosen for it is read as it is. -/
theorem read_print (text : List Char) (double : Stops '"' rest) (single : Stops '\'' rest) :
    read (print text ++ rest) = some (text, rest) := by
  have basic : read ('"' :: (text.flatMap printChar ++ ['"']) ++ rest) = some (text, rest) := by
    rw [List.cons_append, List.append_assoc]
    exact read_basic double text
  have long := read_long double text
  rw [opening] at long
  rw [print]
  split
  · exact basic
  next notBasic =>
    have some : text ≠ [] := by
      rintro rfl
      exact notBasic rfl
    split
    next literal =>
      simp only [Bool.and_eq_true, Bool.not_eq_true', decide_eq_true_eq] at literal
      obtain ⟨⟨ordinary, none⟩, noLines⟩ := literal
      have plain : ∀ char ∈ text, isLiteralChar char = true := by
        intro char member
        have other : char ≠ '\'' := fun same => not_mem_of_longestRow none (same ▸ member)
        rcases printing_or_line ordinary member with rfl | printing
        · simp [member] at noLines
        · simp [isLiteralChar, printing, other]
      rw [List.cons_append, List.append_assoc]
      exact read_literal some plain rest
    next =>
      split
      · exact long
      · split
        next literal =>
          simp only [Bool.and_eq_true, Bool.not_eq_true', decide_eq_true_eq] at literal
          obtain ⟨ordinary, few⟩ := literal
          refine read_longLiteral single ?_ few
          intro char member
          rcases printing_or_line ordinary member with rfl | printing
          · exact .inl rfl
          · by_cases quote : char = '\''
            · exact .inr (.inl quote)
            · exact .inr (.inr (by simp [isLiteralChar, printing, quote]))
        next =>
          split
          next lines =>
            rw [if_pos lines] at long
            exact long
          · exact basic

end MetadataClient.Toml.Quoted
