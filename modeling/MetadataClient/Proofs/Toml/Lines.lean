import MetadataClient.Proofs.Toml.Quoted
import MetadataClient.Toml.Reader

/-! Lines that are read as they were written: headers, and settings whose values are quoted
texts or lists of them. -/
namespace MetadataClient

namespace Text

variable {α : Type} {read : List Char → Option (α × List Char)} {input rest last : List Char}
  {first : α} {more : List α}

theorem repeated_none (none : read input = .none) : repeated read input = ([], input) := by
  rw [repeated, none]

theorem repeated_some (some : read input = .some (first, rest))
    (shorter : rest.length < input.length) (later : repeated read rest = (more, last)) :
    repeated read input = (first :: more, last) := by
  rw [repeated, some]
  simp only [shorter, if_true, later]

theorem behind_mark (mark : Char) (rest : List Char) :
    behind mark read (mark :: rest) = read rest :=
  if_pos rfl

end Text

namespace Toml

/-! ## Keys -/

structure Bare (name : List Char) : Prop where
  some : name ≠ []
  plain : ∀ char ∈ name, isNameChar char = true

instance (name : List Char) : Decidable (Bare name) :=
  decidable_of_iff (name ≠ [] ∧ name.all isNameChar = true)
    ⟨fun ⟨named, plain⟩ => ⟨named, List.all_eq_true.mp plain⟩,
      fun ⟨named, plain⟩ => ⟨named, List.all_eq_true.mpr plain⟩⟩

theorem skipBlanks_cons {char : Char} (ink : isBlank char = false) (rest : List Char) :
    skipBlanks (char :: rest) = char :: rest := by
  rw [skipBlanks, List.dropWhile_cons_of_neg]
  simpa using ink

/-- A bare name begins with a character that begins nothing else. -/
theorem Bare.exists_cons {name : List Char} (bare : Bare name) :
    ∃ first more, name = first :: more ∧ isNameChar first = true := by
  obtain ⟨some, plain⟩ := bare
  cases name with
  | nil => contradiction
  | cons first more => exact ⟨first, more, rfl, plain first List.mem_cons_self⟩

theorem ne_of_isNameChar {char other : Char} (plain : isNameChar char = true)
    (special : isNameChar other = false) : char ≠ other := by
  rintro rfl
  cases plain.symm.trans special

variable {name rest after : List Char} {stop mark : Char}

def Flush (rest : List Char) : Prop :=
  ∀ char ∈ rest.head?, isBlank char = false

theorem Flush.skipBlanks (flush : Flush rest) : skipBlanks rest = rest := by
  cases rest with
  | nil => rfl
  | cons char rest => exact skipBlanks_cons (flush char rfl) rest

theorem flush_bare (bare : Bare name) (rest : List Char) : Flush (name ++ rest) := by
  obtain ⟨first, more, rfl, plain⟩ := bare.exists_cons
  rintro _ ⟨⟩
  simp only [isBlank, Bool.or_eq_false_iff, decide_eq_false_iff_not]
  exact ⟨ne_of_isNameChar plain (by decide), ne_of_isNameChar plain (by decide)⟩

theorem readName_bare (bare : Bare name) (ends : isNameChar stop = false) (rest : List Char) :
    readName (name ++ stop :: rest) = some (String.ofList name, stop :: rest) := by
  have ends : ¬ isNameChar stop = true := Bool.eq_false_iff.mp ends
  have taken : (name ++ stop :: rest).takeWhile isNameChar = name := by
    rw [List.takeWhile_append_of_pos bare.plain, List.takeWhile_cons_of_neg ends, List.append_nil]
  have dropped : (name ++ stop :: rest).dropWhile isNameChar = stop :: rest := by
    rw [List.dropWhile_append_of_pos bare.plain, List.dropWhile_cons_of_neg ends]
  obtain ⟨first, more, rfl, plain⟩ := bare.exists_cons
  rw [readName, taken, dropped]
  · rfl
  · rintro _ ⟨⟩
    exact absurd plain (by decide)
  · rintro _ ⟨⟩
    exact absurd plain (by decide)

theorem readKey_bare (bare : Bare name) (ends : isNameChar stop = false)
    (next : skipBlanks (stop :: rest) = mark :: after) (other : mark ≠ '.') :
    readKey (name ++ stop :: rest) = some (⟨[], String.ofList name⟩, mark :: after) := by
  have part : readPart (name ++ stop :: rest) = some (String.ofList name, mark :: after) := by
    rw [readPart, (flush_bare bare _).skipBlanks, readName_bare bare ends, Option.map_some]
    simp only [next]
  have none : Text.behind '.' readPart (mark :: after) = none := if_neg other
  rw [readKey, Text.separated, part]
  simp only [Text.repeated_none none]
  rfl

/-! ## Values -/

/-- No quote follows that could belong to a text. -/
def Unquoted (rest : List Char) : Prop :=
  Quoted.Stops '"' rest ∧ Quoted.Stops '\'' rest

theorem print_begins (text : List Char) :
    ∃ first more, Quoted.print text = first :: more ∧ (first = '"' ∨ first = '\'') := by
  rw [Quoted.print]
  split
  · exact ⟨_, _, rfl, .inl rfl⟩
  · split
    · exact ⟨_, _, rfl, .inr rfl⟩
    · split
      · exact ⟨_, _, rfl, .inl rfl⟩
      · split
        · exact ⟨_, _, rfl, .inr rfl⟩
        · split
          · exact ⟨_, _, rfl, .inl rfl⟩
          · exact ⟨_, _, rfl, .inl rfl⟩

theorem readValue_print (levels : Nat) (text : String) (unquoted : Unquoted rest) :
    readValue levels (Quoted.print text.toList ++ rest) = some (.string text, rest) := by
  have read := Quoted.read_print text.toList unquoted.1 unquoted.2
  obtain ⟨first, more, same, quote⟩ := print_begins text.toList
  rw [same, List.cons_append] at read ⊢
  rw [readValue.eq_def]
  simp only [quote, if_true, read, Option.map_some, String.ofList_toList]

theorem skipLines_cons {char : Char} (ink : isBlank char = false) (noComment : char ≠ '#')
    (noLine : lineEnd? (char :: rest) = none) : skipLines (char :: rest) = char :: rest := by
  rw [skipLines]
  split
  next found =>
    rw [skipBlanks_cons ink, List.cons.injEq] at found
    exact absurd found.1 noComment
  next =>
    split
    next after ended =>
      rw [skipBlanks_cons ink, noLine] at ended
      cases ended
    · exact skipBlanks_cons ink rest

/-- An element of a list ends here. -/
def Closes (rest : List Char) : Prop :=
  ∃ stop more, rest = stop :: more ∧ (stop = ',' ∨ stop = ']')

theorem Closes.unquoted (closes : Closes rest) : Unquoted rest := by
  obtain ⟨stop, more, rfl, rfl | rfl⟩ := closes
  · exact ⟨Quoted.Stops.cons (by decide) _, Quoted.Stops.cons (by decide) _⟩
  · exact ⟨Quoted.Stops.cons (by decide) _, Quoted.Stops.cons (by decide) _⟩

theorem Closes.skipLines (closes : Closes rest) : skipLines rest = rest := by
  obtain ⟨stop, more, rfl, rfl | rfl⟩ := closes
  · exact skipLines_cons rfl (by decide) rfl
  · exact skipLines_cons rfl (by decide) rfl

theorem skipLines_print (text rest : List Char) :
    skipLines (Quoted.print text ++ rest) = Quoted.print text ++ rest := by
  obtain ⟨first, more, same, rfl | rfl⟩ := print_begins text
  · rw [same]
    exact skipLines_cons rfl (by decide) rfl
  · rw [same]
    exact skipLines_cons rfl (by decide) rfl

theorem skipLines_blank (text rest : List Char) :
    skipLines (' ' :: (Quoted.print text ++ rest)) = Quoted.print text ++ rest := by
  have same : skipLines (' ' :: (Quoted.print text ++ rest)) =
      skipLines (Quoted.print text ++ rest) := by
    rw [skipLines, skipLines]
    rfl
  rw [same, skipLines_print]

/-- An element of an array, with the blanks and line ends around it. -/
def readElement (levels : Nat) (input : List Char) : Option (Value × List Char) :=
  (readValue levels (skipLines input)).map fun (value, rest) => (value, skipLines rest)

theorem readElement_print (levels : Nat) (text : String) (closes : Closes rest) :
    readElement levels (Quoted.print text.toList ++ rest) = some (.string text, rest) := by
  rw [readElement, skipLines_print, readValue_print levels text closes.unquoted, Option.map_some]
  simp only [closes.skipLines]

theorem readElement_blank (levels : Nat) (text : String) (closes : Closes rest) :
    readElement levels (' ' :: (Quoted.print text.toList ++ rest)) = some (.string text, rest) := by
  rw [readElement, skipLines_blank, readValue_print levels text closes.unquoted, Option.map_some]
  simp only [closes.skipLines]

def printMore (texts : List String) : List Char :=
  texts.flatMap fun text => ',' :: ' ' :: Quoted.print text.toList

theorem closes_printMore (texts : List String) (rest : List Char) :
    Closes (printMore texts ++ ']' :: rest) := by
  cases texts with
  | nil => exact ⟨_, _, rfl, .inr rfl⟩
  | cons => exact ⟨_, _, rfl, .inl rfl⟩

theorem readMore_print (levels : Nat) (texts : List String) (rest : List Char) :
    Text.repeated (Text.behind ',' (readElement levels)) (printMore texts ++ ']' :: rest) =
      (texts.map Value.string, ']' :: rest) := by
  induction texts with
  | nil => exact Text.repeated_none rfl
  | cons text texts ih =>
    have printed : printMore (text :: texts) ++ ']' :: rest =
        ',' :: ' ' :: (Quoted.print text.toList ++ (printMore texts ++ ']' :: rest)) := by
      rw [printMore, List.flatMap_cons, List.append_assoc]
      rfl
    rw [printed]
    refine Text.repeated_some ?_ ?_ ih
    · rw [Text.behind_mark, readElement_blank levels text (closes_printMore texts rest)]
    · simp only [List.length_cons, List.length_append]
      omega

theorem readElement_close (levels : Nat) (rest : List Char) :
    readElement levels (']' :: rest) = none := by
  have noScalar : Scalar.read (']' :: rest) = none := rfl
  rw [readElement, skipLines_cons rfl (by decide) rfl, readValue.eq_def]
  simp only [noScalar]
  rfl

theorem readItems_closed {levels : Nat} {input : List Char} {items : List Value}
    (all : Text.separated ',' (readElement levels) input = (items, ']' :: rest)) :
    readItems (readValue levels) input = some (.array items, rest) := by
  have noComma : (Scalar.readMark ',' (']' :: rest)).getD (']' :: rest) = ']' :: rest := rfl
  unfold readElement at all
  simp only [readItems, all, noComma, ite_self]
  rw [skipLines_cons rfl (by decide) rfl]
  rfl

theorem readValue_nil (levels : Nat) (rest : List Char) :
    readValue (levels + 1) ('[' :: ']' :: rest) = some (.array [], rest) := by
  have none : Text.separated ',' (readElement levels) (']' :: rest) = ([], ']' :: rest) := by
    rw [Text.separated, readElement_close]
  rw [readValue.eq_def]
  exact readItems_closed none

theorem readValue_cons (levels : Nat) (first : String) (more : List String) (rest : List Char) :
    readValue (levels + 1)
        ('[' :: (Quoted.print first.toList ++ (printMore more ++ ']' :: rest))) =
      some (.array ((first :: more).map Value.string), rest) := by
  have all : Text.separated ',' (readElement levels)
      (Quoted.print first.toList ++ (printMore more ++ ']' :: rest)) =
        ((first :: more).map Value.string, ']' :: rest) := by
    rw [Text.separated, readElement_print levels first (closes_printMore more rest)]
    simp only [readMore_print]
    rfl
  rw [readValue.eq_def]
  exact readItems_closed all

/-! ## Lines -/

/-- What is written for a line. Whatever line follows, the reader finds this one and stops
in front of the next. -/
structure Written (printed : List Char) (line : Line) : Prop where
  flush (rest : List Char) : Flush (printed ++ rest)
  some : printed ≠ []
  read {rest : List Char} (flush : Flush rest) : readLine (printed ++ rest) = .some (line, rest)

theorem written_blank : Written ['\n'] .blank := by
  constructor
  · rintro rest _ ⟨⟩
    rfl
  · exact List.cons_ne_nil _ _
  · intro rest flush
    have content : readContent (['\n'] ++ rest) = some (.blank, rest) := rfl
    rw [readLine, content, Option.map_some]
    simp only [flush.skipBlanks]

theorem written_header (bare : Bare name) :
    Written ('[' :: (name ++ [']', '\n'])) (.table ⟨[], String.ofList name⟩) := by
  constructor
  · rintro rest _ ⟨⟩
    rfl
  · exact List.cons_ne_nil _ _
  · intro rest flush
    have header : readHeader [']'] (name ++ ']' :: '\n' :: rest) =
        some (⟨[], String.ofList name⟩, rest) := by
      rw [readHeader, readKey_bare bare rfl (skipBlanks_cons rfl _) (by decide)]
      rfl
    have content : readContent ('[' :: (name ++ ']' :: '\n' :: rest)) =
        some (.table ⟨[], String.ofList name⟩, rest) := by
      obtain ⟨first, more, rfl, plain⟩ := bare.exists_cons
      rw [readContent, header]
      · rfl
      · rintro _ ⟨⟩
        exact absurd plain (by decide)
    rw [List.cons_append, List.append_assoc, List.cons_append, List.cons_append, List.nil_append,
      readLine, content, Option.map_some]
    simp only [flush.skipBlanks]

theorem written_pair (bare : Bare name) {value : Value} {printed : List Char}
    (begins : ∀ rest, Flush (printed ++ rest))
    (read : ∀ rest, readValue nestingLimit (printed ++ '\n' :: rest) =
      some (value, '\n' :: rest)) :
    Written (name ++ [' ', '=', ' '] ++ printed ++ ['\n'])
      (.pair ⟨[], String.ofList name⟩ value) := by
  constructor
  · intro rest
    simp only [List.append_assoc]
    exact flush_bare bare _
  · simp
  · intro rest flush
    have key : readKey (name ++ ' ' :: '=' :: ' ' :: (printed ++ '\n' :: rest)) =
        some (⟨[], String.ofList name⟩, '=' :: ' ' :: (printed ++ '\n' :: rest)) :=
      readKey_bare bare rfl rfl (by decide)
    have pair : readPair (readValue nestingLimit)
        (name ++ ' ' :: '=' :: ' ' :: (printed ++ '\n' :: rest)) =
          some ((⟨[], String.ofList name⟩, value), '\n' :: rest) := by
      have mark : Scalar.readMark '=' ('=' :: ' ' :: (printed ++ '\n' :: rest)) =
          some (' ' :: (printed ++ '\n' :: rest)) := rfl
      have ink : skipBlanks (' ' :: (printed ++ '\n' :: rest)) = printed ++ '\n' :: rest :=
        (begins _).skipBlanks
      simp only [readPair, key, mark, ink, read, Option.bind_eq_bind, Option.bind_some,
        Option.pure_def]
    have content : readContent (name ++ ' ' :: '=' :: ' ' :: (printed ++ '\n' :: rest)) =
        some (.pair ⟨[], String.ofList name⟩ value, rest) := by
      obtain ⟨first, more, rfl, plain⟩ := bare.exists_cons
      have noLine (input : List Char) : lineEnd? (first :: input) = none := by
        rw [lineEnd?]
        · rintro _ ⟨⟩
          exact absurd plain (by decide)
        · rintro _ ⟨⟩
          exact absurd plain (by decide)
      rw [List.cons_append] at pair ⊢
      generalize more ++ ' ' :: '=' :: ' ' :: (printed ++ '\n' :: rest) = input at pair ⊢
      rw [readContent, noLine, pair]
      · rfl
      · rintro _ ⟨⟩
        exact absurd plain (by decide)
      · rintro _ ⟨⟩
        exact absurd plain (by decide)
      · rintro _ ⟨⟩
        exact absurd plain (by decide)
    simp only [List.append_assoc, List.cons_append, List.nil_append]
    rw [readLine, content, Option.map_some]
    simp only [flush.skipBlanks]

theorem flush_print (text rest : List Char) : Flush (Quoted.print text ++ rest) := by
  obtain ⟨first, more, same, rfl | rfl⟩ := print_begins text
  · rw [same]
    rintro _ ⟨⟩
    rfl
  · rw [same]
    rintro _ ⟨⟩
    rfl

theorem unquoted_line (rest : List Char) : Unquoted ('\n' :: rest) :=
  ⟨Quoted.Stops.cons (by decide) _, Quoted.Stops.cons (by decide) _⟩

/-- Lines are read one after the other up to the end of the text. -/
theorem readLines_written {pieces : List (List Char × Line)}
    (written : ∀ piece ∈ pieces, Written piece.1 piece.2) :
    Flush (pieces.flatMap Prod.fst) ∧
      Text.repeated readLine (pieces.flatMap Prod.fst) = (pieces.map Prod.snd, []) := by
  induction pieces with
  | nil => exact ⟨nofun, Text.repeated_none rfl⟩
  | cons piece pieces ih =>
    obtain ⟨flush, later⟩ := ih fun other member => written other (List.mem_cons_of_mem _ member)
    have first := written piece List.mem_cons_self
    rw [List.flatMap_cons]
    refine ⟨first.flush _, Text.repeated_some (first.read flush) ?_ later⟩
    have some := List.length_pos_iff.mpr first.some
    rw [List.length_append]
    omega

end Toml
end MetadataClient
