import Mathlib.Data.List.TakeWhile
import MetadataClient.Text.Blank
import MetadataClient.Text.Split

/-! White space around a text, and separators in it. -/
namespace MetadataClient

namespace Text

theorem flatten_split (separator : Char) (text : List Char) :
    (split separator text).flatten = text.filter (· ≠ separator) := by
  induction text with
  | nil => rfl
  | cons char rest ih =>
    rw [split]
    split
    next same =>
      rw [List.flatten_cons, List.nil_append, ih, List.filter_cons_of_neg (by simpa using same)]
    next other =>
      obtain ⟨part, parts, found⟩ := List.exists_cons_of_ne_nil (split_ne_nil separator rest)
      rw [found, List.flatten_cons] at ih
      rw [found, List.filter_cons_of_pos (by simpa using other), ← ih]
      rfl

theorem trim_eq_nil_iff {text : List Char} :
    trim text = [] ↔ ∀ char ∈ text, isBlank char = true := by
  simp only [trim, List.reverse_eq_nil_iff, List.dropWhile_eq_nil_iff, List.mem_reverse]
  constructor
  · intro blank char member
    rw [← @List.takeWhile_append_dropWhile _ isBlank text, List.mem_append] at member
    rcases member with before | behind
    · exact List.mem_takeWhile_imp before
    · exact blank char behind
  · intro blank char member
    exact blank char (List.dropWhile_subset _ member)

theorem trim_within (text : List Char) : trim text <+: text.dropWhile isBlank := by
  rw [trim]
  have shorter := List.reverse_prefix.mpr
    (List.dropWhile_suffix isBlank (l := (text.dropWhile isBlank).reverse))
  rwa [List.reverse_reverse] at shorter

theorem mem_of_mem_trim {text : List Char} {char : Char} (left : char ∈ trim text) :
    char ∈ text :=
  List.dropWhile_subset _ ((trim_within text).subset left)

/-- Neither the first nor the last character is white space. -/
structure Trimmed (text : List Char) : Prop where
  first : ∀ char ∈ text.head?, isBlank char = false
  last : ∀ char ∈ text.getLast?, isBlank char = false

theorem isBlank_of_mem_head?_dropWhile {text : List Char} {char : Char}
    (first : char ∈ (text.dropWhile isBlank).head?) : isBlank char = false := by
  have known := List.head?_dropWhile_not isBlank text
  rwa [Option.mem_def.mp first] at known

theorem trimmed_trim (text : List Char) : Trimmed (trim text) := by
  constructor
  · intro char first
    obtain ⟨behind, whole⟩ := trim_within text
    have still : char ∈ (text.dropWhile isBlank).head? := by
      rw [← whole, List.head?_append, Option.mem_def.mp first]
      rfl
    exact isBlank_of_mem_head?_dropWhile still
  · intro char last
    rw [trim, List.getLast?_reverse] at last
    exact isBlank_of_mem_head?_dropWhile last

theorem dropWhile_blank_append {before rest : List Char}
    (blank : ∀ char ∈ before, isBlank char = true)
    (first : ∀ char ∈ rest.head?, isBlank char = false) :
    (before ++ rest).dropWhile isBlank = rest := by
  rw [List.dropWhile_append_of_pos blank]
  cases rest with
  | nil => rfl
  | cons char rest =>
    rw [List.dropWhile_cons_of_neg]
    rw [first char rfl]
    exact Bool.false_ne_true

/-- White space is taken away from around a text, and nothing else. -/
theorem trim_padded {before text behind : List Char} (filled : text ≠ []) (trimmed : Trimmed text)
    (front : ∀ char ∈ before, isBlank char = true) (back : ∀ char ∈ behind, isBlank char = true) :
    trim (before ++ text ++ behind) = text := by
  have begun : (before ++ text ++ behind).dropWhile isBlank = text ++ behind := by
    rw [List.append_assoc]
    apply dropWhile_blank_append front
    rw [List.head?_append, List.head?_eq_some_head filled, Option.some_or,
      ← List.head?_eq_some_head filled]
    exact trimmed.first
  have ended : (behind.reverse ++ text.reverse).dropWhile isBlank = text.reverse := by
    apply dropWhile_blank_append
    · intro char member
      exact back char (List.mem_reverse.mp member)
    · rw [List.head?_reverse]
      exact trimmed.last
  rw [trim, begun, List.reverse_append, ended, List.reverse_reverse]

end Text

end MetadataClient
