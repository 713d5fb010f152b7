/-! Splitting text at a separating character. A text has one part more than it has
separators, so parts may be empty. -/
namespace MetadataClient.Text

def split (separator : Char) : List Char → List (List Char)
  | [] => [[]]
  | char :: rest =>
    if char = separator then [] :: split separator rest
    else
      match split separator rest with
      | [] => [[char]]
      | part :: parts => (char :: part) :: parts

def cut? (separator : Char) : List Char → Option (List Char × List Char)
  | [] => none
  | char :: rest =>
    if char = separator then some ([], rest)
    else (cut? separator rest).map fun (before, after) => (char :: before, after)

theorem split_ne_nil (separator : Char) (text : List Char) : split separator text ≠ [] := by
  induction text with
  | nil => simp [split]
  | cons char rest ih =>
      rw [split]
      split
      · simp
      · split <;> simp

theorem split_append (separator : Char) (first second : List Char) :
    split separator (first ++ separator :: second) =
      split separator first ++ split separator second := by
  induction first with
  | nil => simp [split]
  | cons char rest ih =>
      rw [List.cons_append, split, split, ih]
      split
      · simp
      · match found : split separator rest with
        | [] => exact absurd found (split_ne_nil _ _)
        | part :: parts => simp

theorem split_of_not_mem {separator : Char} {text : List Char} (free : separator ∉ text) :
    split separator text = [text] := by
  induction text with
  | nil => rfl
  | cons char rest ih =>
      rw [List.mem_cons, not_or] at free
      rw [split, if_neg (Ne.symm free.1), ih free.2]

theorem not_mem_of_mem_split {separator : Char} {text part : List Char}
    (member : part ∈ split separator text) : separator ∉ part := by
  induction text generalizing part with
  | nil => simp_all [split]
  | cons char rest ih =>
      rw [split] at member
      split at member
      · rcases List.mem_cons.mp member with rfl | later
        · simp
        · exact ih later
      · rename_i other
        match found : split separator rest with
        | [] => exact absurd found (split_ne_nil _ _)
        | first :: others =>
            rw [found] at member ih
            rcases List.mem_cons.mp member with rfl | later
            · have := @ih first List.mem_cons_self
              simp [Ne.symm other, this]
            · exact ih (List.mem_cons_of_mem _ later)

theorem cut?_append {separator : Char} {before : List Char} (free : separator ∉ before)
    (after : List Char) : cut? separator (before ++ separator :: after) = some (before, after) := by
  induction before with
  | nil => simp [cut?]
  | cons char rest ih =>
      rw [List.mem_cons, not_or] at free
      simp [cut?, Ne.symm free.1, ih free.2]

theorem cut?_eq_some {separator : Char} {text before after : List Char}
    (found : cut? separator text = some (before, after)) :
    separator ∉ before ∧ text = before ++ separator :: after := by
  induction text generalizing before with
  | nil => contradiction
  | cons char rest ih =>
      rw [cut?] at found
      split at found
      · rename_i same
        simp only [Option.some.injEq, Prod.mk.injEq] at found
        obtain ⟨rfl, rfl⟩ := found
        simp [same]
      · rename_i other
        obtain ⟨⟨first, second⟩, inner, equal⟩ := Option.map_eq_some_iff.mp found
        simp only [Prod.mk.injEq] at equal
        obtain ⟨rfl, rfl⟩ := equal
        obtain ⟨free, rfl⟩ := ih inner
        exact ⟨by simp [Ne.symm other, free], rfl⟩

end MetadataClient.Text
