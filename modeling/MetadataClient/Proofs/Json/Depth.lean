import MetadataClient.Proofs.Json.RoundTrip

/-! Reading of trees that nest too deep. A reader goes on through what it can read and then
refuses the first array or object for which it has no room, so a written tree is read back
exactly if it nests no deeper than the limit. However a text is written, no tree is read from it
that nests deeper. -/
namespace MetadataClient.Json

section Full

variable {frames : List Frame} (full : depthLimit ≤ frames.length)
include full

theorem readValue_array_full (rest : Bytes) :
    readValue frames (openArray :: rest) = .error .malformed := by
  rw [readValue_eq, skipBlanks_cons rfl]
  dsimp only
  rw [if_pos rfl, if_pos full]

theorem readValue_object_full (rest : Bytes) :
    readValue frames (openObject :: rest) = .error .malformed := by
  rw [readValue_eq, skipBlanks_cons rfl]
  dsimp only
  rw [if_neg (by decide), if_pos rfl, if_pos full]

end Full

/-- A value is refused, or it is read and what comes behind it is refused. -/
theorem readValue_refused {tree : Tree} {frames : List Frame} {rest : Bytes} (closed : Closed rest)
    (inside : depthLimit < tree.depth + frames.length →
      readValue frames (tree.print ++ rest) = .error .malformed)
    (behind : tree.depth + frames.length ≤ depthLimit →
      finishValue tree.reread frames rest = .error .malformed) :
    readValue frames (tree.print ++ rest) = .error .malformed := by
  rcases Nat.lt_or_ge depthLimit (tree.depth + frames.length) with deep | shallow
  · exact inside deep
  · rw [readValue_print tree shallow closed]
    exact behind shallow

mutual

/-- A tree for which the open frames do not leave room is refused. What comes before the first
container without room is read, so that no other fault is met. -/
theorem readValue_deep (tree : Tree) {frames : List Frame} {rest : Bytes}
    (deep : depthLimit < tree.depth + frames.length) (fits : frames.length ≤ depthLimit) :
    readValue frames (tree.print ++ rest) = .error .malformed := by
  match tree with
  | .null | .bool _ | .number _ | .string _ =>
    simp only [Tree.depth] at deep
    omega
  | .array [] =>
    simp only [Tree.depth, Tree.itemsDepth] at deep
    rw [Tree.print]
    exact readValue_array_full (by omega) _
  | .array (item :: items) =>
    simp only [Tree.depth, Tree.itemsDepth] at deep
    rcases Nat.lt_or_ge frames.length depthLimit with room | full
    · obtain ⟨byte, after, begins, visible, some⟩ := item.print_begins
      have entered (later : Bytes) : readValue frames (openArray :: (item.print ++ later)) =
          readValue (.array [] :: frames) (item.print ++ later) := by
        rw [begins]
        exact readValue_array room visible some _
      rw [Tree.print, Tree.printItems, intercalate_comma]
      simp only [List.cons_append, List.append_assoc, List.nil_append]
      rw [entered]
      -- The first item is too deep itself, or it is read and one of the others is.
      apply readValue_refused (closed_parts (.inl rfl) _ rest)
      · intro here
        exact readValue_deep item here room
      · intro shallow
        simp only [List.length_cons] at shallow
        exact finishValue_deepItems items _ [] rest (by omega) room
    · rw [Tree.print]
      exact readValue_array_full full _
  | .object [] =>
    simp only [Tree.depth, Tree.membersDepth] at deep
    rw [Tree.print]
    exact readValue_object_full (by omega) _
  | .object ((name, value) :: members) =>
    simp only [Tree.depth, Tree.membersDepth] at deep
    rcases Nat.lt_or_ge frames.length depthLimit with room | full
    · rw [Tree.print, Tree.printMembers, intercalate_comma]
      simp only [List.cons_append, List.append_assoc, List.nil_append]
      rw [readValue_object room]
      apply readValue_refused (closed_parts (.inr rfl) _ rest)
      · intro here
        exact readValue_deep value here room
      · intro shallow
        simp only [List.length_cons] at shallow
        exact finishValue_deepMembers members _ name [] rest (by omega) room
    · rw [Tree.print]
      exact readValue_object_full full _

theorem finishValue_deepItems (items : List Tree) (tree : Tree) (earlier : List Tree)
    {outer : List Frame} (rest : Bytes)
    (deep : depthLimit < Tree.itemsDepth items + outer.length + 1)
    (room : outer.length < depthLimit) :
    finishValue tree (.array earlier :: outer)
        ((Tree.printItems items).flatMap (comma :: ·) ++ closeArray :: rest) =
      .error .malformed := by
  match items with
  | [] =>
    simp only [Tree.itemsDepth] at deep
    omega
  | item :: items =>
    simp only [Tree.itemsDepth] at deep
    rw [Tree.printItems, List.flatMap_cons, List.cons_append, List.cons_append, List.append_assoc,
      finishValue_item]
    apply readValue_refused (closed_parts (.inl rfl) _ rest)
    · intro here
      exact readValue_deep item here room
    · intro shallow
      simp only [List.length_cons] at shallow
      exact finishValue_deepItems items _ _ rest (by omega) room

theorem finishValue_deepMembers (members : List (String × Tree)) (tree : Tree) (name : String)
    (earlier : List (String × Tree)) {outer : List Frame} (rest : Bytes)
    (deep : depthLimit < Tree.membersDepth members + outer.length + 1)
    (room : outer.length < depthLimit) :
    finishValue tree (.object earlier name :: outer)
        ((Tree.printMembers members).flatMap (comma :: ·) ++ closeObject :: rest) =
      .error .malformed := by
  match members with
  | [] =>
    simp only [Tree.membersDepth] at deep
    omega
  | (next, value) :: members =>
    simp only [Tree.membersDepth] at deep
    rw [Tree.printMembers, List.flatMap_cons, List.cons_append, List.cons_append,
      List.append_assoc, List.append_assoc, List.cons_append, finishValue_member]
    apply readValue_refused (closed_parts (.inr rfl) _ rest)
    · intro here
      exact readValue_deep value here room
    · intro shallow
      simp only [List.length_cons] at shallow
      exact finishValue_deepMembers members _ next _ rest (by omega) room

end

/-- A tree that nests deeper than readers allow is refused. -/
theorem parse_print_deep {tree : Tree} (deep : depthLimit < tree.depth) :
    parse tree.print = .error .malformed := by
  have refused := @readValue_deep tree [] [] deep (Nat.zero_le _)
  rw [List.append_nil] at refused
  rw [parse, refused]
  rfl

/-! ## Trees that are read -/

namespace Tree

theorem itemsDepth_le_iff {items : List Tree} {bound : Nat} :
    itemsDepth items ≤ bound ↔ ∀ item ∈ items, item.depth ≤ bound := by
  induction items with
  | nil => simp [itemsDepth]
  | cons item items ih => rw [itemsDepth, Nat.max_le, ih, List.forall_mem_cons]

theorem membersDepth_le_iff {members : List (String × Tree)} {bound : Nat} :
    membersDepth members ≤ bound ↔ ∀ member ∈ members, member.2.depth ≤ bound := by
  induction members with
  | nil => simp [membersDepth]
  | cons member members ih => rw [membersDepth, Nat.max_le, ih, List.forall_mem_cons]

end Tree

def Frame.held : Frame → List Tree
  | .array items => items
  | .object members _ => members.map (·.2)

/-- What the open frames hold is within the limit where it is. -/
def Fits : List Frame → Prop
  | [] => True
  | frame :: outer =>
    (∀ tree ∈ frame.held, tree.depth + outer.length + 1 ≤ depthLimit) ∧ Fits outer

theorem depth_array_le {items : List Tree} {outer : Nat} (room : outer + 1 ≤ depthLimit)
    (shallow : ∀ item ∈ items, item.depth + outer + 1 ≤ depthLimit) :
    (Tree.array items.reverse).depth + outer ≤ depthLimit := by
  have inside : Tree.itemsDepth items.reverse ≤ depthLimit - outer - 1 := by
    rw [Tree.itemsDepth_le_iff]
    intro item member
    have := shallow item (List.mem_reverse.mp member)
    omega
  rw [Tree.depth]
  omega

theorem depth_object_le {members : List (String × Tree)} {outer : Nat}
    (room : outer + 1 ≤ depthLimit)
    (shallow : ∀ value ∈ members.map (·.2), value.depth + outer + 1 ≤ depthLimit) :
    (Tree.object members.reverse).depth + outer ≤ depthLimit := by
  have inside : Tree.membersDepth members.reverse ≤ depthLimit - outer - 1 := by
    rw [Tree.membersDepth_le_iff]
    intro member found
    have := shallow member.2 (List.mem_map_of_mem (List.mem_reverse.mp found))
    omega
  rw [Tree.depth]
  omega

theorem depth_readScalar {input rest : Bytes} {tree : Tree}
    (read : readScalar input = .ok (tree, rest)) : tree.depth = 0 := by
  cases input with
  | nil => cases read
  | cons byte after =>
    simp only [readScalar, Except.map] at read
    repeat' split at read
    all_goals cases read <;> rfl

mutual

/-- A value is read only if there is room for it inside the open frames. -/
theorem readValue_depth_le {frames : List Frame} {input rest : Bytes} {tree : Tree}
    (fits : Fits frames) (room : frames.length ≤ depthLimit)
    (read : readValue frames input = .ok (tree, rest)) : tree.depth ≤ depthLimit := by
  rw [readValue_eq] at read
  split at read
  next => cases read
  next byte after start =>
    have shorter := length_lt_of_skipBlanks start
    split_ifs at read with array full object full
    · split at read
      next => cases read
      next next behind inside =>
        have shorter' := length_lt_of_skipBlanks inside
        split_ifs at read with empty
        · have nothing : (Tree.array []).depth + frames.length ≤ depthLimit :=
            @depth_array_le [] _ (Nat.lt_of_not_le full) (List.forall_mem_nil _)
          exact finishValue_depth_le fits nothing read
        · have inner : Fits (.array [] :: frames) := ⟨List.forall_mem_nil _, fits⟩
          exact readValue_depth_le inner (Nat.lt_of_not_le full) read
    · split at read
      next => cases read
      next next behind inside =>
        have shorter' := length_lt_of_skipBlanks inside
        split_ifs at read with empty
        · have nothing : (Tree.object []).depth + frames.length ≤ depthLimit :=
            @depth_object_le [] _ (Nat.lt_of_not_le full) (List.forall_mem_nil _)
          exact finishValue_depth_le fits nothing read
        · split at read
          next => cases read
          next name behind' named =>
            have shorter'' := readKey_length_lt named
            have inner : Fits (.object [] name :: frames) := ⟨List.forall_mem_nil _, fits⟩
            exact readValue_depth_le inner (Nat.lt_of_not_le full) read
    · split at read
      next => cases read
      next scalar behind found =>
        have shorter' : behind.length ≤ after.length :=
          Nat.le_of_lt_succ (readScalar_length_lt found)
        refine finishValue_depth_le fits ?_ read
        rwa [depth_readScalar found, Nat.zero_add]
termination_by input.length
decreasing_by all_goals omega

theorem finishValue_depth_le {frames : List Frame} {input rest : Bytes} {tree result : Tree}
    (fits : Fits frames) (shallow : tree.depth + frames.length ≤ depthLimit)
    (read : finishValue tree frames input = .ok (result, rest)) : result.depth ≤ depthLimit := by
  rw [finishValue_eq] at read
  split at read
  next =>
    cases read
    exact shallow
  next items outer =>
    rw [List.length_cons] at shallow
    have room : outer.length + 1 ≤ depthLimit := by omega
    have fits' : Fits (.array (tree :: items) :: outer) :=
      ⟨List.forall_mem_cons.mpr ⟨shallow, fits.1⟩, fits.2⟩
    split at read
    next => cases read
    next byte after start =>
      have shorter := length_lt_of_skipBlanks start
      split_ifs at read with more last
      · exact readValue_depth_le fits' room read
      · exact finishValue_depth_le fits.2 (depth_array_le room fits'.1) read
  next members name outer =>
    rw [List.length_cons] at shallow
    have room : outer.length + 1 ≤ depthLimit := by omega
    have fits' (next : String) : Fits (.object ((name, tree) :: members) next :: outer) :=
      ⟨List.forall_mem_cons.mpr ⟨shallow, fits.1⟩, fits.2⟩
    split at read
    next => cases read
    next byte after start =>
      have shorter := length_lt_of_skipBlanks start
      split_ifs at read with more last
      · split at read
        next => cases read
        next next behind named =>
          have shorter' := readKey_length_lt named
          exact readValue_depth_le (fits' next) room read
      · exact finishValue_depth_le fits.2 (depth_object_le room (fits' name).1) read
termination_by input.length
decreasing_by all_goals omega

end

theorem depth_parse_le {input : Bytes} {tree : Tree} (read : parse input = .ok tree) :
    tree.depth ≤ depthLimit := by
  rw [parse] at read
  cases found : readValue [] input with
  | error fault =>
    rw [found] at read
    cases read
  | ok result =>
    obtain ⟨value, rest⟩ := result
    simp only [found, bind, Except.bind, pure, Except.pure] at read
    split at read
    next => cases read
    next =>
      cases read
      have nothing : Fits [] := trivial
      exact readValue_depth_le nothing (Nat.zero_le _) found

end MetadataClient.Json
