import MetadataClient.Proofs.Json.Numbers

/-! Reading of written trees. A tree that nests no deeper than a reader allows is read back
with the same shape, the same names and the same strings; only binary64 numbers may come
back as neighbours. -/
namespace MetadataClient.Json

namespace Tree

mutual

def reread : Tree → Tree
  | .null => .null
  | .bool value => .bool value
  | .number value => .number value.reread
  | .string text => .string text
  | .array items => .array (rereadItems items)
  | .object members => .object (rereadMembers members)

def rereadItems : List Tree → List Tree
  | [] => []
  | item :: rest => reread item :: rereadItems rest

def rereadMembers : List (String × Tree) → List (String × Tree)
  | [] => []
  | (name, value) :: rest => (name, reread value) :: rereadMembers rest

end
end Tree

theorem skipBlanks_cons {byte : UInt8} (visible : isBlank byte = false) (rest : Bytes) :
    skipBlanks (byte :: rest) = byte :: rest := by
  rw [skipBlanks, visible, if_neg Bool.false_ne_true]

/-- What is refused at white space and at the marks of containers begins with something else. -/
theorem begins_of_refuses {α : Type} {reader : Bytes → Except Fault α} {input : Bytes} {result : α}
    (empty : reader [] = .error .endOfText)
    (refuses : ∀ mark ∈ [0x20, 0x09, 0x0a, 0x0d, openArray, openObject, closeArray], ∀ after,
      reader (mark :: after) = .error .malformed)
    (read : reader input = .ok result) :
    ∃ byte after, input = byte :: after ∧ isBlank byte = false ∧ byte ≠ openArray ∧
      byte ≠ openObject ∧ byte ≠ closeArray := by
  cases input with
  | nil =>
    rw [empty] at read
    cases read
  | cons byte after =>
    have other : ∀ mark ∈ [0x20, 0x09, 0x0a, 0x0d, openArray, openObject, closeArray],
        byte ≠ mark := by
      rintro mark member rfl
      rw [refuses byte member] at read
      cases read
    simp only [List.forall_mem_cons] at other
    obtain ⟨space, tab, feed, back, noArray, noObject, someItem, -⟩ := other
    refine ⟨byte, after, rfl, ?_, noArray, noObject, someItem⟩
    simp only [isBlank, space, tab, feed, back, decide_false, Bool.or_false]

theorem begins_of_readScalar {input rest : Bytes} {tree : Tree}
    (read : readScalar input = .ok (tree, rest)) :
    ∃ byte after, input = byte :: after ∧ isBlank byte = false ∧ byte ≠ openArray ∧
      byte ≠ openObject ∧ byte ≠ closeArray := by
  refine begins_of_refuses rfl ?_ read
  simp only [List.forall_mem_cons]
  exact ⟨fun _ => rfl, fun _ => rfl, fun _ => rfl, fun _ => rfl, fun _ => rfl, fun _ => rfl,
    fun _ => rfl, List.forall_mem_nil _⟩

/-! ## One step of a reader

The readers are unfolded here and nowhere else. -/

theorem readValue_eq (frames : List Frame) (input : Bytes) :
    readValue frames input =
      match skipBlanks input with
      | [] => .error .endOfText
      | byte :: rest =>
        if byte = openArray then
          if depthLimit ≤ frames.length then .error .malformed
          else match skipBlanks rest with
            | [] => .error .endOfText
            | next :: after =>
              if next = closeArray then finishValue (.array []) frames after
              else readValue (.array [] :: frames) rest
        else if byte = openObject then
          if depthLimit ≤ frames.length then .error .malformed
          else match skipBlanks rest with
            | [] => .error .endOfText
            | next :: after =>
              if next = closeObject then finishValue (.object []) frames after
              else match readKey rest with
                | .error fault => .error fault
                | .ok (name, after) => readValue (.object [] name :: frames) after
        else match readScalar (byte :: rest) with
          | .error fault => .error fault
          | .ok (tree, after) => finishValue tree frames after := by
  rw [readValue]
  split
  next start => rw [start]
  next start =>
    rw [start]
    dsimp only
    congr 1
    · congr 1
      split
      next inside => rw [inside]
      next inside => rw [inside]
    · congr 1
      · congr 1
        split
        next inside => rw [inside]
        next inside =>
          rw [inside]
          dsimp only
          congr 1
          split
          next named => rw [named]
          next named => rw [named]
      · split
        next read => rw [read]
        next read => rw [read]

theorem finishValue_eq (tree : Tree) (frames : List Frame) (input : Bytes) :
    finishValue tree frames input =
      match frames with
      | [] => .ok (tree, input)
      | .array items :: outer =>
        match skipBlanks input with
        | [] => .error .endOfText
        | byte :: rest =>
          if byte = comma then readValue (.array (tree :: items) :: outer) rest
          else if byte = closeArray then finishValue (.array (tree :: items).reverse) outer rest
          else .error .malformed
      | .object members name :: outer =>
        match skipBlanks input with
        | [] => .error .endOfText
        | byte :: rest =>
          if byte = comma then
            match readKey rest with
            | .error fault => .error fault
            | .ok (next, after) => readValue (.object ((name, tree) :: members) next :: outer) after
          else if byte = closeObject then
            finishValue (.object ((name, tree) :: members).reverse) outer rest
          else .error .malformed := by
  rw [finishValue.eq_def]
  match frames with
  | [] => rfl
  | .array items :: outer =>
    dsimp only
    split
    next start => rw [start]
    next start => rw [start]
  | .object members name :: outer =>
    dsimp only
    split
    next start => rw [start]
    next start =>
      rw [start]
      dsimp only
      congr 1
      split
      next named => rw [named]
      next named => rw [named]

theorem readValue_scalar {frames : List Frame} {input after : Bytes} {tree : Tree}
    (read : readScalar input = .ok (tree, after)) :
    readValue frames input = finishValue tree frames after := by
  obtain ⟨byte, rest, rfl, visible, noArray, noObject, -⟩ := begins_of_readScalar read
  rw [readValue_eq, skipBlanks_cons visible]
  dsimp only
  rw [if_neg noArray, if_neg noObject, read]

section Open

variable {frames : List Frame} (room : frames.length < depthLimit)
include room

theorem readValue_array_nil (rest : Bytes) :
    readValue frames (openArray :: closeArray :: rest) = finishValue (.array []) frames rest := by
  rw [readValue_eq, skipBlanks_cons rfl]
  dsimp only
  rw [if_pos rfl, if_neg (Nat.not_le_of_lt room), skipBlanks_cons rfl]
  dsimp only
  rw [if_pos rfl]

theorem readValue_array {byte : UInt8} (visible : isBlank byte = false)
    (some : byte ≠ closeArray) (rest : Bytes) :
    readValue frames (openArray :: byte :: rest) =
      readValue (.array [] :: frames) (byte :: rest) := by
  rw [readValue_eq, skipBlanks_cons rfl]
  dsimp only
  rw [if_pos rfl, if_neg (Nat.not_le_of_lt room), skipBlanks_cons visible]
  dsimp only
  rw [if_neg some]

theorem readValue_object_nil (rest : Bytes) :
    readValue frames (openObject :: closeObject :: rest) =
      finishValue (.object []) frames rest := by
  rw [readValue_eq, skipBlanks_cons rfl]
  dsimp only
  rw [if_neg (by decide), if_pos rfl, if_neg (Nat.not_le_of_lt room), skipBlanks_cons rfl]
  dsimp only
  rw [if_pos rfl]

end Open

theorem readKey_print (name : String) (rest : Bytes) :
    readKey (printString name ++ colon :: rest) = .ok (name, rest) := by
  rw [printString_append, readKey, skipBlanks_cons rfl]
  dsimp only
  rw [if_pos rfl, readString_print]
  dsimp only
  rw [skipBlanks_cons rfl]
  rfl

theorem readValue_object {frames : List Frame} (room : frames.length < depthLimit) (name : String)
    (rest : Bytes) :
    readValue frames (openObject :: (printString name ++ colon :: rest)) =
      readValue (.object [] name :: frames) rest := by
  have named := readKey_print name rest
  rw [printString_append] at named ⊢
  rw [readValue_eq, skipBlanks_cons rfl]
  dsimp only
  rw [if_neg (by decide), if_pos rfl, if_neg (Nat.not_le_of_lt room), skipBlanks_cons rfl]
  dsimp only
  rw [if_neg (by decide), named]

section Finish

variable (tree : Tree) (outer : List Frame) (rest : Bytes)

theorem finishValue_nil : finishValue tree [] rest = .ok (tree, rest) := by
  rw [finishValue_eq]

theorem finishValue_item (items : List Tree) :
    finishValue tree (.array items :: outer) (comma :: rest) =
      readValue (.array (tree :: items) :: outer) rest := by
  rw [finishValue_eq]
  dsimp only
  rw [skipBlanks_cons rfl]
  rfl

theorem finishValue_closeArray (items : List Tree) :
    finishValue tree (.array items :: outer) (closeArray :: rest) =
      finishValue (.array (tree :: items).reverse) outer rest := by
  rw [finishValue_eq]
  dsimp only
  rw [skipBlanks_cons rfl]
  rfl

theorem finishValue_member (members : List (String × Tree)) (name next : String) :
    finishValue tree (.object members name :: outer)
        (comma :: (printString next ++ colon :: rest)) =
      readValue (.object ((name, tree) :: members) next :: outer) rest := by
  rw [finishValue_eq]
  dsimp only
  rw [skipBlanks_cons rfl]
  dsimp only
  rw [if_pos rfl, readKey_print]

theorem finishValue_closeObject (members : List (String × Tree)) (name : String) :
    finishValue tree (.object members name :: outer) (closeObject :: rest) =
      finishValue (.object ((name, tree) :: members).reverse) outer rest := by
  rw [finishValue_eq]
  dsimp only
  rw [skipBlanks_cons rfl]
  rfl

end Finish

/-! ## Whole trees -/

theorem closed_comma (rest : Bytes) : Closed (comma :: rest) := by
  rintro byte ⟨⟩
  exact .inl rfl

theorem closed_closeArray (rest : Bytes) : Closed (closeArray :: rest) := by
  rintro byte ⟨⟩
  exact .inr (.inl rfl)

theorem closed_closeObject (rest : Bytes) : Closed (closeObject :: rest) := by
  rintro byte ⟨⟩
  exact .inr (.inr rfl)

theorem intercalate_comma (first : Bytes) (rest : List Bytes) :
    [comma].intercalate (first :: rest) = first ++ rest.flatMap (comma :: ·) := by
  induction rest generalizing first with
  | nil => simp
  | cons next rest ih => simp [ih]

theorem readScalar_string (text : String) (rest : Bytes) :
    readScalar (printString text ++ rest) = .ok (.string text, rest) := by
  rw [printString_append, readScalar, if_neg (by decide), if_neg (by decide), if_neg (by decide),
    if_pos rfl, readString_print]
  rfl

namespace Tree

def IsScalar : Tree → Prop
  | .array _ | .object _ => False
  | _ => True

theorem readScalar_print {tree : Tree} (scalar : tree.IsScalar) {rest : Bytes}
    (closed : Closed rest) : readScalar (tree.print ++ rest) = .ok (tree.reread, rest) := by
  match tree with
  | .null => rw [print, reread]; rfl
  | .bool true => rw [print, reread]; rfl
  | .bool false => rw [print, reread]; rfl
  | .number value => rw [print, reread]; exact value.readScalar_reread closed
  | .string text => rw [print, reread]; exact readScalar_string text rest
  | .array items => cases scalar
  | .object members => cases scalar

theorem print_begins (tree : Tree) :
    ∃ byte after, tree.print = byte :: after ∧ isBlank byte = false ∧ byte ≠ closeArray := by
  have ofScalar {tree : Tree} (scalar : tree.IsScalar) :
      ∃ byte after, tree.print = byte :: after ∧ isBlank byte = false ∧ byte ≠ closeArray := by
    have read := readScalar_print scalar Number.closed_nil
    rw [List.append_nil] at read
    obtain ⟨byte, after, begins, visible, -, -, some⟩ := begins_of_readScalar read
    exact ⟨byte, after, begins, visible, some⟩
  match tree with
  | .array items => exact ⟨openArray, _, by rw [print]; rfl, rfl, by decide⟩
  | .object members => exact ⟨openObject, _, by rw [print]; rfl, rfl, by decide⟩
  | .null | .bool _ | .number _ | .string _ => exact ofScalar trivial

end Tree

/-- Behind a part comes another one with its comma or the mark that closes them. -/
theorem closed_parts {mark : UInt8} (closes : mark = closeArray ∨ mark = closeObject)
    (parts : List Bytes) (rest : Bytes) :
    Closed (parts.flatMap (comma :: ·) ++ mark :: rest) := by
  cases parts with
  | nil =>
    rcases closes with rfl | rfl
    · exact closed_closeArray rest
    · exact closed_closeObject rest
  | cons part parts =>
    rw [List.flatMap_cons, List.cons_append, List.cons_append]
    exact closed_comma _

mutual

theorem readValue_print (tree : Tree) {frames : List Frame} {rest : Bytes}
    (shallow : tree.depth + frames.length ≤ depthLimit) (closed : Closed rest) :
    readValue frames (tree.print ++ rest) = finishValue tree.reread frames rest := by
  match tree with
  | .null | .bool _ | .number _ | .string _ =>
    exact readValue_scalar (Tree.readScalar_print (by trivial) closed)
  | .array [] =>
    simp only [Tree.depth, Tree.itemsDepth] at shallow
    rw [Tree.print, Tree.reread]
    exact readValue_array_nil (by omega) rest
  | .array (item :: items) =>
    simp only [Tree.depth, Tree.itemsDepth] at shallow
    obtain ⟨byte, after, begins, visible, some⟩ := item.print_begins
    have inner := @readValue_print item (.array [] :: frames) _
      (by simp only [List.length_cons]; omega)
      (closed_parts (.inl rfl) (Tree.printItems items) rest)
    rw [begins] at inner
    rw [Tree.print, Tree.printItems, intercalate_comma, begins]
    simp only [List.cons_append, List.append_assoc, List.nil_append] at inner ⊢
    rw [readValue_array (by omega) visible some, inner,
      finishValue_printItems items _ [] rest (by omega)]
    rfl
  | .object [] =>
    simp only [Tree.depth, Tree.membersDepth] at shallow
    rw [Tree.print, Tree.reread]
    exact readValue_object_nil (by omega) rest
  | .object ((name, value) :: members) =>
    simp only [Tree.depth, Tree.membersDepth] at shallow
    have inner := @readValue_print value (.object [] name :: frames) _
      (by simp only [List.length_cons]; omega)
      (closed_parts (.inr rfl) (Tree.printMembers members) rest)
    rw [Tree.print, Tree.printMembers, intercalate_comma]
    simp only [List.cons_append, List.append_assoc, List.nil_append] at inner ⊢
    rw [readValue_object (by omega), inner,
      finishValue_printMembers members _ name [] rest (by omega)]
    rfl

theorem finishValue_printItems (items : List Tree) (tree : Tree) (earlier : List Tree)
    {outer : List Frame} (rest : Bytes)
    (shallow : Tree.itemsDepth items + outer.length + 1 ≤ depthLimit) :
    finishValue tree (.array earlier :: outer)
        ((Tree.printItems items).flatMap (comma :: ·) ++ closeArray :: rest) =
      finishValue (.array (earlier.reverse ++ tree :: Tree.rereadItems items)) outer rest := by
  match items with
  | [] =>
    rw [Tree.printItems, List.flatMap_nil, List.nil_append, finishValue_closeArray,
      List.reverse_cons]
    rfl
  | item :: items =>
    simp only [Tree.itemsDepth] at shallow
    rw [Tree.printItems, List.flatMap_cons, List.cons_append, List.cons_append, List.append_assoc,
      finishValue_item, readValue_print item (by simp only [List.length_cons]; omega)
        (closed_parts (.inl rfl) (Tree.printItems items) rest),
      finishValue_printItems items _ _ rest (by omega),
      List.reverse_cons, List.append_assoc]
    rfl

theorem finishValue_printMembers (members : List (String × Tree)) (tree : Tree) (name : String)
    (earlier : List (String × Tree)) {outer : List Frame} (rest : Bytes)
    (shallow : Tree.membersDepth members + outer.length + 1 ≤ depthLimit) :
    finishValue tree (.object earlier name :: outer)
        ((Tree.printMembers members).flatMap (comma :: ·) ++ closeObject :: rest) =
      finishValue (.object (earlier.reverse ++ (name, tree) :: Tree.rereadMembers members))
        outer rest := by
  match members with
  | [] =>
    rw [Tree.printMembers, List.flatMap_nil, List.nil_append, finishValue_closeObject,
      List.reverse_cons]
    rfl
  | (next, value) :: members =>
    simp only [Tree.membersDepth] at shallow
    rw [Tree.printMembers, List.flatMap_cons, List.cons_append, List.cons_append,
      List.append_assoc, List.append_assoc, List.cons_append, finishValue_member,
      readValue_print value (by simp only [List.length_cons]; omega)
        (closed_parts (.inr rfl) (Tree.printMembers members) rest),
      finishValue_printMembers members _ _ _ rest (by omega),
      List.reverse_cons, List.append_assoc]
    rfl

end

/-- A tree that nests no deeper than readers allow is read back. -/
theorem parse_print {tree : Tree} (shallow : tree.depth ≤ depthLimit) :
    parse tree.print = .ok tree.reread := by
  have read := @readValue_print tree [] [] shallow Number.closed_nil
  rw [List.append_nil, finishValue_nil] at read
  rw [parse, read]
  rfl

end MetadataClient.Json
