import MetadataClient.Proofs.Document.RoundTrip

/-! Written forms are unique. Two trees whose numbers are all read as they were written have the
same bytes only if they are the same, however deep they nest. A reader cannot tell this,
since it refuses what nests too deep: the bytes are compared token by token. -/
namespace MetadataClient.Json

/-- Where something closed follows, the bytes of this value are those of no other valid one. -/
def Unique {α : Type} (write : α → Bytes) (Valid : α → Prop) (value : α) : Prop :=
  ∀ {other : α} {rest rest' : Bytes}, Valid other → Closed rest → Closed rest' →
    write value ++ rest = write other ++ rest' → value = other ∧ rest = rest'

def continued {α : Type} (write : α → Bytes) (values : List α) : Bytes :=
  (values.map write).flatMap (comma :: ·)

section Separated

variable {α : Type} {write : α → Bytes} {Valid : α → Prop} {mark : UInt8} {rest rest' : Bytes}

theorem continued_unique (closes : mark = closeArray ∨ mark = closeObject) {values others : List α}
    (unique : ∀ value ∈ values, Unique write Valid value) (valid : ∀ other ∈ others, Valid other)
    (same : continued write values ++ mark :: rest = continued write others ++ mark :: rest') :
    values = others ∧ rest = rest' := by
  have apart : mark ≠ comma := by
    rcases closes with rfl | rfl
    · decide
    · decide
  induction values generalizing others with
  | nil =>
    cases others with
    | nil => exact ⟨rfl, (List.cons.inj same).2⟩
    | cons other others => exact absurd (List.cons.inj same).1 apart
  | cons value values ih =>
    cases others with
    | nil => exact absurd (List.cons.inj same).1.symm apart
    | cons other others =>
      obtain ⟨first, later⟩ := List.forall_mem_cons.mp unique
      obtain ⟨known, all⟩ := List.forall_mem_cons.mp valid
      simp only [continued, List.map_cons, List.flatMap_cons, List.cons_append, List.append_assoc,
        List.cons.injEq, true_and] at same
      obtain ⟨rfl, behind⟩ := first known (closed_parts closes _ rest)
        (closed_parts closes _ rest') same
      obtain ⟨rfl, last⟩ := ih later all behind
      exact ⟨rfl, last⟩

/-- Values between commas, up to the mark that closes them. No value begins with this mark. -/
theorem separated_unique (closes : mark = closeArray ∨ mark = closeObject)
    (begins : ∀ value, ∃ byte after, write value = byte :: after ∧ byte ≠ mark)
    {values others : List α} (unique : ∀ value ∈ values, Unique write Valid value)
    (valid : ∀ other ∈ others, Valid other)
    (same : [comma].intercalate (values.map write) ++ mark :: rest =
      [comma].intercalate (others.map write) ++ mark :: rest') :
    values = others ∧ rest = rest' := by
  cases values with
  | nil =>
    cases others with
    | nil => exact ⟨rfl, (List.cons.inj same).2⟩
    | cons other others =>
      obtain ⟨byte, after, written, apart⟩ := begins other
      rw [List.map_cons, intercalate_comma, written] at same
      exact absurd (List.cons.inj same).1.symm apart
  | cons value values =>
    cases others with
    | nil =>
      obtain ⟨byte, after, written, apart⟩ := begins value
      rw [List.map_cons, intercalate_comma, written] at same
      exact absurd (List.cons.inj same).1 apart
    | cons other others =>
      -- With a comma in front of both, these are continuations.
      rw [List.map_cons, List.map_cons, intercalate_comma, intercalate_comma] at same
      exact continued_unique closes unique valid (congrArg (comma :: ·) same)

end Separated

namespace Tree

theorem printItems_eq_map (items : List Tree) : printItems items = items.map print := by
  induction items with
  | nil => rfl
  | cons item items ih => rw [printItems, ih, List.map_cons]

def printMember (member : String × Tree) : Bytes :=
  printString member.1 ++ colon :: member.2.print

theorem printMembers_eq_map (members : List (String × Tree)) :
    printMembers members = members.map printMember := by
  induction members with
  | nil => rfl
  | cons member members ih => rw [printMembers, ih, List.map_cons, printMember]

theorem isScalar_of_print {first second : Tree} {rest rest' : Bytes} (scalar : first.IsScalar)
    (closed : Closed rest) (same : first.print ++ rest = second.print ++ rest') :
    second.IsScalar := by
  obtain ⟨byte, after, begins, -, noArray, noObject, -⟩ :=
    begins_of_readScalar (readScalar_print scalar closed)
  rw [begins] at same
  match second with
  | .array items =>
    rw [print] at same
    exact noArray (List.cons.inj same).1
  | .object members =>
    rw [print] at same
    exact noObject (List.cons.inj same).1
  | .null | .bool _ | .number _ | .string _ => trivial

theorem scalar_unique {tree : Tree} (exact : tree.Exact) (scalar : tree.IsScalar) :
    Unique print Exact tree := by
  intro other rest rest' known closed closed' same
  have read := readScalar_print scalar closed
  rw [same, readScalar_print (isScalar_of_print scalar closed same) closed',
    reread_of_exact exact, reread_of_exact known] at read
  obtain ⟨rfl, rfl⟩ := Prod.mk.inj (Except.ok.inj read)
  exact ⟨rfl, rfl⟩

theorem member_unique {member : String × Tree} (unique : Unique print Exact member.2) :
    Unique printMember (fun member => member.2.Exact) member := by
  intro other rest rest' known closed closed' same
  rw [printMember, printMember, List.append_assoc, List.append_assoc, List.cons_append,
    List.cons_append] at same
  have read := readKey_print member.1 (member.2.print ++ rest)
  rw [same, readKey_print] at read
  obtain ⟨name, behind⟩ := Prod.mk.inj (Except.ok.inj read)
  obtain ⟨value, last⟩ := unique known closed closed' behind.symm
  exact ⟨Prod.ext name.symm value, last⟩

theorem unique {tree : Tree} (exact : tree.Exact) : Unique print Exact tree := by
  induction exact with
  | null => exact scalar_unique .null trivial
  | bool value => exact scalar_unique (.bool value) trivial
  | integer value least most => exact scalar_unique (.integer value least most) trivial
  | real same => exact scalar_unique (.real same) trivial
  | string text => exact scalar_unique (.string text) trivial
  | @array items exact ih =>
    intro other rest rest' known closed closed' same
    cases known with
    | @array others known =>
      simp only [print, printItems_eq_map, List.cons_append, List.append_assoc,
        List.nil_append, List.cons.injEq, true_and] at same
      obtain ⟨rfl, last⟩ := separated_unique (.inl rfl) (fun item => by
        obtain ⟨byte, after, begins, -, some⟩ := item.print_begins
        exact ⟨byte, after, begins, some⟩) ih known same
      exact ⟨rfl, last⟩
    | object =>
      rw [print, print] at same
      cases same
    | null | bool | integer | real | string =>
      exact (isScalar_of_print (by trivial) closed' same.symm).elim
  | @object members exact ih =>
    intro other rest rest' known closed closed' same
    cases known with
    | @object others known =>
      simp only [print, printMembers_eq_map, List.cons_append, List.append_assoc,
        List.nil_append, List.cons.injEq, true_and] at same
      obtain ⟨rfl, last⟩ := separated_unique (.inr rfl)
        (fun member => ⟨quoteByte, _, rfl, by decide⟩)
        (fun member inside => member_unique (ih member inside)) known same
      exact ⟨rfl, last⟩
    | array =>
      rw [print, print] at same
      cases same
    | null | bool | integer | real | string =>
      exact (isScalar_of_print (by trivial) closed' same.symm).elim

theorem print_injective {first second : Tree} (exact : first.Exact) (known : second.Exact)
    (same : first.print = second.print) : first = second :=
  (unique exact known Number.closed_nil Number.closed_nil
    (congrArg (· ++ []) same)).1

end Tree
end MetadataClient.Json
