import MetadataClient.Proofs.Json.Spelling
import MetadataClient.Proofs.Semantics.Members

/-! Semantics in objects of any layout. It does not matter in which order the members stand, how
they are spelled and what else stands among them: all that counts is what they tell of
each axis. -/
namespace MetadataClient.Semantics

open Json (Padded Member ObjectText ValueText Blank blank_nil Closed Fault)

/-- What a member tells about semantics: a name that is meant for a value on an axis, or
nothing. -/
inductive Tells (member : Member) : Option (Axis × String) → Prop
  | setting {axis : Axis} {value : String} (named : member.name.Holds axis.name)
      (valued : member.value.Holds value) : Tells member (some (axis, value))
  | other {name : String} (named : member.name.Holds name)
      (foreign : ∀ axis : Axis, name ≠ axis.name) (valued : ValueText member.value.inner) :
      Tells member none

/-! ## Members that are read -/

theorem readMembers_eq (found : List Setting) (input : Bytes) :
    readMembers found input =
      match Json.skipBlanks input with
      | [] => .error .endOfText
      | byte :: named =>
        if byte ≠ Json.quoteByte then .error .malformed
        else match Json.readString named with
          | .error fault => .error fault
          | .ok (name, rest) =>
            match Axis.ofName? name with
            | some axis =>
              if found.any (·.axis == axis) then .error .mismatch
              else match Json.readMark Json.colon rest with
                | .error fault => .error fault
                | .ok rest =>
                  match readSetting axis rest with
                  | .error fault => .error fault
                  | .ok (setting, rest) => readMembers.behind (found ++ [setting]) rest
            | none =>
              match Json.readMark Json.colon rest with
              | .error fault => .error fault
              | .ok rest =>
                match Json.skipValue [] rest with
                | .error fault => .error fault
                | .ok rest => readMembers.behind found rest := by
  rw [readMembers]
  split
  next start => rw [start]
  next start =>
    rw [start]
    dsimp only
    congr 1
    split
    next text => rw [text]
    next name rest text =>
      rw [text]
      dsimp only
      cases Axis.ofName? name with
      | some axis =>
        dsimp only
        congr 1
        split
        next separated => rw [separated]
        next separated =>
          rw [separated]
          dsimp only
          split
          next value => rw [value]
          next value => rw [value]
      | none =>
        dsimp only
        split
        next separated => rw [separated]
        next separated =>
          rw [separated]
          dsimp only
          split
          next value => rw [value]
          next value => rw [value]

theorem behind_eq (found : List Setting) (input : Bytes) :
    readMembers.behind found input =
      match Json.skipBlanks input with
      | [] => .error .endOfText
      | byte :: rest =>
        if byte = Json.comma then readMembers found rest
        else if byte = Json.closeObject then (conclude found).map (·, rest)
        else .error .malformed := by
  rw [readMembers.behind]
  split
  next start => rw [start]
  next start =>
    rw [start]
    dsimp only
    congr 2
    rw [conclude]
    cases ofSettings? found <;> rfl

section Behind

variable (found : List Setting) {blank : Bytes} (white : Blank blank) (rest : Bytes)
include white

theorem behind_comma : readMembers.behind found (blank ++ Json.comma :: rest) =
    readMembers found rest := by
  rw [behind_eq, Json.skipBlanks_append white, Json.skipBlanks_cons rfl]
  rfl

theorem behind_closeObject : readMembers.behind found (blank ++ Json.closeObject :: rest) =
    (conclude found).map (·, rest) := by
  rw [behind_eq, Json.skipBlanks_append white, Json.skipBlanks_cons rfl]
  rfl

end Behind

theorem readSetting_text {value : Padded} {text : String} (holds : value.Holds text) (axis : Axis)
    (rest : Bytes) : readSetting axis (value.text ++ rest) =
      match Setting.ofName? axis text with
      | some setting => .ok (setting, value.after ++ rest)
      | none => .error .mismatch := by
  obtain ⟨content, spells, inner⟩ := holds
  have opened : Json.skipBlanks (value.text ++ rest) =
      Json.quoteByte :: (content ++ Json.quoteByte :: (value.after ++ rest)) := by
    rw [value.skipBlanks_text inner rfl, List.append_assoc, List.singleton_append]
  rw [readSetting, Json.readChoice, opened]
  dsimp only
  rw [if_pos rfl, Json.readKnown, Json.readString_spells spells]
  dsimp only
  cases Setting.ofName? axis text <;> rfl

theorem readMark_append {blank : Bytes} (white : Blank blank) {mark : UInt8}
    (visible : Json.isBlank mark = false) (rest : Bytes) :
    Json.readMark mark (blank ++ mark :: rest) = .ok rest := by
  rw [Json.readMark, Json.skipBlanks_append white, Json.skipBlanks_cons visible]
  dsimp only
  rw [if_pos rfl]

theorem Tells.named {member : Member} {entry : Option (Axis × String)}
    (tells : Tells member entry) : ∃ content, member.name.inner = Json.inQuotes content := by
  cases tells with
  | setting named | other named =>
    obtain ⟨content, -, inner⟩ := named
    exact ⟨content, inner⟩

/-- One member is read. -/
theorem readMembers_text {member : Member} {entry : Option (Axis × String)}
    (tells : Tells member entry) (found : List Setting) {rest : Bytes} (closed : Closed rest) :
    readMembers found (member.text ++ rest) =
      (accept found entry).bind (readMembers.behind · (member.value.after ++ rest)) := by
  have colon : Json.readMark Json.colon (member.name.after ++
      Json.colon :: (member.value.text ++ rest)) = .ok (member.value.text ++ rest) :=
    readMark_append member.name.blank_after rfl _
  cases tells with
  | @setting axis value named valued =>
    obtain ⟨content, spells, inner⟩ := named
    rw [readMembers_eq, member.skipBlanks_text inner]
    dsimp only
    rw [if_neg (not_not.mpr rfl), Json.readString_spells spells]
    dsimp only
    rw [Axis.ofName?_name]
    dsimp only
    rw [colon]
    dsimp only
    rw [readSetting_text valued, accept]
    split
    next => rfl
    next => cases Setting.ofName? axis value <;> rfl
  | @other name named foreign valued =>
    obtain ⟨content, spells, inner⟩ := named
    rw [readMembers_eq, member.skipBlanks_text inner]
    dsimp only
    rw [if_neg (not_not.mpr rfl), Json.readString_spells spells]
    dsimp only
    rw [Axis.ofName?_eq_none_iff.mpr foreign]
    dsimp only
    rw [colon]
    dsimp only
    rw [member.value.skipValue_text valued.skips [] closed, Json.skipRest_nil]
    rfl

theorem behind_members {members : List Member} {told : List (Option (Axis × String))}
    (tells : List.Forall₂ Tells members told) (found : List Setting) {blank : Bytes}
    (white : Blank blank) (rest : Bytes) :
    readMembers.behind found
        (blank ++ ((members.map Member.text).flatMap (Json.comma :: ·) ++
          Json.closeObject :: rest)) =
      (told.foldlM accept found).bind fun found => (conclude found).map (·, rest) := by
  induction tells generalizing found blank with
  | nil => exact behind_closeObject found white rest
  | @cons member entry members told first later ih =>
    rw [List.map_cons, List.flatMap_cons, List.cons_append, List.cons_append, List.append_assoc,
      behind_comma found white, readMembers_text first _ (Json.closed_parts (.inr rfl) _ rest),
      List.foldlM_cons]
    cases accept found entry with
    | error fault => rfl
    | ok found => exact ih found member.value.blank_after

theorem readMembers_members {first : Member} {later : List Member}
    {told : List (Option (Axis × String))} (tells : List.Forall₂ Tells (first :: later) told)
    (found : List Setting) (rest : Bytes) :
    readMembers found (first.text ++
        ((later.map Member.text).flatMap (Json.comma :: ·) ++ Json.closeObject :: rest)) =
      (told.foldlM accept found).bind fun found => (conclude found).map (·, rest) := by
  cases tells with
  | @cons _ entry _ told one others =>
    rw [readMembers_text one _ (Json.closed_parts (.inr rfl) _ rest), List.foldlM_cons]
    cases accept found entry with
    | error fault => rfl
    | ok found => exact behind_members others found first.value.blank_after rest

/-- A whole text is read by its members. -/
theorem parseJson_eq {members : List Member} {text : Bytes} {told : List (Option (Axis × String))}
    (holds : ObjectText members text) (tells : List.Forall₂ Tells members told) :
    parseJson text = (told.foldlM accept []).bind conclude := by
  obtain @⟨before, inside, after, blank_before, blank_after, listed⟩ := holds
  have closing : Json.expectEnd after = .ok () := by
    have nothing := Json.skipBlanks_append blank_after []
    rw [List.append_nil, Json.skipBlanks] at nothing
    rw [Json.expectEnd, nothing]
  rw [parseJson, Json.skipBlanks_append blank_before, List.cons_append, Json.skipBlanks_cons rfl]
  dsimp only
  rw [if_neg (by decide), if_pos rfl]
  rcases listed.nil_or_cons with ⟨rfl, white⟩ | ⟨first, later, rfl, rfl⟩
  · cases tells
    rw [Json.skipBlanks_append white, Json.skipBlanks_cons rfl]
    rfl
  · have read := readMembers_members tells [] after
    obtain ⟨content, inner⟩ : ∃ content, first.name.inner = Json.inQuotes content := by
      cases tells with
      | cons one others => exact one.named
    rw [List.append_assoc, first.skipBlanks_text inner]
    dsimp only
    rw [if_neg (by decide), read]
    cases told.foldlM accept [] with
    | error fault => rfl
    | ok found =>
      simp only [bind, Except.bind]
      cases conclude found with
      | error fault => rfl
      | ok semantics => simp only [Except.map, closing, pure, Except.pure]

/-! ## What is read -/

section Object

variable {members : List Member} {text : Bytes} {told : List (Option (Axis × String))}
  (holds : ObjectText members text) (tells : List.Forall₂ Tells members told)
include holds tells

theorem parseJson_eq_ok_iff {semantics : Semantics} :
    parseJson text = .ok semantics ↔ Chosen told semantics := by
  rw [parseJson_eq holds tells, chosen_iff]
  constructor
  · intro read
    cases collected : told.foldlM accept [] with
    | error fault =>
      rw [collected] at read
      cases read
    | ok found =>
      rw [collected] at read
      obtain ⟨same, distinct⟩ := foldlM_accept_nil_eq_ok_iff.mp collected
      exact ⟨found, same, distinct, (conclude_eq_ok_iff distinct).mp read⟩
  · rintro ⟨settings, same, distinct, single⟩
    rw [foldlM_accept_nil_eq_ok_iff.mpr ⟨same, distinct⟩]
    exact (conclude_eq_ok_iff distinct).mpr single

theorem parseJson_eq_error_iff : parseJson text = .error .mismatch ↔ Flawed told := by
  rw [flawed_iff]
  constructor
  · intro refused semantics chosen
    rw [(parseJson_eq_ok_iff holds tells).mpr chosen] at refused
    cases refused
  · intro never
    cases read : parseJson text with
    | ok semantics => exact absurd ((parseJson_eq_ok_iff holds tells).mp read) (never semantics)
    | error fault =>
      rw [parseJson_eq holds tells] at read
      cases collected : told.foldlM accept [] with
      | error other =>
        rw [collected] at read
        cases read
        rw [fault_of_foldlM_accept collected]
      | ok found =>
        rw [collected] at read
        change conclude found = _ at read
        rw [conclude] at read
        split at read
        next => cases read
        next => cases read; rfl

end Object

/-! ## What is written -/

def written (setting : Setting) : Member :=
  ⟨.bare (Json.printString setting.axis.name), .bare (Json.printString setting.name)⟩

theorem tells_written (settings : List Setting) :
    List.Forall₂ Tells (settings.map written) (settings.map fun setting => some setting.entry) := by
  rw [List.forall₂_map_left_iff, List.forall₂_map_right_iff, List.forall₂_same]
  exact fun setting _ => .setting (Padded.holds_bare _) (Padded.holds_bare _)

theorem objectText_print (semantics : Semantics) :
    ObjectText (semantics.settings.map written) (print semantics) := by
  have parts : (semantics.settings.map written).map Member.text = semantics.settings.map
      fun setting => Json.printString setting.axis.name ++
        Json.colon :: Json.printName setting.name := by
    rw [List.map_map]
    refine List.map_congr_left fun setting _ => ?_
    rw [Function.comp_apply, Member.text, written, Padded.text_bare, Padded.text_bare]
    rfl
  have listed := Json.Listed.some
    (show (semantics.settings.map written).map Member.text ≠ [] from List.cons_ne_nil _ _)
  have text : print semantics = [] ++ (Json.openObject ::
      [Json.comma].intercalate ((semantics.settings.map written).map Member.text) ++
        Json.closeObject :: []) := by
    rw [parts]
    rfl
  rw [text]
  exact .around blank_nil blank_nil listed

theorem parseJson_print (semantics : Semantics) : parseJson (print semantics) = .ok semantics := by
  have chosen : Chosen (semantics.settings.map fun setting => some setting.entry) semantics := by
    intro axis
    cases axis <;> rfl
  exact (parseJson_eq_ok_iff (objectText_print semantics) (tells_written _)).mpr chosen

/-- An object is read as the semantics that its members choose and refused if they are flawed,
however it is laid out and whatever other members it has. What is written is read back. -/
theorem parseJson_object {members : List Member} {text : Bytes}
    {told : List (Option (Axis × String))} (holds : ObjectText members text)
    (tells : List.Forall₂ Tells members told) :
    (∀ semantics, parseJson text = .ok semantics ↔ Chosen told semantics) ∧
      (parseJson text = .error .mismatch ↔ Flawed told) ∧
      ∀ semantics, parseJson (print semantics) = .ok semantics :=
  ⟨fun _ => parseJson_eq_ok_iff holds tells, parseJson_eq_error_iff holds tells, parseJson_print⟩

def oddItems : List Padded :=
  [.bare (Bytes.ofString "[]"), ⟨[0x20], Bytes.ofString "-1.5e+999", [], by decide, blank_nil⟩]

def oddMember : Member where
  name := ⟨[0x20], Json.printString "odd", [0x09], by decide, by decide⟩
  value := ⟨[], Json.openArray :: [Json.comma].intercalate (oddItems.map Padded.text) ++
    [Json.closeArray], [0x0a], blank_nil, by decide⟩

theorem tells_odd : Tells oddMember none := by
  have number : ValueText (Bytes.ofString "-1.5e+999") :=
    .number ⟨[Json.minus], Bytes.ofString "1", Bytes.ofString ".5", Bytes.ofString "e+999",
      .inr rfl, by decide, by decide, .inr ⟨Bytes.ofString "5", by decide, rfl⟩,
      .inr ⟨_, [Json.plus], Bytes.ofString "999", .inl rfl, .inr (.inl rfl), by decide, rfl⟩⟩
  have nothing : ValueText (Bytes.ofString "[]") := @ValueText.array [] [] (.none blank_nil) nofun
  have items : ∀ item ∈ oddItems, ValueText item.inner :=
    List.forall_mem_cons.mpr ⟨nothing, List.forall_mem_singleton.mpr number⟩
  exact .other ⟨_, Json.spells_printed "odd", rfl⟩ (fun axis => by cases axis <;> decide)
    (.array (Json.Listed.some (List.cons_ne_nil _ _)) items)

def oddText : Bytes :=
  Bytes.ofString ("\x7b \"odd\"\t:[[], -1.5e+999]\n," ++
    "\"security\":\"strict\",\"safety\":\"none\",\"persistency\":\"eventual\"," ++
    "\"consistency\":\"immediate\",\"concurrency\":\"overlapping\"," ++
    "\"atomicity\":\"operation\"\x7d ")

theorem parseJson_object_odd : parseJson oddText = .ok Template.posix.semantics := by
  let settings := Template.posix.semantics.settings.reverse
  have parts : oddText = [] ++ (Json.openObject ::
      [Json.comma].intercalate ((oddMember :: settings.map written).map Member.text) ++
        Json.closeObject :: [0x20]) := by
    decide +kernel
  have holds : ObjectText (oddMember :: settings.map written) oddText := by
    rw [parts]
    exact .around blank_nil (by decide) (Json.Listed.some (List.cons_ne_nil _ _))
  have chosen : Chosen (none :: settings.map fun setting => some setting.entry)
      Template.posix.semantics := by
    intro axis
    cases axis <;> rfl
  exact ((parseJson_object holds (.cons tells_odd (tells_written settings))).1 _).mpr chosen

end MetadataClient.Semantics
