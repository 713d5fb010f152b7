import MetadataClient.Semantics.Builder
import MetadataClient.Proofs.Semantics.Text

/-! Runs on builders. Builders are edited in any order, and new ones are derived from what others
would build. On each axis a builder shows its own last edit that was not refused, and what it
started with if there is none. Semantics that are written as text are built in such a run, with
one edit for each token that has an equals sign. -/
namespace MetadataClient

namespace Text

theorem cut?_eq_none_iff {separator : Char} {text : List Char} :
    cut? separator text = none ↔ separator ∉ text := by
  constructor
  · intro none inside
    obtain ⟨before, after, rfl, free⟩ := List.eq_append_cons_of_mem inside
    rw [cut?_append free] at none
    cases none
  · intro free
    rw [Option.eq_none_iff_forall_ne_some]
    rintro ⟨before, after⟩ found
    obtain ⟨-, rfl⟩ := cut?_eq_some found
    exact free (List.mem_append_right before List.mem_cons_self)

end Text

namespace Semantics

/-- A change that a builder is asked for, in place or in a chain of calls: to take a setting, or
the value on an axis with this tag or of this name. -/
inductive Edit
  | set (setting : Setting)
  | setTag (axis : Axis) (tag : Int)
  | setNamed (axis value : String)

namespace Edit

/-- The setting that an edit stands for. -/
inductive Chooses : Edit → Setting → Prop
  | set (setting : Setting) : Chooses (.set setting) setting
  | tag (setting : Setting) : Chooses (.setTag setting.axis setting.tag) setting
  | name (setting : Setting) : Chooses (.setNamed setting.axis.name setting.name) setting

/-- Why an edit stands for no setting. If the axis is unknown, the value does not matter. -/
inductive Refused : Edit → EditError → Prop
  | tag {axis : Axis} {tag : Int} :
      (∀ setting : Setting, setting.axis = axis → tag ≠ setting.tag) →
      Refused (.setTag axis tag) (.invalidTag axis tag)
  | axis {name : String} (value : String) : (∀ axis : Axis, name ≠ axis.name) →
      Refused (.setNamed name value) (.unknownAxis name)
  | value {axis : Axis} {value : String} :
      (∀ setting : Setting, setting.axis = axis → value ≠ setting.name) →
      Refused (.setNamed axis.name value) (.unknownValue axis value)

theorem chooses_or_refused (edit : Edit) :
    (∃ setting, edit.Chooses setting) ∨ ∃ error, edit.Refused error := by
  cases edit with
  | set setting => exact .inl ⟨setting, .set setting⟩
  | setTag axis tag =>
    cases found : Setting.ofTag? axis tag with
    | none => exact .inr ⟨_, .tag (Setting.ofTag?_eq_none_iff.mp found)⟩
    | some setting =>
      obtain ⟨rfl, rfl⟩ := Setting.ofTag?_eq_some_iff.mp found
      exact .inl ⟨setting, .tag setting⟩
  | setNamed name value =>
    cases known : Axis.ofName? name with
    | none => exact .inr ⟨_, .axis value (Axis.ofName?_eq_none_iff.mp known)⟩
    | some axis =>
      obtain rfl := Axis.ofName?_eq_some_iff.mp known
      cases found : Setting.ofName? axis value with
      | none => exact .inr ⟨_, .value (Setting.ofName?_eq_none_iff.mp found)⟩
      | some setting =>
        obtain ⟨rfl, rfl⟩ := Setting.ofName?_eq_some_iff.mp found
        exact .inl ⟨setting, .name setting⟩

/-- The setting that an edit stands for, looked up. -/
def setting? : Edit → Option Setting
  | .set setting => some setting
  | .setTag axis tag => Setting.ofTag? axis tag
  | .setNamed axis value => (Axis.ofName? axis).bind (Setting.ofName? · value)

theorem Chooses.setting?_eq {edit : Edit} {setting : Setting} (chooses : edit.Chooses setting) :
    edit.setting? = some setting := by
  cases chooses with
  | set => rfl
  | tag => rw [setting?, Setting.ofTag?_tag]
  | name => rw [setting?, Axis.ofName?_name, Option.bind_some, Setting.ofName?_name]

theorem Refused.setting?_eq {edit : Edit} {error : EditError} (refused : edit.Refused error) :
    edit.setting? = none := by
  cases refused with
  | tag none => rw [setting?, Setting.ofTag?_eq_none_iff.mpr none]
  | axis value none => rw [setting?, Axis.ofName?_eq_none_iff.mpr none, Option.bind_none]
  | value none =>
    rw [setting?, Axis.ofName?_name, Option.bind_some, Setting.ofName?_eq_none_iff.mpr none]

theorem setting?_eq_some_iff {edit : Edit} {setting : Setting} :
    edit.setting? = some setting ↔ edit.Chooses setting := by
  refine ⟨?_, Chooses.setting?_eq⟩
  intro found
  obtain ⟨chosen, chooses⟩ | ⟨error, refused⟩ := edit.chooses_or_refused
  · rw [chooses.setting?_eq] at found
    exact Option.some.inj found ▸ chooses
  · rw [refused.setting?_eq] at found
    cases found

end Edit

namespace Builder

def edited (builder : Builder) : Edit → Except EditError Builder
  | .set setting => .ok (builder.set setting)
  | .setTag axis tag => builder.setTag axis tag
  | .setNamed axis value => builder.setNamed axis value

theorem edited_of_chooses (builder : Builder) {edit : Edit} {setting : Setting}
    (chooses : edit.Chooses setting) : builder.edited edit = .ok (builder.set setting) := by
  cases chooses with
  | set => rfl
  | tag => simp only [edited, setTag, Setting.ofTag?_tag]
  | name => simp only [edited, setNamed, Axis.ofName?_name, Setting.ofName?_name]

theorem edited_of_refused (builder : Builder) {edit : Edit} {error : EditError}
    (refused : edit.Refused error) : builder.edited edit = .error error := by
  cases refused with
  | tag none => simp only [edited, setTag, Setting.ofTag?_eq_none_iff.mpr none]
  | axis value none => simp only [edited, setNamed, Axis.ofName?_eq_none_iff.mpr none]
  | value none =>
    simp only [edited, setNamed, Axis.ofName?_name, Setting.ofName?_eq_none_iff.mpr none]

/-- One edit after the other. One that is refused leaves the builder as it is. -/
def after (builder : Builder) (edits : List Edit) : Builder :=
  edits.foldl (fun builder edit => (builder.edited edit).toOption.getD builder) builder

/-- What is left of the edits are the settings that they stand for. -/
theorem current_after (builder : Builder) (edits : List Edit) :
    (builder.after edits).current =
      (edits.filterMap Edit.setting?).foldl Semantics.set builder.current := by
  induction edits generalizing builder with
  | nil => rfl
  | cons edit edits ih =>
    rw [after, List.foldl_cons, ← after, ih, List.filterMap_cons]
    obtain ⟨setting, chooses⟩ | ⟨error, refused⟩ := edit.chooses_or_refused
    · rw [builder.edited_of_chooses chooses, chooses.setting?_eq]
      rfl
    · rw [builder.edited_of_refused refused, refused.setting?_eq]
      rfl

end Builder

/-! ## Several builders -/

/-- A step of a run on builders that are known by their numbers: one of them is asked for a
change, or a new one starts from what it would build. -/
inductive Step
  | ask (number : Nat) (edit : Edit)
  | derive (number : Nat)

namespace Step

def number : Step → Nat
  | .ask number _ => number
  | .derive number => number

/-- The builders after a step, and why it was refused if it was. A new builder takes the next
number. -/
def perform (builders : List Builder) : Step → List Builder × Option EditError
  | .ask number edit =>
    match builders[number]? with
    | none => (builders, none)
    | some builder =>
      match builder.edited edit with
      | .ok next => (builders.set number next, none)
      | .error error => (builders, some error)
  | .derive number => (builders ++ (builders[number]?.map (·.build.toBuilder)).toList, none)

def editOf? (wanted : Nat) : Step → Option Edit
  | .ask number edit => if number = wanted then some edit else none
  | .derive _ => none

end Step

def perform (builders : List Builder) (steps : List Step) : List Builder :=
  steps.foldl (fun builders step => (step.perform builders).1) builders

theorem perform_append (builders : List Builder) (before after : List Step) :
    perform builders (before ++ after) = perform (perform builders before) after :=
  List.foldl_append

section Step

variable {builders : List Builder} {number : Nat} {builder : Builder}
  (known : builders[number]? = some builder)
include known

theorem perform_of_chooses {edit : Edit} {setting : Setting} (chooses : edit.Chooses setting) :
    (Step.ask number edit).perform builders =
      (builders.set number (builder.set setting), none) := by
  simp only [Step.perform, known, builder.edited_of_chooses chooses]

theorem perform_of_refused {edit : Edit} {error : EditError} (refused : edit.Refused error) :
    (Step.ask number edit).perform builders = (builders, some error) := by
  simp only [Step.perform, known, builder.edited_of_refused refused]

theorem perform_derive :
    ((Step.derive number).perform builders).1 = builders ++ [builder.build.toBuilder] := by
  simp only [Step.perform, known, Option.map_some, Option.toList_some]

/-- A step changes a builder only by an edit of its own. -/
theorem getElem?_step (step : Step) :
    (step.perform builders).1[number]? =
      some (builder.after (step.editOf? number).toList) := by
  have inside : number < builders.length := (List.getElem?_eq_some_iff.mp known).1
  cases step with
  | derive other =>
    rw [Step.perform, List.getElem?_append_left inside, known]
    rfl
  | ask other edit =>
    by_cases here : other = number
    · subst here
      rw [Step.editOf?, if_pos rfl, Step.perform, known]
      dsimp only
      cases result : builder.edited edit with
      | ok next =>
        dsimp only
        rw [List.getElem?_set_self inside, Option.toList_some, Builder.after, List.foldl_cons,
          result]
        rfl
      | error error =>
        dsimp only
        rw [known, Option.toList_some, Builder.after, List.foldl_cons, result]
        rfl
    · rw [Step.editOf?, if_neg here, Step.perform]
      split
      next => exact known
      next =>
        split
        next => exact (List.getElem?_set_ne here).trans known
        next => exact known

theorem getElem?_perform (steps : List Step) :
    (perform builders steps)[number]? =
      some (builder.after (steps.filterMap (Step.editOf? number))) := by
  induction steps generalizing builders builder with
  | nil => exact known
  | cons step steps ih =>
    rw [perform, List.foldl_cons, ← perform, ih (getElem?_step known step), List.filterMap_cons]
    cases step.editOf? number <;> rfl

end Step

/-! ## What decides an axis -/

/-- No step stands for a value on this axis of this builder. -/
def Unchosen (number : Nat) (axis : Axis) (steps : List Step) : Prop :=
  ∀ edit, .ask number edit ∈ steps → ∀ setting, edit.Chooses setting → setting.axis ≠ axis

/-- The last step that stands for a value on this axis of this builder stands for this one. -/
def ChosenLast (number : Nat) (axis : Axis) (steps : List Step) (setting : Setting) : Prop :=
  setting.axis = axis ∧ ∃ before edit after, steps = before ++ .ask number edit :: after ∧
    edit.Chooses setting ∧ Unchosen number axis after

def Step.choice? (number : Nat) (axis : Axis) (step : Step) : Option Setting :=
  ((step.editOf? number).bind Edit.setting?).filter (·.axis = axis)

theorem Step.editOf?_eq_some_iff {number : Nat} {step : Step} {edit : Edit} :
    step.editOf? number = some edit ↔ step = .ask number edit := by
  cases step with
  | derive other => exact ⟨nofun, nofun⟩
  | ask other edit' =>
    simp only [editOf?, Option.ite_none_right_eq_some, Option.some.injEq, ask.injEq]

theorem Step.choice?_eq_some_iff {number : Nat} {axis : Axis} {step : Step} {setting : Setting} :
    step.choice? number axis = some setting ↔
      ∃ edit, step = .ask number edit ∧ edit.Chooses setting ∧ setting.axis = axis := by
  simp only [choice?, Option.filter_eq_some_iff, Option.bind_eq_some_iff, editOf?_eq_some_iff,
    Edit.setting?_eq_some_iff, decide_eq_true_eq]
  constructor
  · rintro ⟨⟨edit, asked, chooses⟩, same⟩
    exact ⟨edit, asked, chooses, same⟩
  · rintro ⟨edit, asked, chooses, same⟩
    exact ⟨⟨edit, asked, chooses⟩, same⟩

theorem unchosen_iff {number : Nat} {axis : Axis} {steps : List Step} :
    Unchosen number axis steps ↔ ∀ step ∈ steps, step.choice? number axis = none := by
  simp only [Option.eq_none_iff_forall_ne_some, ne_eq, Step.choice?_eq_some_iff]
  constructor
  · rintro none step member setting ⟨edit, rfl, chooses, same⟩
    exact none edit member setting chooses same
  · intro none edit member setting chooses same
    exact none _ member setting ⟨edit, rfl, chooses, same⟩

theorem chosenLast_iff {number : Nat} {axis : Axis} {steps : List Step} {setting : Setting} :
    ChosenLast number axis steps setting ↔
      (steps.filterMap (Step.choice? number axis)).getLast? = some setting := by
  simp only [getLast?_filterMap_eq_some_iff, Step.choice?_eq_some_iff, ← unchosen_iff]
  constructor
  · rintro ⟨same, before, edit, after, rfl, chooses, none⟩
    exact ⟨before, _, after, rfl, ⟨edit, rfl, chooses, same⟩, none⟩
  · rintro ⟨before, _, after, rfl, ⟨edit, rfl, chooses, same⟩, none⟩
    exact ⟨same, before, edit, after, rfl, chooses, none⟩

/-- On every axis there is what the last step on this builder chose, and what was there at the
start if none did. -/
def Shows (number : Nat) (steps : List Step) (start built : Semantics) : Prop :=
  ∀ axis setting, built.get axis = setting ↔ ChosenLast number axis steps setting ∨
    Unchosen number axis steps ∧ start.get axis = setting

theorem shows_perform {builders : List Builder} {number : Nat} {builder : Builder}
    (known : builders[number]? = some builder) (steps : List Step) :
    ∃ last, (perform builders steps)[number]? = some last ∧
      Shows number steps builder.build last.build := by
  refine ⟨_, getElem?_perform known steps, ?_⟩
  intro axis setting
  rw [Builder.build, Builder.current_after, get_foldl_set, List.filterMap_filterMap,
    List.filter_filterMap]
  change ((steps.filterMap (Step.choice? number axis)).getLast?).getD _ = setting ↔ _
  rw [chosenLast_iff, unchosen_iff, ← List.filterMap_eq_nil_iff, ← List.getLast?_eq_none_iff]
  cases (steps.filterMap (Step.choice? number axis)).getLast? with
  | none => simp [Builder.build]
  | some last => simp

theorem filterMap_editOf? (number : Nat) (steps : List Step) :
    (steps.filter (·.number = number)).filterMap (Step.editOf? number) =
      steps.filterMap (Step.editOf? number) := by
  rw [List.filterMap_filter]
  congr 1
  funext step
  cases step with
  | derive other => exact ite_self _
  | ask other edit =>
    simp only [Step.number, Step.editOf?]
    by_cases same : other = number <;> simp [same]

/-! ## Tokens as edits -/

/-- The parts in front of and behind the first equals sign of each token that has one. -/
inductive Assigns : List String → List (String × String) → Prop
  | nil : Assigns [] []
  | skip {token : String} {tokens : List String} {parts : List (String × String)} :
      '=' ∉ token.toList → Assigns tokens parts → Assigns (token :: tokens) parts
  | take {name : String} (value : String) {tokens : List String}
      {parts : List (String × String)} : '=' ∉ name.toList → Assigns tokens parts →
      Assigns ((name ++ "=" ++ value) :: tokens) ((name, value) :: parts)

theorem exists_assigns (tokens : List String) : ∃ parts, Assigns tokens parts := by
  induction tokens with
  | nil => exact ⟨[], .nil⟩
  | cons token tokens ih =>
    obtain ⟨parts, assigns⟩ := ih
    cases cut : Text.cut? '=' token.toList with
    | none => exact ⟨parts, .skip (Text.cut?_eq_none_iff.mp cut) assigns⟩
    | some found =>
      obtain ⟨name, value⟩ := found
      obtain ⟨free, whole⟩ := Text.cut?_eq_some cut
      have same : token = String.ofList name ++ "=" ++ String.ofList value := by
        apply String.toList_injective
        rw [whole]
        simp
      rw [same]
      exact ⟨_, .take (String.ofList value) (by rwa [String.toList_ofList]) assigns⟩

theorem applyToken_skip (semantics : Semantics) {token : String} (free : '=' ∉ token.toList) :
    applyToken semantics token.toList = semantics := by
  rw [applyToken, settingOfToken?, Text.cut?_eq_none_iff.mpr free]
  rfl

theorem applyToken_take (semantics : Semantics) {name : String} (free : '=' ∉ name.toList)
    (value : String) : applyToken semantics (name ++ "=" ++ value).toList =
      (semantics.toBuilder.after [.setNamed name value]).build := by
  have parts : (name ++ "=" ++ value).toList = name.toList ++ '=' :: value.toList := by simp
  rw [Builder.build, Builder.current_after, parts, applyToken, settingOfToken?,
    Text.cut?_append free]
  simp only [Option.bind_eq_bind, Option.bind_some, String.ofList_toList, List.filterMap_cons,
    List.filterMap_nil, Edit.setting?]
  cases (Axis.ofName? name).bind (Setting.ofName? · value) <;> rfl

/-- Each token changes semantics as an edit changes a builder. -/
theorem Assigns.foldl_applyToken {tokens : List String} {parts : List (String × String)}
    (assigns : Assigns tokens parts) (start : Semantics) :
    (tokens.map String.toList).foldl applyToken start =
      (start.toBuilder.after (parts.map fun part => .setNamed part.1 part.2)).build := by
  induction assigns generalizing start with
  | nil => rfl
  | skip free _ ih => rw [List.map_cons, List.foldl_cons, applyToken_skip start free, ih]
  | take value free _ ih =>
    rw [List.map_cons, List.foldl_cons, applyToken_take start free, ih]
    rfl

/-! ## Whole runs -/

/-- What a run on the builder of a template comes to, and on the builders derived in it. -/
structure Course (template : Template) (steps : List Step) : Prop where
  original : ∃ last, (perform [.ofTemplate template] steps)[0]? = some last ∧
    Shows 0 steps template.semantics last.build ∧
    (perform [.ofTemplate template] (steps.filter (·.number = 0)))[0]? = some last
  derived (before after : List Step) (number : Nat) (origin : Builder) :
    steps = before ++ .derive number :: after →
    (perform [.ofTemplate template] before)[number]? = some origin →
    ∃ last, (perform [.ofTemplate template] steps)[
        (perform [.ofTemplate template] before).length]? = some last ∧
      Shows (perform [.ofTemplate template] before).length after origin.build last.build
  asked (before after : List Step) (number : Nat) (edit : Edit) (builder : Builder) :
    steps = before ++ .ask number edit :: after →
    (perform [.ofTemplate template] before)[number]? = some builder →
    (∃ setting, edit.Chooses setting ∧
      (Step.ask number edit).perform (perform [.ofTemplate template] before) =
        ((perform [.ofTemplate template] before).set number (builder.set setting), none)) ∨
    (∃ error, edit.Refused error ∧
      (Step.ask number edit).perform (perform [.ofTemplate template] before) =
        (perform [.ofTemplate template] before, some error))

theorem course (template : Template) (steps : List Step) : Course template steps := by
  have start : ([.ofTemplate template] : List Builder)[0]? = some (.ofTemplate template) := rfl
  constructor
  · obtain ⟨last, known, shows⟩ := shows_perform start steps
    refine ⟨last, known, shows, ?_⟩
    rw [getElem?_perform start, filterMap_editOf?, ← getElem?_perform start, known]
  · rintro before after number origin rfl known
    have new : (perform [.ofTemplate template] (before ++ [.derive number]))[
        (perform [.ofTemplate template] before).length]? = some origin.build.toBuilder := by
      rw [perform_append, perform, List.foldl_cons, perform_derive known, List.foldl_nil,
        List.getElem?_concat_length]
    have whole : before ++ .derive number :: after = before ++ [.derive number] ++ after := by
      rw [List.append_assoc, List.singleton_append]
    rw [whole, perform_append]
    exact shows_perform new after
  · rintro before after number edit builder rfl known
    obtain ⟨setting, chooses⟩ | ⟨error, refused⟩ := edit.chooses_or_refused
    · exact .inl ⟨setting, chooses, perform_of_chooses known chooses⟩
    · exact .inr ⟨error, refused, perform_of_refused known refused⟩

/-- Semantics that are written as text are those of the builder of the template, after it is
asked for what each token assigns. -/
def ReadAsEdits (template overrides : String) : Prop :=
  (∃ tokens parts, Text.Separates tokens overrides ∧ Assigns tokens parts) ∧
    ∀ tokens parts, Text.Separates tokens overrides → Assigns tokens parts →
      parse template (some overrides) = ((Builder.ofTemplate (Template.ofText template)).after
        (parts.map fun part => .setNamed part.1 part.2)).build

theorem builders_show_last_edits (template : Template) (steps : List Step)
    (name overrides : String) : Course template steps ∧ ReadAsEdits name overrides := by
  refine ⟨course template steps, ?_, ?_⟩
  · obtain ⟨tokens, separates⟩ := Text.exists_separates overrides
    obtain ⟨parts, assigns⟩ := exists_assigns tokens
    exact ⟨tokens, parts, separates, assigns⟩
  · intro tokens parts separates assigns
    rw [parse_eq_foldl separates, assigns.foldl_applyToken]
    rfl

/-- The derived builder is changed, and the one it is from is refused a tag and an axis. Of the
three tokens one is an edit that is made, one is an edit that is refused and one is none. -/
theorem builders_show_last_edits_derived :
    let steps : List Step := [.ask 0 (.set (.safety .storage)), .ask 0 (.setTag .security 7),
      .derive 0, .ask 1 (.setNamed "safety" "none"), .ask 0 (.setNamed "durability" "none")]
    (∃ original derived, (perform [.ofTemplate .posix] steps)[0]? = some original ∧
      original.build.get .safety = .safety .storage ∧
      original.build.get .security = .security .strict ∧
      (perform [.ofTemplate .posix] steps)[1]? = some derived ∧
      derived.build.get .safety = .safety .none) ∧
    parse "posix" (some "safety=network,safety,atomicity=batch=") =
      ((Builder.ofTemplate .posix).after
        [.setNamed "safety" "network", .setNamed "atomicity" "batch="]).build := by
  intro steps
  obtain ⟨course, read⟩ :=
    builders_show_last_edits .posix steps "posix" "safety=network,safety,atomicity=batch="
  obtain ⟨original, first, shows, -⟩ := course.original
  obtain ⟨derived, second, shows'⟩ :=
    course.derived (steps.take 2) (steps.drop 3) 0 _ rfl rfl
  constructor
  · refine ⟨original, derived, first, ?_, ?_, second, ?_⟩
    · refine (shows _ _).mpr (.inl ⟨rfl, [], _, steps.drop 1, rfl, .set _, ?_⟩)
      exact unchosen_iff.mpr (by decide)
    · exact (shows _ _).mpr (.inr ⟨unchosen_iff.mpr (by decide), rfl⟩)
    · refine (shows' _ _).mpr (.inl ⟨rfl, [], _, steps.drop 4, rfl, .name (.safety .none), ?_⟩)
      exact unchosen_iff.mpr (by decide)
  · have assigns : Assigns ["safety" ++ "=" ++ "network", "safety", "atomicity" ++ "=" ++ "batch="]
        [("safety", "network"), ("atomicity", "batch=")] :=
      .take "network" (by decide) (.skip (by decide) (.take "batch=" (by decide) .nil))
    exact read.2 _ _ ⟨by decide, by decide⟩ assigns

end Semantics
end MetadataClient
