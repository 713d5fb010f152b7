import MetadataClient.Proofs.Semantics.Settings
import MetadataClient.Semantics.Text

/-! The meaning of semantics that are written as text. Each axis is decided by the last token
that sets it, and by the template if there is none. No other token matters, and neither does
the order of tokens that set different axes. -/
namespace MetadataClient

namespace Text

theorem intercalate_split (separator : Char) (text : List Char) :
    [separator].intercalate (split separator text) = text := by
  induction text with
  | nil => rfl
  | cons char rest ih =>
    obtain ⟨part, parts, found⟩ := List.exists_cons_of_ne_nil (split_ne_nil separator rest)
    rw [found] at ih
    simp only [split, found]
    split
    next same =>
      rw [List.intercalate_cons_cons, ih, same]
      rfl
    next =>
      rw [List.intercalate_cons_cons_left, ih]

theorem split_intercalate {separator : Char} {parts : List (List Char)} (some : parts ≠ [])
    (free : ∀ part ∈ parts, separator ∉ part) :
    split separator ([separator].intercalate parts) = parts := by
  induction parts with
  | nil => contradiction
  | cons part rest ih =>
    obtain ⟨first, later⟩ := List.forall_mem_cons.mp free
    cases rest with
    | nil =>
      rw [List.intercalate_singleton]
      exact split_of_not_mem first
    | cons next others =>
      rw [List.intercalate_cons_cons, List.append_assoc, List.singleton_append, split_append,
        split_of_not_mem first, ih (List.cons_ne_nil next others) later]
      rfl

/-- The tokens are what stands between the commas of the text. -/
structure Separates (tokens : List String) (text : String) : Prop where
  joined : ",".intercalate tokens = text
  free : ∀ token ∈ tokens, ',' ∉ token.toList

theorem exists_separates (text : String) : ∃ tokens, Separates tokens text := by
  refine ⟨(split ',' text.toList).map String.ofList, ?_, ?_⟩
  · apply String.toList_injective
    have same : String.toList ∘ String.ofList = id := funext fun _ => String.toList_ofList
    rw [String.toList_intercalate, List.map_map, same, List.map_id]
    exact intercalate_split ',' text.toList
  · simp only [List.forall_mem_map, String.toList_ofList]
    exact fun part => not_mem_of_mem_split

theorem Separates.split_eq {tokens : List String} {text : String}
    (separates : Separates tokens text) (some : tokens ≠ []) :
    split ',' text.toList = tokens.map String.toList := by
  rw [← separates.joined, String.toList_intercalate]
  apply split_intercalate
  · rwa [ne_eq, List.map_eq_nil_iff]
  · exact List.forall_mem_map.mpr separates.free

end Text

theorem Axis.not_mem_name (axis : Axis) : '=' ∉ axis.name.toList := by
  cases axis <;> decide

namespace Semantics

/-- A token names a setting if it is the name of an axis, an equals sign and the name of a value
on this very axis, and nothing else. -/
theorem settingOfToken?_eq_some_iff {token : String} {setting : Setting} :
    settingOfToken? token.toList = some setting ↔ token = setting.text := by
  simp only [settingOfToken?, Option.bind_eq_bind, Option.bind_eq_some_iff, Prod.exists,
    Axis.ofName?_eq_some_iff, Setting.ofName?_eq_some_iff]
  constructor
  · rintro ⟨before, after, cut, axis, named, rfl, valued⟩
    apply String.toList_injective
    rw [(Text.cut?_eq_some cut).2, ← String.toList_ofList (l := before), named,
      ← String.toList_ofList (l := after), valued, Setting.text]
    simp
  · rintro rfl
    refine ⟨setting.axis.name.toList, setting.name.toList, ?_, setting.axis, ?_, rfl, ?_⟩
    · have parts : setting.text.toList =
          setting.axis.name.toList ++ '=' :: setting.name.toList := by simp [Setting.text]
      rw [parts]
      exact Text.cut?_append setting.axis.not_mem_name _
    · exact String.ofList_toList
    · exact String.ofList_toList

/-- What a token sets an axis to. -/
def settingOn? (axis : Axis) (token : String) : Option Setting :=
  (settingOfToken? token.toList).filter (·.axis = axis)

theorem settingOn?_eq_some_iff {axis : Axis} {token : String} {setting : Setting} :
    settingOn? axis token = some setting ↔ token = setting.text ∧ setting.axis = axis := by
  rw [settingOn?, Option.filter_eq_some_iff, settingOfToken?_eq_some_iff, decide_eq_true_iff]

theorem settingOn?_eq_none_iff {axis : Axis} {token : String} :
    settingOn? axis token = none ↔
      ∀ setting : Setting, setting.axis = axis → token ≠ setting.text := by
  rw [Option.eq_none_iff_forall_ne_some]
  constructor
  · intro none setting same named
    exact none setting (settingOn?_eq_some_iff.mpr ⟨named, same⟩)
  · intro none setting found
    obtain ⟨named, same⟩ := settingOn?_eq_some_iff.mp found
    exact none setting same named

theorem settingOn?_text (setting : Setting) (axis : Axis) :
    settingOn? axis setting.text = if setting.axis = axis then some setting else none := by
  rw [settingOn?, settingOfToken?_eq_some_iff.mpr rfl, Option.filter_some]
  simp only [decide_eq_true_eq]

/-- On every axis the last token counts that sets it. -/
theorem get_foldl_applyToken (start : Semantics) (tokens : List String) (axis : Axis) :
    ((tokens.map String.toList).foldl applyToken start).get axis =
      ((tokens.filterMap (settingOn? axis)).getLast?).getD (start.get axis) := by
  have settings : (tokens.map String.toList).foldl applyToken start =
      (tokens.filterMap fun token => settingOfToken? token.toList).foldl set start := by
    rw [List.foldl_map, List.foldl_filterMap]
    congr 1
    funext semantics token
    rw [applyToken]
    cases settingOfToken? token.toList <;> rfl
  rw [settings, get_foldl_set, List.filter_filterMap]
  rfl

/-- What a template chooses that is given by its name. -/
def defaults (template : String) : Semantics :=
  if template = "posix" then Template.posix.semantics
  else if template = "checkpoint" then Template.checkpoint.semantics
  else Template.standard.semantics

theorem semantics_ofText (template : String) :
    (Template.ofText template).semantics = defaults template := by
  by_cases posix : template = "posix"
  · subst posix
    rfl
  by_cases checkpoint : template = "checkpoint"
  · subst checkpoint
    rfl
  -- The name of the standard template chooses what any other text chooses.
  have rest : Template.ofText template = .standard := by
    simp only [Template.ofText, Template.ofName?, Template.all, Template.name, List.find?_cons,
      List.find?_nil, beq_eq_false_iff_ne.mpr (Ne.symm posix),
      beq_eq_false_iff_ne.mpr (Ne.symm checkpoint)]
    cases "default" == template <;> rfl
  rw [rest, defaults, if_neg posix, if_neg checkpoint]

theorem parse_eq_foldl {tokens : List String} {overrides : String}
    (separates : Text.Separates tokens overrides) (template : String) :
    parse template (some overrides) =
      (tokens.map String.toList).foldl applyToken (Template.ofText template).semantics := by
  cases tokens with
  | nil =>
    rw [← separates.joined]
    rfl
  | cons token others =>
    simp only [parse, separates.split_eq (List.cons_ne_nil token others)]

theorem get_parse {tokens : List String} {overrides : String}
    (separates : Text.Separates tokens overrides) (template : String) (axis : Axis) :
    (parse template (some overrides)).get axis =
      ((tokens.filterMap (settingOn? axis)).getLast?).getD ((defaults template).get axis) := by
  rw [← semantics_ofText, ← get_foldl_applyToken, parse_eq_foldl separates]

theorem parse_eq {tokens others : List String} {overrides text : String}
    (first : Text.Separates tokens overrides) (second : Text.Separates others text)
    (same : ∀ axis, tokens.filterMap (settingOn? axis) = others.filterMap (settingOn? axis))
    (template : String) : parse template (some overrides) = parse template (some text) := by
  apply ext_get
  intro axis
  rw [get_parse first, get_parse second, same]

/-! ## What decides an axis -/

/-- The token sets the axis. -/
def Sets (axis : Axis) (token : String) : Prop :=
  ∃ setting : Setting, setting.axis = axis ∧ token = setting.text

theorem isSome_settingOn? {axis : Axis} {token : String} :
    (settingOn? axis token).isSome = true ↔ Sets axis token := by
  simp only [Option.isSome_iff_exists, settingOn?_eq_some_iff, Sets, And.comm]

instance (axis : Axis) (token : String) : Decidable (Sets axis token) :=
  decidable_of_iff _ isSome_settingOn?

theorem filterMap_settingOn? (axis : Axis) (tokens : List String) :
    (tokens.filter (Sets axis ·)).filterMap (settingOn? axis) =
      tokens.filterMap (settingOn? axis) := by
  rw [List.filterMap_filter]
  congr 1
  funext token
  split
  next => rfl
  next other =>
    rw [decide_eq_true_iff, ← isSome_settingOn?, Option.not_isSome_iff_eq_none] at other
    exact other.symm

def SetLast (axis : Axis) (tokens : List String) (setting : Setting) : Prop :=
  setting.axis = axis ∧ ∃ before after, tokens = before ++ setting.text :: after ∧
    ∀ token ∈ after, ∀ other : Setting, other.axis = axis → token ≠ other.text

/-- No token sets the axis. -/
def Unset (axis : Axis) (tokens : List String) : Prop :=
  ∀ token ∈ tokens, ∀ setting : Setting, setting.axis = axis → token ≠ setting.text

theorem unset_iff {axis : Axis} {tokens : List String} :
    Unset axis tokens ↔ tokens.filterMap (settingOn? axis) = [] := by
  simp only [Unset, List.filterMap_eq_nil_iff, settingOn?_eq_none_iff]

theorem setLast_iff {axis : Axis} {tokens : List String} {setting : Setting} :
    SetLast axis tokens setting ↔
      (tokens.filterMap (settingOn? axis)).getLast? = some setting := by
  simp only [getLast?_filterMap_eq_some_iff, settingOn?_eq_some_iff, settingOn?_eq_none_iff]
  constructor
  · rintro ⟨same, before, after, rfl, none⟩
    exact ⟨before, setting.text, after, rfl, ⟨rfl, same⟩, none⟩
  · rintro ⟨before, token, after, rfl, ⟨rfl, same⟩, none⟩
    exact ⟨same, before, after, rfl, none⟩

theorem get_parse_iff {tokens : List String} {overrides : String}
    (separates : Text.Separates tokens overrides) (template : String) (axis : Axis)
    (setting : Setting) :
    (parse template (some overrides)).get axis = setting ↔
      SetLast axis tokens setting ∨
        Unset axis tokens ∧ (defaults template).get axis = setting := by
  rw [get_parse separates, setLast_iff, unset_iff, ← List.getLast?_eq_none_iff]
  cases (tokens.filterMap (settingOn? axis)).getLast? with
  | none => simp
  | some last => simp

/-- What semantics mean that are written with these tokens behind the name of a template. -/
structure Means (template : String) (tokens : List String) (result : Semantics) : Prop where
  get (axis : Axis) (setting : Setting) : result.get axis = setting ↔
    SetLast axis tokens setting ∨ Unset axis tokens ∧ (defaults template).get axis = setting
  ignored (before after : List String) (token : String) : tokens = before ++ token :: after →
    (∀ setting : Setting, token ≠ setting.text) →
    parse template (some (",".intercalate (before ++ after))) = result
  exchanged (before between after : List String) (first second : Setting) :
    tokens = before ++ first.text :: (between ++ second.text :: after) →
    first.axis ≠ second.axis → Unset first.axis between → Unset second.axis between →
    parse template (some (",".intercalate
      (before ++ second.text :: (between ++ first.text :: after)))) = result
  reordered (others : List String) : (∀ token ∈ others, ',' ∉ token.toList) →
    (∀ axis, others.filter (Sets axis ·) = tokens.filter (Sets axis ·)) →
    parse template (some (",".intercalate others)) = result

theorem ignored_of_separates {before after : List String} {token overrides : String}
    (separates : Text.Separates (before ++ token :: after) overrides)
    (none : ∀ setting : Setting, token ≠ setting.text) (template : String) :
    parse template (some (",".intercalate (before ++ after))) =
      parse template (some overrides) := by
  have rest : (before ++ after).Sublist (before ++ token :: after) :=
    (List.sublist_cons_self token after).append_left before
  have free : ∀ other ∈ before ++ after, ',' ∉ other.toList := fun other member =>
    separates.free other (rest.subset member)
  refine parse_eq ⟨rfl, free⟩ separates ?_ template
  intro axis
  have nothing : settingOn? axis token = .none :=
    settingOn?_eq_none_iff.mpr fun setting _ => none setting
  rw [List.filterMap_append, List.filterMap_append, List.filterMap_cons, nothing]

theorem exchanged_of_separates {before between after : List String} {first second : Setting}
    {overrides : String} (separates : Text.Separates
      (before ++ first.text :: (between ++ second.text :: after)) overrides)
    (different : first.axis ≠ second.axis) (none : Unset first.axis between)
    (none' : Unset second.axis between) (template : String) :
    parse template (some (",".intercalate
      (before ++ second.text :: (between ++ first.text :: after)))) =
      parse template (some overrides) := by
  have free : ∀ token ∈ before ++ second.text :: (between ++ first.text :: after),
      ',' ∉ token.toList := by
    intro token member
    apply separates.free
    simp only [List.mem_append, List.mem_cons] at member ⊢
    grind
  refine parse_eq ⟨rfl, free⟩ separates ?_ template
  intro axis
  simp only [List.filterMap_append, List.filterMap_cons, settingOn?_text]
  -- On either axis one of the two tokens is nothing and so is all between them.
  by_cases here : first.axis = axis
  · have elsewhere : second.axis ≠ axis := fun same => different (here.trans same.symm)
    have nothing : between.filterMap (settingOn? axis) = [] := unset_iff.mp (here ▸ none)
    simp only [if_pos here, if_neg elsewhere, nothing, List.nil_append]
  · simp only [if_neg here]
    by_cases there : second.axis = axis
    · have nothing : between.filterMap (settingOn? axis) = [] := unset_iff.mp (there ▸ none')
      simp only [if_pos there, nothing, List.nil_append]
    · simp only [if_neg there]

/-- Every text is a list of tokens between commas, and these decide what it means. -/
theorem parse_means (template overrides : String) :
    (∃ tokens, Text.Separates tokens overrides) ∧
      ∀ tokens, Text.Separates tokens overrides →
        Means template tokens (parse template (some overrides)) := by
  refine ⟨Text.exists_separates overrides, ?_⟩
  intro tokens separates
  constructor
  · exact get_parse_iff separates template
  · rintro before after token rfl none
    exact ignored_of_separates separates none template
  · rintro before between after first second rfl different none none'
    exact exchanged_of_separates separates different none none' template
  · intro others free same
    refine parse_eq ⟨rfl, free⟩ separates ?_ template
    intro axis
    rw [← filterMap_settingOn?, same, filterMap_settingOn?]

/-- Two tokens set the safety and one of them the security; the others set nothing. -/
theorem parse_means_mixed :
    let tokens := ["safety=network", "atomicity=batch=", "security=none", " safety=none", "",
      "safety=storage"]
    let result := parse "posix"
      (some "safety=network,atomicity=batch=,security=none, safety=none,,safety=storage")
    Text.Separates tokens
        "safety=network,atomicity=batch=,security=none, safety=none,,safety=storage" ∧
      result.get .safety = .safety .storage ∧ result.get .atomicity = .atomicity .operation ∧
      parse "posix" (some "safety=network,security=none, safety=none,,safety=storage") = result ∧
      parse "posix"
        (some "safety=network,atomicity=batch=,safety=storage, safety=none,,security=none") =
        result := by
  intro tokens result
  have separates : Text.Separates tokens
      "safety=network,atomicity=batch=,security=none, safety=none,,safety=storage" :=
    ⟨by decide, by decide⟩
  have means := (parse_means "posix" _).2 tokens separates
  refine ⟨separates, ?_, ?_, ?_, ?_⟩
  · exact (means.get _ _).mpr (.inl ⟨rfl, tokens.take 5, [], rfl, List.forall_mem_nil _⟩)
  · exact (means.get _ _).mpr (.inr ⟨unset_iff.mpr (by decide), rfl⟩)
  · refine means.ignored ["safety=network"] (tokens.drop 2) "atomicity=batch=" rfl ?_
    intro setting same
    have named := settingOfToken?_eq_some_iff.mpr same
    cases named
  · exact means.exchanged (tokens.take 2) [" safety=none", ""] [] (.security .none)
      (.safety .storage) rfl (by decide) (unset_iff.mpr (by decide)) (unset_iff.mpr (by decide))

end Semantics
end MetadataClient
