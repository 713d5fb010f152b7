import MetadataClient.Semantics.Basic
import Mathlib.Tactic.Common

/-! Lists of settings. A setting is known by its axis and its name, and also by its axis and its
tag. Where settings are made one after the other, the last one on an axis counts. -/
namespace MetadataClient

/-- The last of what is selected comes from an element behind which nothing is selected. -/
theorem getLast?_filterMap_eq_some_iff {α β : Type} {select : α → Option β} {list : List α}
    {last : β} : (list.filterMap select).getLast? = some last ↔
      ∃ before element after, list = before ++ element :: after ∧ select element = some last ∧
        ∀ other ∈ after, select other = none := by
  rw [List.getLast?_filterMap, List.findSome?_eq_some_iff]
  constructor
  · rintro ⟨after, element, before, reversed, selected, none⟩
    refine ⟨before.reverse, element, after.reverse, ?_, selected, ?_⟩
    · rw [← List.reverse_reverse list, reversed]
      simp
    · exact fun other member => none other (List.mem_reverse.mp member)
  · rintro ⟨before, element, after, rfl, selected, none⟩
    refine ⟨after.reverse, element, before.reverse, by simp, selected, ?_⟩
    exact fun other member => none other (List.mem_reverse.mp member)

theorem Axis.ofName?_eq_some_iff {text : String} {axis : Axis} :
    ofName? text = some axis ↔ text = axis.name := by
  constructor
  · intro found
    rw [ofName?] at found
    have same := List.find?_some found
    exact (beq_iff_eq.mp same).symm
  · rintro rfl
    exact ofName?_name axis

theorem Axis.ofName?_eq_none_iff {text : String} :
    ofName? text = none ↔ ∀ axis : Axis, text ≠ axis.name := by
  simp only [Option.eq_none_iff_forall_ne_some, ne_eq, ofName?_eq_some_iff]

namespace Setting

theorem ofName?_eq_some_iff {axis : Axis} {text : String} {setting : Setting} :
    ofName? axis text = some setting ↔ setting.axis = axis ∧ text = setting.name := by
  constructor
  · intro found
    have chosen := axis_of_ofName? found
    rw [ofName?] at found
    have same := List.find?_some found
    exact ⟨chosen, (beq_iff_eq.mp same).symm⟩
  · rintro ⟨rfl, rfl⟩
    exact ofName?_name setting

theorem ofName?_eq_none_iff {axis : Axis} {text : String} :
    ofName? axis text = none ↔ ∀ setting : Setting, setting.axis = axis → text ≠ setting.name := by
  simp only [Option.eq_none_iff_forall_ne_some, ne_eq, ofName?_eq_some_iff, not_and]

theorem ofTag?_tag (setting : Setting) : ofTag? setting.axis setting.tag = some setting := by
  rcases setting with value | value | value | value | value | value <;> cases value <;> decide

theorem ofTag?_eq_some_iff {axis : Axis} {tag : Int} {setting : Setting} :
    ofTag? axis tag = some setting ↔ setting.axis = axis ∧ tag = setting.tag := by
  constructor
  · intro found
    have chosen := axis_of_ofTag? found
    rw [ofTag?] at found
    have same := List.find?_some found
    exact ⟨chosen, (beq_iff_eq.mp same).symm⟩
  · rintro ⟨rfl, rfl⟩
    exact ofTag?_tag setting

theorem ofTag?_eq_none_iff {axis : Axis} {tag : Int} :
    ofTag? axis tag = none ↔ ∀ setting : Setting, setting.axis = axis → tag ≠ setting.tag := by
  simp only [Option.eq_none_iff_forall_ne_some, ne_eq, ofTag?_eq_some_iff, not_and]

end Setting

namespace Semantics

theorem get_foldl_set (start : Semantics) (settings : List Setting) (axis : Axis) :
    (settings.foldl set start).get axis =
      ((settings.filter (·.axis = axis)).getLast?).getD (start.get axis) := by
  induction settings generalizing start with
  | nil => rfl
  | cons setting settings ih =>
    rw [List.foldl_cons, ih, get_set]
    by_cases here : setting.axis = axis
    · simp only [List.filter_cons, here, decide_true, if_true, List.getLast?_cons, Option.getD_some]
    · simp only [List.filter_cons, here, decide_false, Bool.false_eq_true, if_false]

end Semantics
end MetadataClient
