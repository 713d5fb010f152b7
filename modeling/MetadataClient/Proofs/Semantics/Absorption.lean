import MetadataClient.Proofs.Semantics.Text

/-! Semantics that are written by all of their settings. Their text chooses them from any
template and behind any other tokens, so it may stand in place of any tokens that mean the same. -/
namespace MetadataClient

theorem Setting.not_mem_text (setting : Setting) : ',' ∉ setting.text.toList := by
  rcases setting with value | value | value | value | value | value <;> cases value <;> decide

namespace Semantics

/-- The tokens behind a comma change what those before it mean. -/
theorem parse_append (template before after : String) :
    parse template (some (before ++ "," ++ after)) =
      (Text.split ',' after.toList).foldl applyToken (parse template (some before)) := by
  have joined : (before ++ "," ++ after).toList = before.toList ++ ',' :: after.toList := by simp
  simp only [parse, joined, Text.split_append, List.foldl_append]

theorem text_separates (semantics : Semantics) :
    Text.Separates (semantics.settings.map Setting.text) semantics.text := by
  refine ⟨rfl, ?_⟩
  rw [List.forall_mem_map]
  exact fun setting _ => setting.not_mem_text

theorem settingOn?_settings (semantics : Semantics) (axis : Axis) :
    (semantics.settings.map Setting.text).filterMap (settingOn? axis) = [semantics.get axis] := by
  have tokens : settingOn? axis ∘ Setting.text ∘ semantics.get =
      fun other => if other = axis then some (semantics.get other) else none := by
    funext other
    rw [Function.comp_apply, Function.comp_apply, settingOn?_text, axis_get]
  rw [settings, List.map_map, List.filterMap_map, tokens]
  cases axis <;> rfl

/-- All axes are set, so nothing is left of what was there before. -/
theorem foldl_applyToken_text (start semantics : Semantics) :
    (Text.split ',' semantics.text.toList).foldl applyToken start = semantics := by
  rw [semantics.text_separates.split_eq (List.cons_ne_nil _ _)]
  apply ext_get
  intro axis
  rw [get_foldl_applyToken, settingOn?_settings]
  rfl

theorem parse_text (template : String) (semantics : Semantics) :
    parse template (some semantics.text) = semantics := by
  rw [parse]
  exact foldl_applyToken_text _ semantics

/-- The text of semantics means these semantics, whatever the template and whatever is before it,
and it may replace whatever means the same, whatever is behind. -/
theorem parse_text_absorbs (semantics : Semantics) (template other before after : String) :
    parse template (some semantics.text) = semantics ∧
      parse template (some (before ++ "," ++ semantics.text)) = semantics ∧
      parse template (some (before ++ "," ++ after)) =
        parse other (some ((parse template (some before)).text ++ "," ++ after)) := by
  refine ⟨parse_text template semantics, ?_, ?_⟩
  · rw [parse_append, foldl_applyToken_text]
  · rw [parse_append, parse_append, parse_text]

end Semantics
end MetadataClient
