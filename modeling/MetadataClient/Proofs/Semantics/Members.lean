import Mathlib.Data.List.Nodup
import Mathlib.Data.List.ReduceOption
import MetadataClient.Semantics.Json
import MetadataClient.Proofs.Semantics.Settings

/-! Semantics from what is told of each axis. Members of an object are looked at one after the
other, but all that counts in the end is how often each axis was given and by which
names. -/
namespace MetadataClient

/-- What a setting is known by in JSON. -/
def Setting.entry (setting : Setting) : Axis × String :=
  (setting.axis, setting.name)

theorem Setting.entry_injective : Function.Injective entry := by
  intro first second same
  obtain ⟨axis, name⟩ := Prod.mk.inj same
  have found := ofName?_name first
  rw [axis, name, ofName?_name second] at found
  exact (Option.some.inj found).symm

namespace Semantics

open Json (Fault)

/-- The names that are given on an axis. -/
def given (axis : Axis) (told : List (Option (Axis × String))) : List String :=
  told.reduceOption.filterMap fun entry => if entry.1 = axis then some entry.2 else none

/-- Each axis is given once, with the name of its value. -/
def Chosen (told : List (Option (Axis × String))) (semantics : Semantics) : Prop :=
  ∀ axis, given axis told = [(semantics.get axis).name]

/-- Why members do not choose semantics. -/
inductive Flawed (told : List (Option (Axis × String))) : Prop
  | missing (axis : Axis) (nothing : given axis told = [])
  | repeated (axis : Axis) (twice : 2 ≤ (given axis told).length)
  | unknown (axis : Axis) {value : String} (member : value ∈ given axis told)
      (foreign : ∀ setting : Setting, setting.axis = axis → value ≠ setting.name)

/-! ## Members one after the other -/

def accept (found : List Setting) : Option (Axis × String) → Except Fault (List Setting)
  | none => .ok found
  | some (axis, value) =>
    if found.any (·.axis == axis) then .error .mismatch
    else match Setting.ofName? axis value with
      | some setting => .ok (found ++ [setting])
      | none => .error .mismatch

def conclude (found : List Setting) : Except Fault Semantics :=
  match ofSettings? found with
  | some semantics => .ok semantics
  | none => .error .mismatch

theorem any_axis_iff {found : List Setting} {axis : Axis} :
    found.any (·.axis == axis) = true ↔ axis ∈ found.map Setting.axis := by
  simp only [List.any_eq_true, beq_iff_eq, List.mem_map]

theorem accept_setting {found : List Setting} {setting : Setting}
    (free : setting.axis ∉ found.map Setting.axis) :
    accept found (some setting.entry) = .ok (found ++ [setting]) := by
  rw [Setting.entry, accept, if_neg (free ∘ any_axis_iff.mp), Setting.ofName?_name]

theorem exists_of_accept {found next : List Setting} {entry : Axis × String}
    (accepted : accept found (some entry) = .ok next) : ∃ setting : Setting, setting.entry = entry ∧
      setting.axis ∉ found.map Setting.axis ∧ next = found ++ [setting] := by
  obtain ⟨axis, value⟩ := entry
  rw [accept] at accepted
  split at accepted
  next => cases accepted
  next free =>
    cases known : Setting.ofName? axis value with
    | none =>
      rw [known] at accepted
      cases accepted
    | some setting =>
      rw [known] at accepted
      obtain ⟨rfl, rfl⟩ := Setting.ofName?_eq_some_iff.mp known
      exact ⟨setting, rfl, free ∘ any_axis_iff.mpr, (Except.ok.inj accepted).symm⟩

/-- The settings that are found are those that are given, on axes that are all different. -/
theorem foldlM_accept_eq_ok_iff {told : List (Option (Axis × String))}
    {found settings : List Setting} (distinct : (found.map Setting.axis).Nodup) :
    told.foldlM accept found = .ok settings ↔
      settings.map Setting.entry = found.map Setting.entry ++ told.reduceOption ∧
        (settings.map Setting.axis).Nodup := by
  induction told generalizing found with
  | nil =>
    rw [List.foldlM_nil, List.reduceOption_nil, List.append_nil]
    constructor
    · rintro ⟨⟩
      exact ⟨rfl, distinct⟩
    · rintro ⟨same, -⟩
      rw [List.map_injective_iff.mpr Setting.entry_injective same]
      rfl
  | cons entry told ih =>
    rw [List.foldlM_cons]
    cases entry with
    | none =>
      rw [List.reduceOption_cons_of_none, ← ih distinct]
      rfl
    | some entry =>
      rw [List.reduceOption_cons_of_some]
      -- A setting on a new axis is one more that is found.
      have goOn {setting : Setting} (free : setting.axis ∉ found.map Setting.axis) :
          told.foldlM accept (found ++ [setting]) = .ok settings ↔
            settings.map Setting.entry =
              found.map Setting.entry ++ setting.entry :: told.reduceOption ∧
            (settings.map Setting.axis).Nodup := by
        have distinct : ((found ++ [setting]).map Setting.axis).Nodup := by
          rw [List.map_append, List.nodup_append_comm]
          exact List.nodup_cons.mpr ⟨free, distinct⟩
        rw [ih distinct, List.map_append, List.append_assoc]
        rfl
      constructor
      · intro read
        cases accepted : accept found (some entry) with
        | error fault =>
          rw [accepted] at read
          cases read
        | ok next =>
          rw [accepted] at read
          obtain ⟨setting, rfl, free, rfl⟩ := exists_of_accept accepted
          exact (goOn free).mp read
      · rintro ⟨all, different⟩
        obtain ⟨before, after, rfl, earlier, later⟩ := List.map_eq_append_iff.mp all
        obtain rfl := List.map_injective_iff.mpr Setting.entry_injective earlier
        obtain ⟨setting, after, rfl, rfl, -⟩ := List.map_eq_cons_iff.mp later
        have free : setting.axis ∉ before.map Setting.axis := by
          rw [List.map_append, List.map_cons] at different
          exact fun member => List.disjoint_of_nodup_append different member List.mem_cons_self
        rw [accept_setting free]
        exact (goOn free).mpr ⟨all, different⟩

theorem foldlM_accept_nil_eq_ok_iff {told : List (Option (Axis × String))}
    {settings : List Setting} :
    told.foldlM accept [] = .ok settings ↔
      settings.map Setting.entry = told.reduceOption ∧ (settings.map Setting.axis).Nodup :=
  @foldlM_accept_eq_ok_iff told [] settings List.nodup_nil

theorem fault_of_foldlM_accept {told : List (Option (Axis × String))} {found : List Setting}
    {fault : Fault} (refused : told.foldlM accept found = .error fault) : fault = .mismatch := by
  induction told generalizing found with
  | nil => cases refused
  | cons entry told ih =>
    rw [List.foldlM_cons] at refused
    cases accepted : accept found entry with
    | ok next =>
      rw [accepted] at refused
      exact ih refused
    | error other =>
      rw [accepted] at refused
      cases refused
      cases entry with
      | none => cases accepted
      | some entry =>
        rw [accept] at accepted
        split at accepted
        next => cases accepted; rfl
        next =>
          split at accepted
          next => cases accepted
          next => cases accepted; rfl

theorem filter_axis {found : List Setting} (distinct : (found.map Setting.axis).Nodup)
    {setting : Setting} (member : setting ∈ found) :
    found.filter (·.axis = setting.axis) = [setting] := by
  induction found with
  | nil => cases member
  | cons first later ih =>
    rw [List.map_cons, List.nodup_cons] at distinct
    rcases List.mem_cons.mp member with rfl | inside
    · have none : later.filter (·.axis = setting.axis) = [] := by
        rw [List.filter_eq_nil_iff]
        intro other inside same
        exact distinct.1 (List.mem_map.mpr ⟨other, inside, of_decide_eq_true same⟩)
      simp only [List.filter_cons, decide_true, if_true, none]
    · have other : first.axis ≠ setting.axis := by
        intro same
        exact distinct.1 (List.mem_map.mpr ⟨setting, inside, same.symm⟩)
      simp only [List.filter_cons, other, decide_false, Bool.false_eq_true, if_false,
        ih distinct.2 inside]

theorem conclude_eq_ok_iff {found : List Setting} (distinct : (found.map Setting.axis).Nodup)
    {semantics : Semantics} : conclude found = .ok semantics ↔
      ∀ axis, found.filter (·.axis = axis) = [semantics.get axis] := by
  have all_axes : Axis.all.all (fun axis => found.any (·.axis == axis)) = true ↔
      ∀ axis, axis ∈ found.map Setting.axis := by
    simp only [List.all_eq_true, any_axis_iff]
    exact ⟨fun each axis => each axis (by cases axis <;> decide), fun each axis _ => each axis⟩
  rw [conclude, ofSettings?]
  constructor
  · intro chosen axis
    split at chosen
    next all =>
      split at all
      next complete =>
        obtain ⟨setting, member, rfl⟩ := List.mem_map.mp (all_axes.mp complete axis)
        have single := filter_axis distinct member
        cases all
        cases chosen
        rw [get_foldl_set, single]
        rfl
      next => cases all
    next => cases chosen
  · intro single
    have complete : ∀ axis, axis ∈ found.map Setting.axis := by
      intro axis
      have member : semantics.get axis ∈ found.filter (·.axis = axis) := by
        rw [single axis]
        exact List.mem_singleton_self _
      exact List.mem_map.mpr ⟨_, List.mem_of_mem_filter member, axis_get semantics axis⟩
    have same : found.foldl set Template.standard.semantics = semantics := by
      apply ext_get
      intro axis
      rw [get_foldl_set, single]
      rfl
    rw [if_pos (all_axes.mpr complete), same]

/-! ## What is given -/

theorem given_eq {told : List (Option (Axis × String))} {settings : List Setting}
    (same : settings.map Setting.entry = told.reduceOption) (axis : Axis) :
    given axis told = (settings.filter (·.axis = axis)).map Setting.name := by
  rw [given, ← same]
  clear same
  induction settings with
  | nil => rfl
  | cons setting settings ih =>
    by_cases here : setting.axis = axis
    · simp only [List.map_cons, List.filterMap_cons, List.filter_cons, Setting.entry, here,
        if_true, decide_true, ← ih]
    · simp only [List.map_cons, List.filterMap_cons, List.filter_cons, Setting.entry, here,
        if_false, decide_false, Bool.false_eq_true, ← ih]

theorem chosen_iff {told : List (Option (Axis × String))} {semantics : Semantics} :
    Chosen told semantics ↔ ∃ settings : List Setting,
      settings.map Setting.entry = told.reduceOption ∧ (settings.map Setting.axis).Nodup ∧
        ∀ axis, settings.filter (·.axis = axis) = [semantics.get axis] := by
  constructor
  · intro chosen
    let settings := told.reduceOption.map fun entry => semantics.get entry.1
    have same : settings.map Setting.entry = told.reduceOption := by
      rw [List.map_map]
      refine (List.map_congr_left fun entry member => ?_).trans (List.map_id _)
      have value : entry.2 ∈ given entry.1 told :=
        List.mem_filterMap.mpr ⟨entry, member, if_pos rfl⟩
      rw [chosen, List.mem_singleton] at value
      exact Prod.ext (axis_get semantics entry.1) value.symm
    have single (axis : Axis) : settings.filter (·.axis = axis) = [semantics.get axis] := by
      have names := chosen axis
      rw [given_eq same] at names
      obtain ⟨setting, alone, name⟩ := List.map_eq_singleton_iff.mp names
      have member : setting ∈ settings.filter (·.axis = axis) := by
        rw [alone]
        exact List.mem_singleton_self _
      have here : setting.axis = axis := of_decide_eq_true (List.mem_filter.mp member).2
      rw [alone, Setting.entry_injective (Prod.ext (here.trans (axis_get _ _).symm) name)]
    refine ⟨settings, same, List.nodup_iff_count_le_one.mpr fun axis => ?_, single⟩
    have count : (settings.map Setting.axis).count axis =
        (settings.filter (·.axis = axis)).length := by
      rw [List.count_eq_countP, List.countP_map, List.countP_eq_length_filter]
      rfl
    rw [count, single]
    exact Nat.le_refl 1
  · rintro ⟨settings, same, -, single⟩ axis
    rw [given_eq same, single axis]
    rfl

theorem exists_get {choice : Axis → Setting} (on : ∀ axis, (choice axis).axis = axis) :
    ∃ semantics : Semantics, ∀ axis, semantics.get axis = choice axis := by
  refine ⟨(Axis.all.map choice).foldl set Template.standard.semantics, fun axis => ?_⟩
  have single : (Axis.all.map choice).filter (·.axis = axis) = [choice axis] := by
    cases axis <;> simp [Axis.all, on]
  rw [get_foldl_set, single]
  rfl

/-- Nothing but these flaws keeps members from choosing semantics. -/
theorem flawed_iff {told : List (Option (Axis × String))} :
    Flawed told ↔ ∀ semantics, ¬ Chosen told semantics := by
  constructor
  · intro flawed semantics chosen
    cases flawed with
    | missing axis nothing =>
      rw [chosen] at nothing
      cases nothing
    | repeated axis twice =>
      rw [chosen] at twice
      exact absurd twice (Nat.not_succ_le_self 1)
    | unknown axis member foreign =>
      rw [chosen, List.mem_singleton] at member
      exact foreign _ (axis_get semantics axis) member
  · intro never
    by_contra flawless
    have known (axis : Axis) : ∃ setting : Setting, setting.axis = axis ∧
        given axis told = [setting.name] := by
      cases names : given axis told with
      | nil => exact absurd (.missing axis names) flawless
      | cons name others =>
        cases others with
        | cons other others =>
          exact absurd (.repeated axis (by rw [names]; exact Nat.le_add_left ..)) flawless
        | nil =>
          by_contra unknown
          have member : name ∈ given axis told := by
            rw [names]
            exact List.mem_singleton_self name
          refine flawless (.unknown axis member fun setting here same => ?_)
          exact unknown ⟨setting, here, by rw [same]⟩
    choose choice on single using known
    obtain ⟨semantics, same⟩ := exists_get on
    exact never semantics fun axis => by rw [single, same]

end Semantics
end MetadataClient
