import ScopedCss.Settings.Basic

set_option autoImplicit false

/-!
# Giving several fields

Assignments that go to different fields, none of which is given yet, can be looked up in what they
make of the fields that are given.
-/

namespace ScopedCss.Settings

def get (settings : Settings) : Field → Text
  | .input => settings.input
  | .output => settings.output
  | .wrapper => settings.wrapper

theorem ext_get {left right : Settings} (same : ∀ field, left.get field = right.get field) :
    left = right := by
  cases left
  cases right
  simp only [mk.injEq]
  exact ⟨same .input, same .output, same .wrapper⟩

namespace Overrides

def setAll (given : Overrides) (assignments : List (Field × Text)) : Overrides :=
  assignments.foldl (fun given assignment => given.set assignment.1 assignment.2) given

/-- Assignments to fields that are not given yet, at most one to each. -/
structure Fresh (given : Overrides) (assignments : List (Field × Text)) : Prop where
  once : (assignments.map Prod.fst).Nodup
  absent : ∀ field ∈ assignments.map Prod.fst, given.get? field = .none

theorem fresh_nil (given : Overrides) : given.Fresh [] := ⟨.nil, nofun⟩

theorem fresh_cons_iff {given : Overrides} {field : Field} {value : Text}
    {later : List (Field × Text)} : given.Fresh ((field, value) :: later) ↔
      given.get? field = .none ∧ (given.set field value).Fresh later := by
  constructor
  · rintro ⟨once, absent⟩
    obtain ⟨notLater, onceLater⟩ := List.nodup_cons.mp once
    refine ⟨absent field List.mem_cons_self, onceLater, ?_⟩
    intro other member
    have different : other ≠ field := fun same => notLater (same ▸ member)
    rw [get?_set, if_neg different]
    exact absent other (List.mem_cons_of_mem _ member)
  · rintro ⟨absentField, onceLater, absentLater⟩
    have notLater : field ∉ later.map Prod.fst := by
      intro member
      have absent := absentLater field member
      rw [get?_set, if_pos rfl] at absent
      cases absent
    refine ⟨List.nodup_cons.mpr ⟨notLater, onceLater⟩, ?_⟩
    intro other member
    rcases List.mem_cons.mp member with same | member
    · rw [show other = field from same]
      exact absentField
    · have absent := absentLater other member
      have different : other ≠ field := fun same => notLater (same ▸ member)
      rwa [get?_set, if_neg different] at absent

theorem setAll_append (given : Overrides) (first later : List (Field × Text)) :
    given.setAll (first ++ later) = (given.setAll first).setAll later :=
  List.foldl_append

theorem fresh_append_iff {given : Overrides} {first later : List (Field × Text)} :
    given.Fresh (first ++ later) ↔ given.Fresh first ∧ (given.setAll first).Fresh later := by
  induction first generalizing given with
  | nil => exact ⟨fun fresh => ⟨fresh_nil given, fresh⟩, fun both => both.2⟩
  | cons assignment first ih =>
      obtain ⟨field, value⟩ := assignment
      rw [List.cons_append, fresh_cons_iff, fresh_cons_iff, ih, and_assoc]
      rfl

theorem get?_none (field : Field) : none.get? field = .none := by
  cases field with
  | input => rfl
  | output => rfl
  | wrapper => rfl

theorem fresh_none {assignments : List (Field × Text)} (once : (assignments.map Prod.fst).Nodup) :
    none.Fresh assignments :=
  ⟨once, fun field _ => get?_none field⟩

theorem get?_setAll {given : Overrides} {assignments : List (Field × Text)}
    (fresh : given.Fresh assignments) (field : Field) :
    (given.setAll assignments).get? field = (assignments.lookup field).or (given.get? field) := by
  induction assignments generalizing given with
  | nil => rfl
  | cons assignment later ih =>
      obtain ⟨other, value⟩ := assignment
      obtain ⟨absent, freshLater⟩ := fresh_cons_iff.mp fresh
      have here := ih freshLater
      rw [get?_set] at here
      by_cases same : field = other
      · subst same
        have notLater : later.lookup field = .none := by
          rw [List.lookup_eq_none_iff]
          intro assignment member
          rw [bne_iff_ne]
          rintro rfl
          exact (List.nodup_cons.mp fresh.once).1 (List.mem_map.mpr ⟨assignment, member, rfl⟩)
        rw [notLater, if_pos rfl] at here
        simpa [setAll] using here
      · rw [if_neg same] at here
        simpa [setAll, List.lookup_cons, beq_eq_false_iff_ne.mpr same] using here

theorem apply_eq_iff {given : Overrides} {settings : Settings} : given.apply = settings ↔
    ∀ field, settings.get field = (given.get? field).getD (defaults.get field) := by
  have applied (field : Field) :
      given.apply.get field = (given.get? field).getD (defaults.get field) := by
    cases field with
    | input => rfl
    | output => rfl
    | wrapper => rfl
  constructor
  · rintro rfl
    exact applied
  · intro overlaid
    exact ext_get fun field => (applied field).trans (overlaid field).symm

end Overrides

end ScopedCss.Settings
