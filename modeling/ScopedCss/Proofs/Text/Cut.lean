import ScopedCss.Text.Cut

set_option autoImplicit false

/-!
# Laws of cutting at a mark

There is one way to cut a text at the first occurrence of a mark. Where two cuts of a text at
different marks meet, the one that is no later lies within the other's first part. A text that
holds the mark can be cut at its last occurrence too.
-/

namespace ScopedCss.Text

theorem append_cons_inj {mark : Char} {before after otherBefore otherAfter : Text}
    (same : before ++ mark :: after = otherBefore ++ mark :: otherAfter)
    (absent : mark ∉ before) (otherAbsent : mark ∉ otherBefore) :
    before = otherBefore ∧ after = otherAfter := by
  have cut := cutAt?_eq_some_iff.mpr ⟨same, otherAbsent⟩
  rw [cutAt?_eq_some_iff.mpr ⟨rfl, absent⟩, Option.some.injEq, Prod.mk.injEq] at cut
  exact cut

theorem mem_of_append_cons_eq {before after first second : Text} {stop mark : Char}
    (same : before ++ stop :: after = first ++ mark :: second) (absent : mark ∉ before)
    (different : stop ≠ mark) : stop ∈ first := by
  rcases List.append_eq_append_iff.mp same with ⟨between, rfl, split⟩ | ⟨between, rfl, split⟩
  · cases between with
    | nil => exact absurd (List.cons.inj split).1 different
    | cons head between =>
        rw [(List.cons.inj split).1]
        simp
  · cases between with
    | nil => exact absurd (List.cons.inj split).1.symm different
    | cons head between =>
        rw [(List.cons.inj split).1] at absent
        exact absurd (by simp) absent

theorem exists_cut_at_last {mark : Char} {text : Text} (present : mark ∈ text) :
    ∃ before after, text = before ++ mark :: after ∧ mark ∉ after := by
  -- The last occurrence is the first one of the reversed text.
  obtain ⟨behind, front, reversed, absent⟩ :=
    List.eq_append_cons_of_mem (List.mem_reverse.mpr present)
  refine ⟨front.reverse, behind.reverse, ?_, by simpa using absent⟩
  rw [List.reverse_eq_iff.mp reversed]
  simp

end ScopedCss.Text
