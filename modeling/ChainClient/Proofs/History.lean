import Mathlib.Data.List.Induction

/-! What has come about in a history and has not ended since. -/

namespace ChainClient

variable {ε : Type} {begins ends : List ε → ε → Prop} {past : List ε} {event : ε}

/-- `begins` held of some event, and `ends` of none after it.  Both are told of an
event and of those before it. -/
def Since (begins ends : List ε → ε → Prop) (past : List ε) : Prop :=
  ∃ before first since, past = before ++ first :: since ∧ begins before first ∧
    ∀ earlier event later, since = earlier ++ event :: later →
      ¬ ends (before ++ first :: earlier) event

theorem not_since_nil : ¬ Since begins ends [] := by
  rintro ⟨before, first, since, hpast, -, -⟩
  simp at hpast

theorem since_append_singleton :
    Since begins ends (past ++ [event]) ↔
      begins past event ∨ Since begins ends past ∧ ¬ ends past event := by
  constructor
  · rintro ⟨before, first, since, hpast, hbegins, hsince⟩
    -- Either the last event is the first one of these, or it is
    -- the last of those since then.
    rcases List.eq_nil_or_concat since with rfl | ⟨since, last, rfl⟩
    · obtain ⟨rfl, hlast⟩ := List.append_inj' hpast rfl
      cases hlast
      exact .inl hbegins
    · rw [List.concat_eq_append, ← List.cons_append, ← List.append_assoc] at hpast
      obtain ⟨rfl, hlast⟩ := List.append_inj' hpast rfl
      cases hlast
      refine .inr ⟨⟨before, first, since, rfl, hbegins, ?_⟩,
        hsince since event [] (by simp)⟩
      intro earlier other later hsplit
      exact hsince earlier other (later ++ [event]) (by simp [hsplit])
  · rintro (hbegins | ⟨⟨before, first, since, rfl, hbegins, hsince⟩, hends⟩)
    · exact ⟨past, event, [], rfl, hbegins, by simp⟩
    · refine ⟨before, first, since ++ [event], by simp, hbegins, ?_⟩
      intro earlier other later hsplit
      rcases List.eq_nil_or_concat later with rfl | ⟨later, last, rfl⟩
      · obtain ⟨rfl, hlast⟩ := List.append_inj' hsplit rfl
        cases hlast
        exact hends
      · rw [List.concat_eq_append, ← List.cons_append, ← List.append_assoc] at hsplit
        obtain ⟨rfl, -⟩ := List.append_inj' hsplit rfl
        exact hsince earlier other later rfl

/-- What each event begins, ends or leaves as it is can be told from the history. -/
theorem iff_since (holds : List ε → Prop) (hnil : ¬ holds [])
    (hstep : ∀ past event, holds (past ++ [event]) ↔
      begins past event ∨ holds past ∧ ¬ ends past event) (past : List ε) :
    holds past ↔ Since begins ends past := by
  induction past using List.reverseRecOn with
  | nil => exact iff_of_false hnil not_since_nil
  | append_singleton past event ih => rw [hstep, ih, since_append_singleton]

end ChainClient
