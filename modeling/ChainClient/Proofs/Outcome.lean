/-! When a computation that may fail succeeds. -/

namespace ChainClient

variable {ε α β : Type}

theorem bind_eq_ok {first : Except ε α} {next : α → Except ε β} {outcome : β} :
    first >>= next = .ok outcome ↔
      ∃ value, first = .ok value ∧ next value = .ok outcome := by
  cases first with
  | error error => simp [bind, Except.bind]
  | ok value => simp [bind, Except.bind]

theorem map_eq_ok {first : Except ε α} {f : α → β} {outcome : β} :
    f <$> first = .ok outcome ↔ ∃ value, first = .ok value ∧ f value = outcome := by
  cases first with
  | error error => simp [Functor.map, Except.map]
  | ok value => simp [Functor.map, Except.map]

theorem map_eq_error {first : Except ε α} {f : α → β} {error : ε} :
    f <$> first = .error error ↔ first = .error error := by
  cases first with
  | error other => simp [Functor.map, Except.map]
  | ok value => simp [Functor.map, Except.map]

theorem mapError_eq_ok {ε' : Type} {first : Except ε α} {f : ε → ε'} {outcome : α} :
    first.mapError f = .ok outcome ↔ first = .ok outcome := by
  cases first with
  | error error => constructor <;> intro h <;> cases h
  | ok value =>
      constructor
      · intro h
        cases h
        rfl
      · intro h
        cases h
        rfl

theorem mapError_eq_error {ε' : Type} {first : Except ε α} {f : ε → ε'} {error : ε'} :
    first.mapError f = .error error ↔ ∃ cause, first = .error cause ∧ f cause = error := by
  cases first with
  | error cause =>
      constructor
      · intro h
        cases h
        exact ⟨cause, rfl, rfl⟩
      · rintro ⟨other, hother, rfl⟩
        cases hother
        rfl
  | ok value =>
      constructor
      · intro h
        cases h
      · rintro ⟨other, hother, -⟩
        cases hother

theorem ok_of_toOption {first : Except ε α} {outcome : α}
    (h : first.toOption = some outcome) : first = .ok outcome := by
  cases first with
  | error error => cases h
  | ok value =>
      cases h
      rfl

@[simp] theorem ok_bind (value : α) (next : α → Except ε β) :
    (Except.ok value >>= next) = next value := rfl

@[simp] theorem map_ok (value : α) (f : α → β) :
    (f <$> (Except.ok value : Except ε α)) = .ok (f value) := rfl

theorem exists_of_mem_mapM {f : α → Option β} {entries : List α} {results : List β}
    (h : entries.mapM f = some results) {result : β} (hmem : result ∈ results) :
    ∃ entry, f entry = some result := by
  induction entries generalizing results with
  | nil =>
      cases h
      cases hmem
  | cons entry rest ih =>
      rw [List.mapM_cons] at h
      obtain ⟨first, hfirst, h⟩ := Option.bind_eq_some_iff.mp h
      obtain ⟨others, hothers, h⟩ := Option.bind_eq_some_iff.mp h
      cases h
      rcases List.mem_cons.mp hmem with rfl | hmem
      · exact ⟨entry, hfirst⟩
      · exact ih hothers hmem

theorem ok_of_mem_mapM {f : α → Except ε β} {entries : List α} {results : List β}
    (h : entries.mapM f = .ok results) :
    ∀ entry ∈ entries, ∃ result, f entry = .ok result := by
  induction entries generalizing results with
  | nil => nofun
  | cons entry rest ih =>
      rw [List.mapM_cons] at h
      obtain ⟨first, hfirst, h⟩ := bind_eq_ok.mp h
      obtain ⟨others, hothers, -⟩ := bind_eq_ok.mp h
      exact List.forall_mem_cons.mpr ⟨⟨first, hfirst⟩, ih hothers⟩

theorem error_of_mapM {f : α → Except ε β} {entries : List α} {error : ε}
    (h : entries.mapM f = .error error) : ∃ entry ∈ entries, f entry = .error error := by
  induction entries with
  | nil => cases h
  | cons entry rest ih =>
      rw [List.mapM_cons] at h
      cases hfirst : f entry with
      | error other =>
          rw [hfirst] at h
          cases h
          exact ⟨entry, List.mem_cons_self, hfirst⟩
      | ok first =>
          rw [hfirst, ok_bind] at h
          cases hothers : rest.mapM f with
          | error other =>
              rw [hothers] at h
              cases h
              obtain ⟨failing, hmem, hfails⟩ := ih hothers
              exact ⟨failing, List.mem_cons_of_mem entry hmem, hfails⟩
          | ok others =>
              rw [hothers] at h
              cases h

theorem getElem?_of_mapM {f : α → Except ε β} {entries : List α} {results : List β}
    (h : entries.mapM f = .ok results) {position : Nat} {result : β}
    (hresult : results[position]? = some result) :
    ∃ entry, entries[position]? = some entry ∧ f entry = .ok result := by
  induction entries generalizing results position with
  | nil =>
      cases h
      cases hresult
  | cons entry rest ih =>
      rw [List.mapM_cons] at h
      obtain ⟨first, hfirst, h⟩ := bind_eq_ok.mp h
      obtain ⟨others, hothers, h⟩ := bind_eq_ok.mp h
      cases h
      cases position with
      | zero =>
          cases hresult
          exact ⟨entry, rfl, hfirst⟩
      | succ position => exact ih hothers hresult

end ChainClient
