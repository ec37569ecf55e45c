/-! Association lists without repeated keys.  A key keeps the place where it first stood. -/

namespace ChainClient.Assoc

variable {α β : Type} [DecidableEq α]

def put (key : α) (value : β) : List (α × β) → List (α × β)
  | [] => [(key, value)]
  | (other, old) :: rest =>
      if other = key then (key, value) :: rest else (other, old) :: put key value rest

def erase (key : α) : List (α × β) → List (α × β)
  | [] => []
  | (other, value) :: rest =>
      if other = key then erase key rest else (other, value) :: erase key rest

def keys (entries : List (α × β)) : List α := entries.map Prod.fst

@[simp] theorem put_nil (key : α) (value : β) : put key value [] = [(key, value)] := rfl

@[simp] theorem erase_nil (key : α) : erase key ([] : List (α × β)) = [] := rfl

theorem lookup_put (key other : α) (value : β) (entries : List (α × β)) :
    (put key value entries).lookup other =
      if other = key then some value else entries.lookup other := by
  induction entries with
  | nil =>
      by_cases h : other = key
      · simp [h]
      · simp [List.lookup_cons, h, beq_eq_false_iff_ne.mpr h]
  | cons entry rest ih =>
      obtain ⟨first, old⟩ := entry
      by_cases hfirst : first = key
      · subst hfirst
        by_cases h : other = first
        · simp [put, h]
        · simp [put, List.lookup_cons, h, beq_eq_false_iff_ne.mpr h]
      · by_cases h : other = first
        · subst h
          simp [put, hfirst]
        · simp only [put, hfirst, if_false, List.lookup_cons, beq_eq_false_iff_ne.mpr h, ih]

theorem put_eq_self_iff {key : α} {value : β} {entries : List (α × β)} :
    put key value entries = entries ↔ entries.lookup key = some value := by
  induction entries with
  | nil => exact iff_of_false nofun nofun
  | cons entry rest ih =>
      obtain ⟨first, old⟩ := entry
      by_cases h : first = key
      · subst h
        simp [put, eq_comm]
      · simp [put, h, ih, List.lookup_cons, beq_eq_false_iff_ne.mpr (Ne.symm h)]

theorem lookup_erase (key other : α) (entries : List (α × β)) :
    (erase key entries).lookup other = if other = key then none
      else entries.lookup other := by
  induction entries with
  | nil => simp
  | cons entry rest ih =>
      obtain ⟨first, old⟩ := entry
      by_cases hfirst : first = key
      · subst hfirst
        by_cases h : other = first
        · rw [if_pos h] at ih ⊢
          simpa only [erase, if_true] using ih
        · simp [erase, ih, List.lookup_cons, h, beq_eq_false_iff_ne.mpr h]
      · by_cases h : other = first
        · subst h
          simp [erase, hfirst]
        · simp only [erase, hfirst, if_false, List.lookup_cons,
            beq_eq_false_iff_ne.mpr h, ih]

/-! The entries themselves.  Of several entries of one key,
putting replaces the first one. -/

theorem mem_put_self (key : α) (value : β) (entries : List (α × β)) :
    (key, value) ∈ put key value entries := by
  induction entries with
  | nil => exact List.mem_cons_self
  | cons entry rest ih =>
      obtain ⟨first, old⟩ := entry
      by_cases h : first = key
      · simp [put, h]
      · simp [put, h, ih]

theorem mem_put_of_ne {key other : α} (h : other ≠ key) (value found : β)
    (entries : List (α × β)) :
    (other, found) ∈ put key value entries ↔ (other, found) ∈ entries := by
  induction entries with
  | nil => simp [h]
  | cons entry rest ih =>
      obtain ⟨first, old⟩ := entry
      by_cases hfirst : first = key
      · subst hfirst
        simp [put, h]
      · simp [put, hfirst, ih]

theorem mem_erase (key other : α) (found : β) (entries : List (α × β)) :
    (other, found) ∈ erase key entries ↔ other ≠ key ∧ (other, found) ∈ entries := by
  induction entries with
  | nil => simp
  | cons entry rest ih =>
      obtain ⟨first, old⟩ := entry
      by_cases hfirst : first = key
      · subst hfirst
        simp only [erase, if_true, ih, List.mem_cons, Prod.mk.injEq]
        grind
      · simp only [erase, hfirst, if_false, ih, List.mem_cons, Prod.mk.injEq]
        grind

theorem mem_of_lookup {key : α} {value : β} {entries : List (α × β)}
    (h : entries.lookup key = some value) : (key, value) ∈ entries := by
  obtain ⟨before, after, rfl, -⟩ := List.lookup_eq_some_iff.mp h
  simp

omit [DecidableEq α] in
theorem mem_keys {other : α} {entries : List (α × β)} :
    other ∈ keys entries ↔ ∃ found, (other, found) ∈ entries := by
  simp [keys]

end ChainClient.Assoc
