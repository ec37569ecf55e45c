import ChainClient.Assoc
import Mathlib.Data.List.Perm.Basic

/-! Association lists in which every key stands once. -/

namespace ChainClient.Assoc

variable {α β : Type} [DecidableEq α] {entries others : List (α × β)} {key : α} {value : β}

/-- What is found under a key is its only entry. -/
theorem lookup_eq_some_iff_mem (h : (keys entries).Nodup) :
    entries.lookup key = some value ↔ (key, value) ∈ entries := by
  refine ⟨mem_of_lookup, fun hmem => ?_⟩
  induction entries with
  | nil => cases hmem
  | cons entry rest ih =>
      obtain ⟨other, found⟩ := entry
      obtain ⟨hother, hrest⟩ := List.nodup_cons.mp h
      rcases List.mem_cons.mp hmem with hfirst | hlater
      · cases hfirst
        exact List.lookup_cons_self
      · have hne : key ≠ other := by
          rintro rfl
          exact hother (mem_keys.mpr ⟨value, hlater⟩)
        rw [List.lookup_cons, beq_eq_false_iff_ne.mpr hne]
        exact ih hrest hlater

theorem lookup_of_perm (h : (keys entries).Nodup) (hperm : others.Perm entries) :
    others.lookup key = entries.lookup key := by
  have hothers : (keys others).Nodup := (hperm.map Prod.fst).nodup_iff.mpr h
  apply Option.ext
  intro value
  rw [lookup_eq_some_iff_mem hothers, lookup_eq_some_iff_mem h, hperm.mem_iff]

theorem lookup_map {γ : Type} (f : β → γ) (entries : List (α × β)) (key : α) :
    (entries.map fun (other, value) => (other, f value)).lookup key =
      (entries.lookup key).map f := by
  induction entries with
  | nil => rfl
  | cons entry rest ih =>
      obtain ⟨other, value⟩ := entry
      by_cases h : key = other
      · simp [h]
      · simpa [List.lookup_cons, beq_eq_false_iff_ne.mpr h] using ih

theorem mem_of_mem_put {entry : α × β} (h : entry ∈ put key value entries) :
    entry = (key, value) ∨ entry ∈ entries := by
  induction entries with
  | nil => exact .inl (List.mem_singleton.mp h)
  | cons first rest ih =>
      rw [put] at h
      split at h
      case isTrue => exact (List.mem_cons.mp h).imp id (List.mem_cons_of_mem first)
      case isFalse =>
        rcases List.mem_cons.mp h with rfl | h
        · exact .inr List.mem_cons_self
        · exact (ih h).imp id (List.mem_cons_of_mem first)

theorem mem_keys_put {other : α} :
    other ∈ keys (put key value entries) ↔ other = key ∨ other ∈ keys entries := by
  induction entries with
  | nil => simp [keys]
  | cons entry rest ih =>
      obtain ⟨first, old⟩ := entry
      by_cases h : first = key
      · subst h
        simp [put, keys]
      · simp only [keys] at ih
        simp only [put, h, if_false, keys, List.map_cons, List.mem_cons, ih]
        grind

theorem nodup_keys_put (h : (keys entries).Nodup) :
    (keys (put key value entries)).Nodup := by
  induction entries with
  | nil => simp [keys]
  | cons entry rest ih =>
      obtain ⟨first, old⟩ := entry
      obtain ⟨hfirst, hrest⟩ := List.nodup_cons.mp h
      by_cases hkey : first = key
      · subst hkey
        simpa [put, keys] using h
      · rw [put, if_neg hkey]
        refine List.nodup_cons.mpr ⟨fun hmem => ?_, ih hrest⟩
        rcases mem_keys_put.mp hmem with rfl | hmem
        · exact hkey rfl
        · exact hfirst hmem

end ChainClient.Assoc
