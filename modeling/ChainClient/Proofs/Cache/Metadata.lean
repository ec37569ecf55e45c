import ChainClient.Cache.Metadata
import ChainClient.Proofs.Cache.Store

/-! What is found in the cache of metadata after a blob was filed. -/

namespace ChainClient.MetadataCache

/-! A key tells the implementation and the version that it is for. -/

theorem splitAtLastDash?_of_no_dash {text : List Char} (h : '-' ∉ text) :
    splitAtLastDash? text = none := by
  induction text with
  | nil => rfl
  | cons c rest ih =>
      simp only [List.mem_cons, not_or] at h
      rw [splitAtLastDash?, ih h.2]
      exact if_neg (Ne.symm h.1)

theorem splitAtLastDash?_append (front : List Char) {back : List Char} (h : '-' ∉ back) :
    splitAtLastDash? (front ++ '-' :: back) = some (front, back) := by
  induction front with
  | nil =>
      rw [List.nil_append, splitAtLastDash?, splitAtLastDash?_of_no_dash h]
      rfl
  | cons c front ih => rw [List.cons_append, splitAtLastDash?, ih]

theorem no_dash_in_digits (n : Nat) : '-' ∉ Nat.toDigits 10 n := by
  intro h
  have := Nat.isDigit_of_mem_toDigits (by decide) (by decide) h
  simp [Char.isDigit] at this

theorem toList_key (implName : String) (specVersion : Nat) :
    (key implName specVersion).toList = implName.toList ++
      '-' :: Nat.toDigits 10 specVersion := by
  simp [key, toString]

theorem splitAtLastDash?_key (implName : String) (specVersion : Nat) :
    splitAtLastDash? (key implName specVersion).toList =
      some (implName.toList, Nat.toDigits 10 specVersion) := by
  rw [toList_key, splitAtLastDash?_append _ (no_dash_in_digits specVersion)]

theorem key_inj {implName other : String} {specVersion otherVersion : Nat}
    (h : key implName specVersion = key other otherVersion) :
    implName = other ∧ specVersion = otherVersion := by
  have hsplit := splitAtLastDash?_key implName specVersion
  rw [h, splitAtLastDash?_key, Option.some.injEq, Prod.mk.injEq] at hsplit
  refine ⟨String.toList_injective hsplit.1.symm, ?_⟩
  have hdigits := congrArg (Nat.ofDigitChars 10 · 0) hsplit.2
  simpa only [Nat.ofDigitChars_ten_toDigits] using hdigits.symm

/-! Filing a blob. -/

variable {store store' : Store}

theorem get?_eq_some {implName text : String} {specVersion : Nat} :
    get? store implName specVersion = some text ↔
      store.get (key implName specVersion) = .ok (some text) := by
  unfold get?
  cases store.get (key implName specVersion) with
  | ok blob? => simp
  | error error => simp

/-- Evicting removes blobs and changes none. -/
theorem get_of_evict {keys : List String} {outcome : Except CacheError Unit}
    (h : evict store keys = (store', outcome)) {other text : String}
    (hget : store'.get other = .ok (some text)) : store.get other = .ok (some text) := by
  induction keys generalizing store with
  | nil =>
      cases h
      exact hget
  | cons key rest ih =>
      rw [evict] at h
      cases hremove : store.remove key with
      | error error =>
          rw [hremove] at h
          cases h
          exact hget
      | ok next =>
          rw [hremove] at h
          have hnext := ih h
          rw [Store.get_remove hremove] at hnext
          split at hnext
          case isTrue => cases hnext
          case isFalse => exact hnext

/-- After a blob is filed, what is found is that blob or was found before. -/
theorem get?_replace {implName blob : String} {specVersion : Nat} {other text : String}
    {otherVersion : Nat}
    (h : get? (replace store implName specVersion blob).1 other otherVersion = some text) :
    (other = implName ∧ otherVersion = specVersion ∧ text = blob) ∨
      get? store other otherVersion = some text := by
  simp only [get?_eq_some] at h ⊢
  unfold replace at h
  cases hkeys : store.keys with
  | error error =>
      rw [hkeys] at h
      exact .inr h
  | ok keys =>
      rw [hkeys] at h
      dsimp only at h
      rcases hevict : evict store (keys.filter (isEntryOf implName)) with ⟨evicted, outcome⟩
      rw [hevict] at h
      cases outcome with
      | error error => exact .inr (get_of_evict hevict h)
      | ok _ =>
          dsimp only at h
          cases hset : evicted.set (key implName specVersion) blob with
          | error error =>
              rw [hset] at h
              exact .inr (get_of_evict hevict h)
          | ok filed =>
              rw [hset] at h
              dsimp only at h
              rw [Store.get_set hset] at h
              split at h
              case isTrue hkey =>
                cases h
                obtain ⟨hname, hversion⟩ := key_inj hkey
                exact .inl ⟨hname, hversion, rfl⟩
              case isFalse => exact .inr (get_of_evict hevict h)

theorem get?_of_replace {filed : Store} {implName blob : String} {specVersion : Nat}
    (h : replace store implName specVersion blob = (filed, .ok ())) :
    get? filed implName specVersion = some blob := by
  unfold replace at h
  split at h
  case h_1 => cases h
  case h_2 =>
    split at h
    case h_1 => cases h
    case h_2 =>
      split at h
      case h_2 => cases h
      case h_1 hset =>
        cases h
        rw [get?_eq_some, Store.get_set hset, if_pos rfl]

end ChainClient.MetadataCache
