import ChainClient.Proofs.Codec.RoundTrip
import ChainClient.Storage.Key

/-! What can be read off the key of a map's entry.  The encoded key stands at its end, so
entries are told apart by their encodings, whatever the hashes before them are. -/

namespace ChainClient

open Codec

namespace StorageKey

variable {hasher : Hasher} {registry : TypeRegistry} {pallet : String} {item : StorageItem}

@[simp] theorem length_plain (hasher : Hasher) (pallet item : String) :
    (plain hasher pallet item).length = 32 := by
  simp [plain]

theorem singleHasher_eq_ok {hashers : List StorageHasher} {single : StorageHasher} :
    singleHasher hashers = .ok single ↔ hashers = [single] := by
  match hashers with
  | [] => simp [singleHasher]
  | [_] => simp [singleHasher]
  | _ :: _ :: _ => simp [singleHasher]

/-- The hashers that keep a key, and what they put before it. -/
theorem keyHash?_eq_some {storageHasher : StorageHasher} {encoded hash : Bytes} :
    keyHash? hasher storageHasher encoded = some hash ↔
      storageHasher = .blake2_128Concat ∧ hash = (hasher.blake2_128 encoded).toList ∨
      storageHasher = .twox64Concat ∧ hash = (hasher.twox_64 encoded).toList := by
  cases storageHasher <;> simp [keyHash?, eq_comm]

theorem length_keyHash? {storageHasher : StorageHasher}
    {encoded other hash otherHash : Bytes}
    (h : keyHash? hasher storageHasher encoded = some hash)
    (hother : keyHash? hasher storageHasher other = some otherHash) :
    hash.length = otherHash.length := by
  rcases keyHash?_eq_some.mp h with ⟨rfl, rfl⟩ | ⟨rfl, rfl⟩
  · cases hother
    simp
  · cases hother
    simp

theorem entry_eq_ok {key : Value} {storageKey : StorageKey} :
    entry hasher registry pallet item key = .ok storageKey ↔
      ∃ storageHasher keyType valueType encoded hash,
        item.kind = .map [storageHasher] keyType valueType ∧
        encode registry keyType key = .ok encoded ∧
        keyHash? hasher storageHasher encoded = some hash ∧
        storageKey = plain hasher pallet item.name ++ hash ++ encoded := by
  unfold entry
  cases item.kind with
  | plain type => simp
  | map hashers keyType valueType =>
      simp only [bind_eq_ok, singleHasher_eq_ok, mapError_eq_ok, StorageKind.map.injEq]
      constructor
      · rintro ⟨storageHasher, rfl, encoded, hencoded, h⟩
        cases hhash : keyHash? hasher storageHasher encoded with
        | none =>
            rw [hhash] at h
            cases h
        | some hash =>
            rw [hhash] at h
            cases h
            exact ⟨storageHasher, keyType, valueType, encoded, hash,
              ⟨rfl, rfl, rfl⟩, hencoded,
              hhash, rfl⟩
      · rintro ⟨storageHasher, _, _, encoded, hash, ⟨rfl, rfl, rfl⟩, hencoded, hhash, rfl⟩
        refine ⟨storageHasher, rfl, encoded, hencoded, ?_⟩
        rw [hhash]

/-- Both keys go through the same hasher, so their hashes end at the same place. -/
theorem entry_inj {key other : Value} {storageHasher : StorageHasher}
    {keyType valueType : TypeId}
    (hkind : item.kind = .map [storageHasher] keyType valueType)
    {encoded otherEncoded : Bytes} (hencoded : encode registry keyType key = .ok encoded)
    (hother : encode registry keyType other = .ok otherEncoded)
    {storageKey otherKey : StorageKey}
    (hkey : entry hasher registry pallet item key = .ok storageKey)
    (hotherKey : entry hasher registry pallet item other = .ok otherKey) :
    storageKey = otherKey ↔ encoded = otherEncoded := by
  obtain ⟨_, _, _, _, hash, hsame, hwritten, hhash, rfl⟩ := entry_eq_ok.mp hkey
  cases hkind.symm.trans hsame
  cases hencoded.symm.trans hwritten
  obtain ⟨_, _, _, _, otherHash, hsame, hwritten, hotherHash, rfl⟩ :=
    entry_eq_ok.mp hotherKey
  cases hkind.symm.trans hsame
  cases hother.symm.trans hwritten
  constructor
  · intro hequal
    have hlength : (plain hasher pallet item.name ++ hash).length =
        (plain hasher pallet item.name ++ otherHash).length := by
      rw [List.length_append, List.length_append, length_keyHash? hhash hotherHash]
    exact (List.append_inj hequal hlength).2
  · rintro rfl
    cases hhash.symm.trans hotherHash
    rfl

/-- An entry has a key exactly if the map has one hasher that keeps keys and its key can be
written; that key ends in what was written, from which it is read back to the last byte, and
entries have the same key exactly if theirs are written the same. -/
theorem entry_keeps_key (hasher : Hasher) (hindices : registry.DistinctVariantIndices)
    (pallet : String) (item : StorageItem) (key : Value) :
    ((∃ storageKey, entry hasher registry pallet item key = .ok storageKey) ↔
      ∃ storageHasher keyType valueType encoded,
        item.kind = .map [storageHasher] keyType valueType ∧
        (storageHasher = .blake2_128Concat ∨ storageHasher = .twox64Concat) ∧
        encode registry keyType key = .ok encoded) ∧
    ∀ storageKey, entry hasher registry pallet item key = .ok storageKey →
      ∃ storageHasher keyType valueType encoded hash,
        item.kind = .map [storageHasher] keyType valueType ∧
        encode registry keyType key = .ok encoded ∧
        (plain hasher pallet item.name).length = 32 ∧
        (storageHasher = .blake2_128Concat ∧ hash = (hasher.blake2_128 encoded).toList ∧
            hash.length = 16 ∨
          storageHasher = .twox64Concat ∧ hash = (hasher.twox_64 encoded).toList ∧
            hash.length = 8) ∧
        storageKey = plain hasher pallet item.name ++ hash ++ encoded ∧
        (∃ value, decode registry keyType encoded = .ok (value, encoded.length)) ∧
        ∀ other otherKey otherEncoded,
          entry hasher registry pallet item other = .ok otherKey →
          encode registry keyType other = .ok otherEncoded →
          (storageKey = otherKey ↔ encoded = otherEncoded) := by
  constructor
  · constructor
    · rintro ⟨storageKey, h⟩
      obtain ⟨storageHasher, keyType, valueType, encoded, hash,
        hkind, hencoded, hhash, -⟩ := entry_eq_ok.mp h
      refine ⟨storageHasher, keyType, valueType, encoded, hkind, ?_, hencoded⟩
      exact (keyHash?_eq_some.mp hhash).imp And.left And.left
    · rintro ⟨storageHasher, keyType, valueType, encoded, hkind, hkeeps, hencoded⟩
      obtain ⟨hash, hhash⟩ : ∃ hash, keyHash? hasher storageHasher encoded = some hash := by
        rcases hkeeps with rfl | rfl <;> exact ⟨_, rfl⟩
      exact ⟨_, entry_eq_ok.mpr
        ⟨storageHasher, keyType, valueType, encoded, hash, hkind, hencoded, hhash, rfl⟩⟩
  · intro storageKey h
    obtain ⟨storageHasher, keyType, valueType, encoded, hash,
      hkind, hencoded, hhash, hparts⟩ := entry_eq_ok.mp h
    refine ⟨storageHasher, keyType, valueType, encoded, hash, hkind, hencoded,
      length_plain .., ?_, hparts, ?_, fun other otherKey otherEncoded hother hwritten =>
        entry_inj hkind hencoded hwritten h hother⟩
    · rcases keyHash?_eq_some.mp hhash with ⟨rfl, rfl⟩ | ⟨rfl, rfl⟩
      · exact .inl ⟨rfl, rfl, by simp⟩
      · exact .inr ⟨rfl, rfl, by simp⟩
    · obtain ⟨value, hreads, -⟩ := settles_within hindices maxDepth keyType hencoded
      exact ⟨value, by simpa using decode_of_reads hreads []⟩

def statuses : StorageItem := ⟨"Statuses", .map [.blake2_128Concat] 7 0, []⟩

/-- The statuses differ in one option, so their entries do. -/
theorem entry_keeps_key_statuses :
    statusRegistry.DistinctVariantIndices ∧
      ∃ storageKey otherKey,
        entry .standard statusRegistry "Nodes" statuses typedStatus = .ok storageKey ∧
        entry .standard statusRegistry "Nodes" statuses busyStatus = .ok otherKey ∧
        storageKey ≠ otherKey := by
  have hindices : statusRegistry.DistinctVariantIndices := by decide
  have htyped : encode statusRegistry 7 typedStatus = .ok [2, 1, 1, 4, 0, 8, 7, 9] := rfl
  have hbusy : encode statusRegistry 7 busyStatus = .ok [2, 1, 1, 4, 1, 0, 8, 7, 9] := rfl
  obtain ⟨storageKey, hkey⟩ :=
    (entry_keeps_key .standard hindices "Nodes" statuses typedStatus).1.mpr
    ⟨_, _, _, _, rfl, .inl rfl, htyped⟩
  obtain ⟨otherKey, hother⟩ :=
    (entry_keeps_key .standard hindices "Nodes" statuses busyStatus).1.mpr
    ⟨_, _, _, _, rfl, .inl rfl, hbusy⟩
  refine ⟨hindices, storageKey, otherKey, hkey, hother, fun hsame => ?_⟩
  obtain ⟨_, _, _, _, _, hkind, hencoded, -, -, -, -, hinj⟩ :=
    (entry_keeps_key .standard hindices "Nodes" statuses typedStatus).2 storageKey hkey
  cases hkind
  cases htyped.symm.trans hencoded
  cases (hinj busyStatus otherKey _ hother hbusy).mp hsame

end StorageKey

end ChainClient
