import ChainClient.Proofs.Cache.Store

/-! Which keys a store lists, and which it takes. -/

namespace ChainClient

namespace Directory

/-- A file can be written under the name, and be removed if there is one. -/
def Takes (directory : Directory) (name : String) : Prop :=
  match directory.entries? with
  | none => False
  | some entries =>
      name.utf8ByteSize ≤ maxNameLength ∧ entries.lookup name ≠ some .directory

instance (directory : Directory) (name : String) : Decidable (directory.Takes name) := by
  unfold Takes
  split <;> infer_instance

variable {entries : List (String × DirectoryEntry)} {name : String}

theorem write_of_takes (h : (⟨some entries⟩ : Directory).Takes name) (content : Bytes) :
    (⟨some entries⟩ : Directory).write name content =
      .ok ⟨some (Assoc.put name (.file content) entries)⟩ := by
  obtain ⟨hshort, hfile⟩ := h
  simp only [write, if_neg (Nat.not_lt.mpr hshort), if_neg hfile]

theorem remove_of_takes (h : (⟨some entries⟩ : Directory).Takes name) :
    (⟨some entries⟩ : Directory).remove name =
      if (entries.lookup name).isSome then .ok ⟨some (Assoc.erase name entries)⟩
      else .error .notFound := by
  obtain ⟨hshort, hfile⟩ := h
  rw [remove, find_some, if_neg (Nat.not_lt.mpr hshort)]
  cases hentry : entries.lookup name with
  | none => rfl
  | some entry =>
      cases entry with
      | directory => exact absurd hentry hfile
      | file content => rfl

theorem takes_put (content : Bytes) {other : String}
    (h : (⟨some entries⟩ : Directory).Takes other) :
    (⟨some (Assoc.put name (.file content) entries)⟩ : Directory).Takes other := by
  refine ⟨h.1, ?_⟩
  rw [Assoc.lookup_put]
  split
  case isTrue => nofun
  case isFalse => exact h.2

theorem takes_erase {other : String} (h : (⟨some entries⟩ : Directory).Takes other) :
    (⟨some (Assoc.erase name entries)⟩ : Directory).Takes other := by
  refine ⟨h.1, ?_⟩
  rw [Assoc.lookup_erase]
  split
  case isTrue => nofun
  case isFalse => exact h.2

theorem mem_files {names : List String}
    (h : (⟨some entries⟩ : Directory).files = .ok names) :
    name ∈ names ↔ ∃ content, (name, .file content) ∈ entries := by
  cases h
  simp only [List.mem_filterMap, Prod.exists]
  constructor
  · rintro ⟨other, entry, hmem, hname⟩
    cases entry with
    | directory => cases hname
    | file content =>
        cases hname
        exact ⟨content, hmem⟩
  · rintro ⟨content, hmem⟩
    exact ⟨name, .file content, hmem, rfl⟩

end Directory

namespace Store

/-- The key is accepted, and writing and removing it meet no error. -/
def Takes (store : Store) (key : String) : Prop :=
  match store with
  | .memory _ => True
  | .files directory => isFileKey key = true ∧ directory.Takes key

instance (store : Store) (key : String) : Decidable (store.Takes key) := by
  unfold Takes
  split <;> infer_instance

def Lists (store : Store) (key : String) : Prop :=
  ∃ keys, store.keys = .ok keys ∧ key ∈ keys

/-- The keys can be listed, and the store takes each of them. -/
structure Sound (store : Store) : Prop where
  listed : ∃ keys, store.keys = .ok keys
  takes : ∀ key, store.Lists key → store.Takes key

variable {store store' : Store} {key other : String}

theorem lists_memory {entries : List (String × String)} :
    (Store.memory entries).Lists key ↔ ∃ value, (key, value) ∈ entries := by
  refine ⟨?_, fun ⟨value, hmem⟩ => ⟨_, rfl, Assoc.mem_keys.mpr ⟨value, hmem⟩⟩⟩
  rintro ⟨keys, hkeys, hmem⟩
  cases hkeys
  exact Assoc.mem_keys.mp hmem

theorem lists_files {entries : List (String × DirectoryEntry)} :
    (Store.files ⟨some entries⟩).Lists key ↔ ∃ content, (key, .file content) ∈ entries := by
  refine ⟨?_, fun h => ⟨_, rfl, (Directory.mem_files rfl).mpr h⟩⟩
  rintro ⟨keys, hkeys, hmem⟩
  cases hkeys
  exact (Directory.mem_files rfl).mp hmem

theorem sound_memory (entries : List (String × String)) : (Store.memory entries).Sound :=
  ⟨⟨_, rfl⟩, fun _ _ => trivial⟩

theorem entries_of_takes {directory : Directory} (h : (Store.files directory).Takes key) :
    isFileKey key = true ∧ ∃ entries, directory = ⟨some entries⟩ ∧ directory.Takes key := by
  obtain ⟨hkey, htakes⟩ := h
  obtain ⟨entries?⟩ := directory
  cases entries? with
  | none => exact htakes.elim
  | some entries => exact ⟨hkey, entries, rfl, htakes⟩

/-- What is found can be listed. -/
theorem lists_of_get {text : String} (h : store.get key = .ok (some text)) :
    store.Lists key := by
  cases store with
  | memory entries =>
      refine lists_memory.mpr ⟨text, Assoc.mem_of_lookup ?_⟩
      simpa only [get, Except.ok.injEq] using h
  | files directory =>
      obtain ⟨-, -, h⟩ := bind_eq_ok.mp h
      split at h
      case h_1 found hread =>
        obtain ⟨entry, hfind, hread⟩ := bind_eq_ok.mp hread
        obtain ⟨entries, hentries, -, hlookup⟩ := Directory.find_eq_ok hfind
        obtain ⟨entries?⟩ := directory
        cases hentries
        cases entry with
        | directory => cases hread
        | file content => exact lists_files.mpr ⟨content, Assoc.mem_of_lookup hlookup⟩
      case h_2 => cases h
      case h_3 => cases h

/-- One key is given a value or loses the one that it has, and
the others stay as they are. -/
structure Changes (key : String) (value? : Option String) (store store' : Store) :
    Prop where
  get : ∀ other, store'.get other = if other = key then .ok value? else store.get other
  lists : ∀ other, store'.Lists other ↔ if other = key then value? ≠ none
    else store.Lists other
  takes : ∀ other, store.Takes other → store'.Takes other
  listed : (∃ keys, store.keys = .ok keys) → ∃ keys, store'.keys = .ok keys

theorem Changes.sound {value? : Option String} (h : Changes key value? store store')
    (hsound : store.Sound) (hkey : store.Takes key) : store'.Sound where
  listed := h.listed hsound.listed
  takes other hlists := by
    apply h.takes
    rw [h.lists] at hlists
    split at hlists
    case isTrue hother =>
      subst hother
      exact hkey
    case isFalse => exact hsound.takes other hlists

theorem set_of_takes (h : store.Takes key) (value : String) :
    ∃ store', store.set key value = .ok store' ∧ Changes key (some value) store store' := by
  cases store with
  | memory entries =>
      refine ⟨_, rfl, get_set rfl, fun other => ?_, fun _ _ => trivial, fun _ => ⟨_, rfl⟩⟩
      rw [lists_memory]
      split
      case isTrue hother =>
        subst hother
        exact iff_of_true ⟨value, Assoc.mem_put_self _ _ _⟩ nofun
      case isFalse hother => simp only [lists_memory, Assoc.mem_put_of_ne hother]
  | files directory =>
      obtain ⟨hkey, entries, rfl, htakes⟩ := entries_of_takes h
      have hset : (Store.files ⟨some entries⟩).set key value =
          .ok (.files ⟨some (Assoc.put key (.file (Bytes.ofString value)) entries)⟩) := by
        rw [set, checkKey, if_pos hkey, ok_bind, Directory.write_of_takes htakes]
      refine ⟨_, hset, get_set hset, fun other => ?_, fun other hother => ?_,
        fun _ => ⟨_, rfl⟩⟩
      · rw [lists_files]
        split
        case isTrue hother =>
          subst hother
          exact iff_of_true ⟨_, Assoc.mem_put_self _ _ _⟩ nofun
        case isFalse hother => simp only [lists_files, Assoc.mem_put_of_ne hother]
      · exact ⟨hother.1, Directory.takes_put _ hother.2⟩

theorem remove_of_takes (h : store.Takes key) :
    ∃ store', store.remove key = .ok store' ∧ Changes key none store store' := by
  cases store with
  | memory entries =>
      refine ⟨_, rfl, get_remove rfl, fun other => ?_, fun _ _ => trivial,
        fun _ => ⟨_, rfl⟩⟩
      simp only [lists_memory, Assoc.mem_erase]
      split
      case isTrue hother => simp [hother]
      case isFalse hother => simp [hother]
  | files directory =>
      obtain ⟨hkey, entries, rfl, htakes⟩ := entries_of_takes h
      have hremove : ∃ kept,
          (Store.files ⟨some entries⟩).remove key = .ok (.files ⟨some kept⟩) ∧
          (∀ other found, (other, found) ∈ kept ↔ other ≠ key ∧ (other, found) ∈ entries) ∧
          ∀ other, (⟨some entries⟩ : Directory).Takes other →
            (⟨some kept⟩ : Directory).Takes other := by
        rw [remove, checkKey, if_pos hkey, ok_bind, Directory.remove_of_takes htakes]
        cases hentry : entries.lookup key with
        | some entry =>
            refine ⟨_, rfl, fun other found => Assoc.mem_erase key other found entries, ?_⟩
            exact fun other hother => Directory.takes_erase hother
        | none =>
            refine ⟨_, rfl, fun other found => ?_, fun _ hother => hother⟩
            have habsent := List.lookup_eq_none_iff.mp hentry
            constructor
            · intro hmem
              refine ⟨?_, hmem⟩
              rintro rfl
              simpa using habsent _ hmem
            · exact And.right
      obtain ⟨kept, hremove, hmem, hkept⟩ := hremove
      refine ⟨_, hremove, get_remove hremove, fun other => ?_, fun other hother => ?_,
        fun _ => ⟨_, rfl⟩⟩
      · simp only [lists_files, hmem]
        split
        case isTrue hother => simp [hother]
        case isFalse hother => simp [hother]
      · exact ⟨hother.1, hkept other hother.2⟩

end Store

end ChainClient
