import ChainClient.Cache.Store
import ChainClient.Proofs.Outcome
import ChainClient.Proofs.Text.Utf8

/-! What is read from a store after something was put into it or taken out of it. -/

namespace ChainClient

namespace Directory

variable {directory directory' : Directory} {name : String}

theorem find_eq_ok {entry : DirectoryEntry} (h : directory.find name = .ok entry) :
    ∃ entries, directory.entries? = some entries ∧ name.utf8ByteSize ≤ maxNameLength ∧
      entries.lookup name = some entry := by
  unfold find at h
  split at h
  case h_1 => cases h
  case h_2 entries hentries =>
    split at h
    case isTrue => cases h
    case isFalse hshort =>
      split at h
      case h_1 found hfound =>
        cases h
        exact ⟨entries, hentries, Nat.le_of_not_lt hshort, hfound⟩
      case h_2 => cases h

theorem write_eq_ok {content : Bytes} (h : directory.write name content = .ok directory') :
    ∃ entries, directory.entries? = some entries ∧ name.utf8ByteSize ≤ maxNameLength ∧
      directory' = ⟨some (Assoc.put name (.file content) entries)⟩ := by
  unfold write at h
  split at h
  case h_1 => cases h
  case h_2 entries hentries =>
    split at h
    case isTrue => cases h
    case isFalse hshort =>
      split at h
      case isTrue => cases h
      case isFalse =>
        cases h
        exact ⟨entries, hentries, Nat.le_of_not_lt hshort, rfl⟩

theorem remove_eq_ok (h : directory.remove name = .ok directory') :
    ∃ entries, directory.entries? = some entries ∧ name.utf8ByteSize ≤ maxNameLength ∧
      directory' = ⟨some (Assoc.erase name entries)⟩ := by
  obtain ⟨entry, hfind, h⟩ := bind_eq_ok.mp h
  obtain ⟨entries, hentries, hshort, -⟩ := find_eq_ok hfind
  cases entry with
  | directory => cases h
  | file content =>
      cases h
      exact ⟨entries, hentries, hshort, by rw [hentries]; rfl⟩

/-- What a name stands for where the directory exists. -/
theorem find_some (entries : List (String × DirectoryEntry)) (name : String) :
    (⟨some entries⟩ : Directory).find name =
      if maxNameLength < name.utf8ByteSize then .error .other
      else
        match entries.lookup name with
        | some entry => .ok entry
        | none => .error .notFound := rfl

theorem find_put (entries : List (String × DirectoryEntry)) (name other : String)
    (entry : DirectoryEntry) (hshort : name.utf8ByteSize ≤ maxNameLength) :
    (⟨some (Assoc.put name entry entries)⟩ : Directory).find other =
      if other = name then .ok entry else (⟨some entries⟩ : Directory).find other := by
  by_cases h : other = name
  · subst h
    simp [find_some, Assoc.lookup_put, Nat.not_lt.mpr hshort]
  · simp [find_some, Assoc.lookup_put, h]

theorem find_erase (entries : List (String × DirectoryEntry)) (name other : String)
    (hshort : name.utf8ByteSize ≤ maxNameLength) :
    (⟨some (Assoc.erase name entries)⟩ : Directory).find other =
      if other = name then .error .notFound
      else (⟨some entries⟩ : Directory).find other := by
  by_cases h : other = name
  · subst h
    simp [find_some, Assoc.lookup_erase, Nat.not_lt.mpr hshort]
  · simp [find_some, Assoc.lookup_erase, h]

theorem read_congr {other : String} (h : directory'.find other = directory.find other) :
    directory'.read other = directory.read other := by
  simp only [read, h]

theorem read_of_find_file {content : Bytes} {text : String}
    (hfind : directory.find name = .ok (.file content))
    (htext : content.toString? = some text) : directory.read name = .ok text := by
  simp only [read, hfind, ok_bind, htext]

theorem read_of_find_error {error : FileError}
    (hfind : directory.find name = .error error) : directory.read name = .error error := by
  simp only [read, hfind]
  rfl

end Directory

namespace Store

variable {store store' : Store} {key : String}

theorem get_files (directory : Directory) (key : String) :
    (Store.files directory).get key =
      (do
        checkKey key
        match directory.read key with
        | .ok text => .ok (some text)
        | .error .notFound => .ok none
        | .error .other => .error .io) := rfl

theorem get_files_congr {directory directory' : Directory} {other : String}
    (h : directory'.read other = directory.read other) :
    (Store.files directory').get other = (Store.files directory).get other := by
  rw [get_files, get_files, h]

/-- A value that was put under a key is found there, and nothing else changes. -/
theorem get_set {value : String} (h : store.set key value = .ok store') (other : String) :
    store'.get other = if other = key then .ok (some value) else store.get other := by
  cases store with
  | memory entries =>
      cases h
      simp only [get, Assoc.lookup_put]
      split <;> rfl
  | files directory =>
      obtain ⟨_, hkey, h⟩ := bind_eq_ok.mp h
      split at h
      case h_2 => cases h
      case h_1 directory' hwrite =>
        cases h
        obtain ⟨entries, hentries, hshort, rfl⟩ := Directory.write_eq_ok hwrite
        have hfind := Directory.find_put entries key other
          (.file (Bytes.ofString value)) hshort
        by_cases hother : other = key
        · subst hother
          rw [if_pos rfl] at hfind ⊢
          rw [get_files, hkey, ok_bind,
            Directory.read_of_find_file hfind (Bytes.toString?_ofString value)]
        · rw [if_neg hother] at hfind ⊢
          have hdirectory : directory = ⟨some entries⟩ := by
            rw [← hentries]
          rw [hdirectory]
          exact get_files_congr (Directory.read_congr hfind)

/-- A key that was removed is not found any more, and nothing else changes. -/
theorem get_remove (h : store.remove key = .ok store') (other : String) :
    store'.get other = if other = key then .ok none else store.get other := by
  cases store with
  | memory entries =>
      cases h
      simp only [get, Assoc.lookup_erase]
      split <;> rfl
  | files directory =>
      obtain ⟨_, hkey, h⟩ := bind_eq_ok.mp h
      split at h
      case h_1 directory' hremove =>
        cases h
        obtain ⟨entries, hentries, hshort, rfl⟩ := Directory.remove_eq_ok hremove
        have hfind := Directory.find_erase entries key other hshort
        by_cases hother : other = key
        · subst hother
          rw [if_pos rfl] at hfind ⊢
          rw [get_files, hkey, ok_bind, Directory.read_of_find_error hfind]
        · rw [if_neg hother] at hfind ⊢
          have hdirectory : directory = ⟨some entries⟩ := by
            rw [← hentries]
          rw [hdirectory]
          exact get_files_congr (Directory.read_congr hfind)
      case h_2 hremove =>
        cases h
        by_cases hother : other = key
        · subst hother
          have hfind : directory.find other = .error .notFound := by
            cases hfind : directory.find other with
            | error error =>
                rw [Directory.remove, hfind] at hremove
                exact congrArg Except.error (Except.error.inj hremove)
            | ok entry =>
                rw [Directory.remove, hfind] at hremove
                cases entry <;> cases hremove
          rw [if_pos rfl, get_files, hkey, ok_bind, Directory.read_of_find_error hfind]
        · rw [if_neg hother]
      case h_3 => cases h

end Store

end ChainClient
