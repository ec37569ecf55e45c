import ChainClient.Cache.FileTree

/-! The keys of a store of files, and the paths that they stand for. -/

namespace ChainClient

namespace Store

/-- The keys that may name files. -/
structure FileKey (key : String) : Prop where
  nonempty : key ≠ ""
  chars : ∀ c ∈ key.toList, c.isAlphanum = true ∨ c ∈ ['-', '_', '.']
  visible : key.toList.head? ≠ some '.'

variable {key : String}

theorem isKeyChar_iff {c : Char} :
    isKeyChar c = true ↔ c.isAlphanum = true ∨ c ∈ ['-', '_', '.'] := by
  simp [isKeyChar, or_assoc]

theorem isFileKey_iff : isFileKey key = true ↔ FileKey key := by
  unfold isFileKey
  split
  case h_1 hempty =>
    refine iff_of_false Bool.false_ne_true fun hkey => hkey.nonempty ?_
    exact String.toList_eq_nil_iff.mp hempty
  case h_2 first rest htext =>
    simp only [Bool.and_eq_true, decide_eq_true_eq, List.all_eq_true, isKeyChar_iff]
    constructor
    · rintro ⟨hfirst, hchars⟩
      refine ⟨?_, htext ▸ hchars, by simpa [htext] using hfirst⟩
      rintro rfl
      cases htext
    · intro hkey
      exact ⟨by simpa [htext] using hkey.visible, htext ▸ hkey.chars⟩

instance : DecidablePred FileKey := fun _ => decidable_of_iff _ isFileKey_iff

theorem FileKey.no_slash (h : FileKey key) : '/' ∉ key.toList := by
  intro hmem
  rcases h.chars '/' hmem with hchar | hchar <;> revert hchar <;> decide

end Store

namespace FileTree

variable {tree tree' : FileTree} {place found : List String} {key path : String}

/-- Where a path leads from a place if every name but the last is that of a directory. -/
def resolve (place : List String) : List String → List String
  | [] => place
  | name :: rest =>
      if name = "" ∨ name = "." then resolve place rest
      else if name = ".." then resolve place.dropLast rest
      else resolve (place ++ [name]) rest

theorem resolve_append (place names others : List String) :
    resolve place (names ++ others) = resolve (resolve place names) others := by
  induction names generalizing place with
  | nil => rfl
  | cons name rest ih =>
      simp only [List.cons_append, resolve, ih]
      split
      case isTrue => rfl
      case isFalse => split <;> rfl

/-- The directories on a path are created along the way that it leads. -/
theorem resolve_of_create {names : List String}
    (h : tree.create place names = (tree', .ok found)) : found = resolve place names := by
  induction names generalizing tree place with
  | nil =>
      cases h
      rfl
  | cons name rest ih =>
      rw [create] at h
      rw [resolve]
      split at h
      case isTrue hstay =>
        rw [if_pos hstay]
        exact ih h
      case isFalse hstay =>
        rw [if_neg hstay]
        split at h
        case isTrue hup =>
          rw [if_pos hup]
          exact ih h
        case isFalse hup =>
          rw [if_neg hup]
          dsimp only at h
          split at h
          case h_1 => exact ih h
          case h_2 => cases h
          case h_3 =>
            split at h
            case isTrue => cases h
            case isFalse => exact ih h

/-- A directory holds what lies right below its place. -/
theorem lookup_directory (tree : FileTree) (place : List String) (name : String) :
    ∃ entries, tree.directory place = ⟨some entries⟩ ∧
      entries.lookup name = tree.lookup (place ++ [name]) := by
  refine ⟨_, rfl, ?_⟩
  induction tree with
  | nil => rfl
  | cons first rest ih =>
      obtain ⟨other, entry⟩ := first
      rw [List.lookup_cons]
      rcases List.eq_nil_or_concat other with rfl | ⟨front, last, rfl⟩
      · have hne : (place ++ [name] == []) = false := beq_eq_false_iff_ne.mpr (by simp)
        rw [hne]
        simpa using ih
      · by_cases hfront : front = place
        · subst hfront
          by_cases hlast : name = last
          · subst hlast
            simp
          · have hne : (name == last) = false := beq_eq_false_iff_ne.mpr hlast
            simpa [List.lookup_cons, hne, hlast] using ih
        · have hne : place ++ [name] ≠ front ++ [last] := fun heq =>
            hfront (List.append_inj_left' heq rfl).symm
          simpa [hfront, beq_eq_false_iff_ne.mpr hne] using ih

/-! Paths of files. -/

/-- The path of a name below a directory.  An absolute name stands for itself. -/
def join (path name : String) : String :=
  if name.toList.head? = some '/' then name
  else if path = "" ∨ path.toList.getLast? = some '/' then path ++ name
  else path ++ "/" ++ name

theorem names_append (path other : String) :
    names (path ++ "/" ++ other) = names path ++ names other := by
  simp [names, List.splitOn_append_cons_self]

theorem names_empty : names "" = [""] := by
  simp [names]

theorem names_key (hkey : Store.FileKey key) : names key = [key] := by
  rw [names, List.splitOn_eq_singleton hkey.no_slash, List.map_singleton,
    String.ofList_toList]

/-- A key leads one name further than the directory does, whichever way that is written. -/
theorem resolve_join (path : String) (hkey : Store.FileKey key) :
    resolve [] (names (join path key)) = resolve [] (names path) ++ [key] := by
  have hrelative : key.toList.head? ≠ some '/' := fun hhead =>
    hkey.no_slash (List.mem_of_mem_head? hhead)
  have hstep : ∀ place, resolve place [key] = place ++ [key] := by
    intro place
    have hvisible : key ≠ "." ∧ key ≠ ".." := by
      constructor <;> rintro rfl <;> exact hkey.visible rfl
    simp [resolve, hkey.nonempty, hvisible]
  rw [join, if_neg hrelative]
  split
  case isFalse => rw [names_append, resolve_append, names_key hkey, hstep]
  case isTrue hpath =>
    rcases hpath with rfl | hslash
    · rw [String.empty_append, names_key hkey, hstep]
      rfl
    · obtain ⟨front, hfront⟩ := List.getLast?_eq_some_iff.mp hslash
      have hpath : path = String.ofList front ++ "/" := by
        rw [← String.toList_inj, hfront]
        simp
      have hdirectory : names path = names (String.ofList front) ++ [""] := by
        rw [hpath, ← names_empty, ← names_append, String.append_empty]
      rw [hdirectory, resolve_append, hpath, names_append, resolve_append,
        names_key hkey, hstep]
      rfl

/-- The files of a store lie right in the directory that its path leads to. -/
theorem children_of_openStore {store : Store}
    (h : tree.openStore path = (tree', .ok store)) :
    ∃ entries, store = .files ⟨some entries⟩ ∧ ∀ key, Store.FileKey key →
      resolve [] (names (join path key)) = resolve [] (names path) ++ [key] ∧
      entries.lookup key = tree'.lookup (resolve [] (names (join path key))) := by
  unfold openStore at h
  split at h
  case h_1 found place hcreate =>
    cases h
    obtain rfl := resolve_of_create hcreate
    refine ⟨_, rfl, fun key hkey => ⟨resolve_join path hkey, ?_⟩⟩
    obtain ⟨entries, hentries, hlookup⟩ :=
      lookup_directory tree' (resolve [] (names path)) key
    rw [resolve_join path hkey, ← hlookup]
    cases hentries
    rfl
  case h_2 => cases h

end FileTree

end ChainClient
