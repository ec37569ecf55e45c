import ChainClient.Proofs.Assoc
import ChainClient.Proofs.Cache.Newest
import ChainClient.Proofs.Cache.Paths

/-! What stores answer to calls, one after another.  A store of files in an empty directory
never holds anything but texts under keys that it accepts. -/

namespace ChainClient

namespace Store

/-- What a store, or the cache of metadata on top of it, is asked. -/
inductive Call where
  | get (key : String)
  | set (key value : String)
  | remove (key : String)
  | keys
  | cached (implName : String) (specVersion : Fin (2 ^ 32))
  | replace (implName : String) (specVersion : Fin (2 ^ 32)) (blob : String)
  deriving DecidableEq

inductive Answer where
  | found (value? : Option String)
  | listed (keys : List String)
  | done
  | failed (error : CacheError)
  deriving DecidableEq

def Answer.of {α : Type} (answer : α → Answer) : Except CacheError α → Answer
  | .ok value => answer value
  | .error error => .failed error

namespace Call

def key? : Call → Option String
  | get key => some key
  | set key _ => some key
  | remove key => some key
  | keys => none
  | cached implName specVersion => some (MetadataCache.key implName specVersion)
  | replace implName specVersion _ => some (MetadataCache.key implName specVersion)

def Accepted (call : Call) : Prop := ∀ key ∈ call.key?, FileKey key

instance (call : Call) : Decidable call.Accepted :=
  match h : call.key? with
  | none => .isTrue (by simp [Accepted, h])
  | some key => decidable_of_iff (FileKey key) (by simp [Accepted, h])

/-- The cache does not tell why a blob cannot be read. -/
def failure (error : CacheError) : Call → Answer
  | cached _ _ => .found none
  | _ => .failed error

end Call

def perform (store : Store) : Call → Store × Answer
  | .get key => (store, .of .found (store.get key))
  | .set key value =>
      ((store.set key value).toOption.getD store,
        .of (fun _ => .done) (store.set key value))
  | .remove key =>
      ((store.remove key).toOption.getD store, .of (fun _ => .done) (store.remove key))
  | .keys => (store, .of .listed store.keys)
  | .cached implName specVersion =>
      (store, .found (MetadataCache.get? store implName specVersion))
  | .replace implName specVersion blob =>
      let (store, outcome) := MetadataCache.replace store implName specVersion blob
      (store, .of (fun _ => .done) outcome)

/-- Between two calls the store may be opened anew. -/
inductive Step where
  | call (call : Call)
  | reopen
  deriving DecidableEq

def after (store : Store) : List Step → Store
  | [] => store
  | .call call :: rest => after (store.perform call).1 rest
  | .reopen :: rest => after store.reopen rest

/-- Each call with its answer. -/
def transcript (store : Store) : List Step → List (Call × Answer)
  | [] => []
  | .call call :: rest =>
      (call, (store.perform call).2) :: transcript (store.perform call).1 rest
  | .reopen :: rest => transcript store.reopen rest

variable {store store' : Store} {key value : String} {error : CacheError} {call : Call}

/-! What a store of files may hold. -/

/-- There are only files, with texts, and under names that are accepted. -/
def Plain (store : Store) : Prop :=
  ∃ entries, store = .files ⟨some entries⟩ ∧ ∀ name entry, (name, entry) ∈ entries →
    (FileKey name ∧ name.utf8ByteSize ≤ Directory.maxNameLength) ∧
      ∃ text, entry = .file (Bytes.ofString text)

theorem checkKey_eq_ok : checkKey key = .ok () ↔ FileKey key := by
  unfold checkKey
  split
  case isTrue hkey => exact iff_of_true rfl (isFileKey_iff.mp hkey)
  case isFalse hkey => exact iff_of_false nofun fun hfile => hkey (isFileKey_iff.mpr hfile)

theorem plain_empty : (Store.files .empty).Plain := ⟨[], rfl, nofun⟩

theorem Plain.takes_iff (h : store.Plain) :
    store.Takes key ↔ FileKey key ∧ key.utf8ByteSize ≤ Directory.maxNameLength := by
  obtain ⟨entries, rfl, hentries⟩ := h
  refine ⟨fun ⟨hkey, hshort, _⟩ => ⟨isFileKey_iff.mp hkey, hshort⟩,
    fun ⟨hkey, hshort⟩ => ?_⟩
  refine ⟨isFileKey_iff.mpr hkey, hshort, fun hdirectory => ?_⟩
  obtain ⟨-, text, htext⟩ := hentries key _ (Assoc.mem_of_lookup hdirectory)
  cases htext

theorem Plain.sound (h : store.Plain) : store.Sound := by
  have htakes : ∀ key, FileKey key ∧ key.utf8ByteSize ≤ Directory.maxNameLength →
      store.Takes key := fun _ => h.takes_iff.mpr
  obtain ⟨entries, rfl, hentries⟩ := h
  refine ⟨⟨_, rfl⟩, fun key hlists => ?_⟩
  obtain ⟨content, hmem⟩ := lists_files.mp hlists
  exact htakes key (hentries key _ hmem).1

theorem Plain.get_of_takes (h : store.Plain) (hkey : store.Takes key) :
    ∃ value?, store.get key = .ok value? := by
  obtain ⟨entries, rfl, hentries⟩ := h
  obtain ⟨hkey, hshort, -⟩ := hkey
  rw [get_files, checkKey, if_pos hkey, ok_bind]
  have hfind := Directory.find_some entries key
  rw [if_neg (Nat.not_lt.mpr hshort)] at hfind
  cases hentry : entries.lookup key with
  | none =>
      rw [hentry] at hfind
      exact ⟨none, by rw [Directory.read_of_find_error hfind]⟩
  | some entry =>
      rw [hentry] at hfind
      obtain ⟨-, text, rfl⟩ := hentries key entry (Assoc.mem_of_lookup hentry)
      exact ⟨some text,
        by rw [Directory.read_of_find_file hfind (Bytes.toString?_ofString text)]⟩

/-! It holds no more than that after a call, whether this succeeds or not. -/

theorem Plain.set (h : store.Plain) (hset : store.set key value = .ok store') :
    store'.Plain := by
  obtain ⟨entries, rfl, hentries⟩ := h
  obtain ⟨_, hkey, hset⟩ := bind_eq_ok.mp hset
  split at hset
  case h_2 => cases hset
  case h_1 directory hwrite =>
    cases hset
    obtain ⟨_, hsame, hshort, rfl⟩ := Directory.write_eq_ok hwrite
    cases hsame
    have haccepted := checkKey_eq_ok.mp hkey
    refine ⟨_, rfl, fun name entry hmem => ?_⟩
    rcases Assoc.mem_of_mem_put hmem with hput | hmem
    · cases hput
      exact ⟨⟨haccepted, hshort⟩, value, rfl⟩
    · exact hentries name entry hmem

theorem Plain.remove (h : store.Plain) (hremove : store.remove key = .ok store') :
    store'.Plain := by
  have hplain := h
  obtain ⟨entries, rfl, hentries⟩ := h
  obtain ⟨_, -, hremove⟩ := bind_eq_ok.mp hremove
  split at hremove
  case h_3 => cases hremove
  case h_2 =>
    cases hremove
    exact hplain
  case h_1 directory hremoved =>
    cases hremove
    obtain ⟨_, hsame, -, rfl⟩ := Directory.remove_eq_ok hremoved
    cases hsame
    exact ⟨_, rfl, fun name entry hmem =>
      hentries name entry ((Assoc.mem_erase key name entry entries).mp hmem).2⟩

theorem Plain.evict (h : store.Plain) (keys : List String) :
    (MetadataCache.evict store keys).1.Plain := by
  induction keys generalizing store with
  | nil => exact h
  | cons key rest ih =>
      rw [MetadataCache.evict]
      cases hremove : store.remove key with
      | error error => exact h
      | ok store' => exact ih (h.remove hremove)

theorem Plain.replace (h : store.Plain) (implName : String) (specVersion : Nat)
    (blob : String) : (MetadataCache.replace store implName specVersion blob).1.Plain := by
  rw [MetadataCache.replace]
  cases store.keys with
  | error error => exact h
  | ok keys =>
      have hevicted := h.evict (keys.filter (MetadataCache.isEntryOf implName))
      dsimp only
      split
      case h_1 middle error hevict =>
        rw [hevict] at hevicted
        exact hevicted
      case h_2 middle hevict =>
        rw [hevict] at hevicted
        cases hset : middle.set (MetadataCache.key implName specVersion) blob with
        | error error => exact hevicted
        | ok store' => exact hevicted.set hset

theorem Plain.perform (h : store.Plain) (call : Call) : (store.perform call).1.Plain := by
  cases call with
  | get key => exact h
  | keys => exact h
  | cached implName specVersion => exact h
  | replace implName specVersion blob => exact h.replace implName specVersion blob
  | set key value =>
      rw [Store.perform]
      cases hset : store.set key value with
      | error error => exact h
      | ok store' => exact h.set hset
  | remove key =>
      rw [Store.perform]
      cases hremove : store.remove key with
      | error error => exact h
      | ok store' => exact h.remove hremove

theorem Plain.reopen (h : store.Plain) : store.reopen = store := by
  obtain ⟨entries, rfl, -⟩ := h
  rfl

theorem Plain.after (h : store.Plain) (steps : List Step) : (store.after steps).Plain := by
  induction steps generalizing store with
  | nil => exact h
  | cons step rest ih =>
      cases step with
      | call call => exact ih (h.perform call)
      | reopen =>
          rw [Store.after, h.reopen]
          exact ih h

/-! Calls that fail. -/

/-- Nothing can be done with the key, for the same reason throughout. -/
structure Fails (store : Store) (key : String) (error : CacheError) : Prop where
  get : store.get key = .error error
  set : ∀ value, store.set key value = .error error
  remove : store.remove key = .error error

/-- Where one version of an implementation may be filed, all may. -/
theorem FileKey.of_files {other implName : String} (h : FileKey other)
    (hfiles : MetadataCache.Files other implName) (specVersion : Nat) :
    FileKey (MetadataCache.key implName specVersion) := by
  obtain ⟨version, htext, -⟩ := hfiles
  have hkey := MetadataCache.toList_key implName specVersion
  refine ⟨fun hempty => ?_, fun c hc => ?_, ?_⟩
  · rw [hempty] at hkey
    simp at hkey
  · rw [hkey, List.mem_append, List.mem_cons] at hc
    rcases hc with hname | rfl | hdigit
    · exact h.chars c (by rw [htext]; exact List.mem_append_left _ hname)
    · exact .inr (by decide)
    · have hdigit := Nat.isDigit_of_mem_toDigits (by decide) (by decide) hdigit
      exact .inl (by simp [Char.isAlphanum, hdigit])
  · have hvisible := h.visible
    rw [htext] at hvisible
    rw [hkey]
    cases hname : implName.toList with
    | nil => simp
    | cons first rest =>
        rw [hname] at hvisible
        exact hvisible

namespace Plain

theorem fails_of_refused (h : store.Plain) (hkey : ¬ FileKey key) :
    store.Fails key (.invalidKey key) := by
  obtain ⟨entries, rfl, -⟩ := h
  have hcheck : checkKey key = .error (.invalidKey key) :=
    if_neg fun hfile => hkey (isFileKey_iff.mp hfile)
  constructor
  case get =>
    rw [get_files, hcheck]
    rfl
  case set =>
    intro value
    rw [Store.set, hcheck]
    rfl
  case remove =>
    rw [Store.remove, hcheck]
    rfl

theorem fails_of_long (h : store.Plain) (hkey : FileKey key)
    (hlong : Directory.maxNameLength < key.utf8ByteSize) : store.Fails key .io := by
  obtain ⟨entries, rfl, -⟩ := h
  have hcheck := checkKey_eq_ok.mpr hkey
  have hfind := Directory.find_some entries key
  rw [if_pos hlong] at hfind
  constructor
  case get => rw [get_files, hcheck, ok_bind, Directory.read_of_find_error hfind]
  case set =>
    intro value
    rw [Store.set, hcheck, ok_bind, Directory.write]
    simp only [if_pos hlong]
  case remove =>
    rw [Store.remove, hcheck, ok_bind, Directory.remove, hfind]
    rfl

/-- A blob that cannot be filed is not filed, whatever was evicted before. -/
theorem replace_of_fails (h : store.Plain) {implName blob : String} {specVersion : Nat}
    (hfails : ∀ middle : Store, middle.Plain →
      middle.set (MetadataCache.key implName specVersion) blob = .error error) :
    (MetadataCache.replace store implName specVersion blob).2 = .error error := by
  obtain ⟨keys, hkeys⟩ := h.sound.listed
  have hlisted : ∀ other ∈ keys.filter (MetadataCache.isEntryOf implName),
      store.Takes other :=
    fun other hother => h.sound.takes other ⟨keys, hkeys, (List.mem_filter.mp hother).1⟩
  obtain ⟨middle, hevict, -⟩ := MetadataCache.evict_of_takes hlisted
  have hmiddle := h.evict (keys.filter (MetadataCache.isEntryOf implName))
  rw [hevict] at hmiddle
  simp only [MetadataCache.replace, hkeys, hevict, hfails middle hmiddle]

/-- Nothing is evicted for the sake of a blob that is refused. -/
theorem replace_of_refused (h : store.Plain) {implName : String} {specVersion : Nat}
    (hkey : ¬ FileKey (MetadataCache.key implName specVersion)) (blob : String) :
    MetadataCache.replace store implName specVersion blob =
      (store, .error (.invalidKey (MetadataCache.key implName specVersion))) := by
  obtain ⟨keys, hkeys⟩ := h.sound.listed
  have hnone : keys.filter (MetadataCache.isEntryOf implName) = [] := by
    rw [List.filter_eq_nil_iff]
    intro other hmem hentry
    have hother := h.takes_iff.mp (h.sound.takes other ⟨keys, hkeys, hmem⟩)
    exact hkey (hother.1.of_files (MetadataCache.isEntryOf_iff.mp hentry) specVersion)
  simp only [MetadataCache.replace, hkeys, hnone, MetadataCache.evict,
    (h.fails_of_refused hkey).set blob]

theorem answer_of_fails (h : store.Plain) (hcall : call.key? = some key)
    (hfails : ∀ middle : Store, middle.Plain → middle.Fails key error) :
    (store.perform call).2 = call.failure error := by
  have hstore := hfails store h
  cases call with
  | keys => cases hcall
  | get other =>
      cases hcall
      rw [Store.perform, hstore.get]
      rfl
  | set other value =>
      cases hcall
      rw [Store.perform, hstore.set]
      rfl
  | remove other =>
      cases hcall
      rw [Store.perform, hstore.remove]
      rfl
  | cached implName specVersion =>
      cases hcall
      rw [Store.perform, MetadataCache.get?, hstore.get]
      rfl
  | replace implName specVersion blob =>
      cases hcall
      have hset : ∀ middle : Store, middle.Plain →
          middle.set (MetadataCache.key implName specVersion) blob = .error error :=
        fun middle hmiddle => (hfails middle hmiddle).set blob
      have hreplace := h.replace_of_fails hset
      simp only [Store.perform, hreplace]
      rfl

theorem answer_of_long (h : store.Plain) (hcall : call.key? = some key) (hkey : FileKey key)
    (hlong : Directory.maxNameLength < key.utf8ByteSize) :
    (store.perform call).2 = call.failure .io :=
  h.answer_of_fails hcall fun _ hmiddle => hmiddle.fails_of_long hkey hlong

/-- A call with a key that is not accepted fails, and the directory stays as it is. -/
theorem perform_of_refused (h : store.Plain) (hcall : call.key? = some key)
    (hkey : ¬ FileKey key) :
    store.perform call = (store, call.failure (.invalidKey key)) := by
  have hfails := h.fails_of_refused hkey
  refine Prod.ext ?_
    (h.answer_of_fails hcall fun middle hmiddle => hmiddle.fails_of_refused hkey)
  cases call with
  | get other => rfl
  | keys => rfl
  | cached implName specVersion => rfl
  | set other value =>
      cases hcall
      rw [Store.perform, hfails.set]
      rfl
  | remove other =>
      cases hcall
      rw [Store.perform, hfails.remove]
      rfl
  | replace implName specVersion blob =>
      cases hcall
      rw [Store.perform, h.replace_of_refused hkey]

end Plain

end Store

end ChainClient
