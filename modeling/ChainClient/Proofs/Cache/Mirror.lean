import ChainClient.Proofs.Cache.Calls

/-! A store of files answers as one in memory does, also when it is
opened anew between two calls. -/

namespace ChainClient

namespace Store

variable {store files memory files' memory' : Store} {key : String} {error : CacheError}
  {call : Call}

/-! Calls that succeed. -/

theorem get_of_not_lists (htakes : store.Takes key) (hlists : ¬ store.Lists key) :
    store.get key = .ok none := by
  cases store with
  | memory entries =>
      cases hentry : entries.lookup key with
      | some value =>
          exact absurd (lists_memory.mpr ⟨value, Assoc.mem_of_lookup hentry⟩) hlists
      | none => rw [get, hentry]
  | files directory =>
      obtain ⟨hkey, entries, rfl, hshort, hfile⟩ := entries_of_takes htakes
      have hfind := Directory.find_some entries key
      rw [if_neg (Nat.not_lt.mpr hshort)] at hfind
      cases hentry : entries.lookup key with
      | none =>
          rw [hentry] at hfind
          rw [get_files, checkKey_eq_ok.mpr (isFileKey_iff.mp hkey), ok_bind,
            Directory.read_of_find_error hfind]
      | some entry =>
          cases entry with
          | directory => exact absurd hentry hfile
          | file content =>
              exact absurd (lists_files.mpr ⟨content, Assoc.mem_of_lookup hentry⟩) hlists

theorem Plain.succeeds (h : store.Plain) (htakes : ∀ key ∈ call.key?, store.Takes key) :
    (store.perform call).2 ≠ .failed error := by
  intro hfailed
  cases call with
  | get key =>
      obtain ⟨value?, hget⟩ := h.get_of_takes (htakes key rfl)
      rw [Store.perform, hget] at hfailed
      cases hfailed
  | set key value =>
      obtain ⟨store', hset, -⟩ := set_of_takes (htakes key rfl) value
      rw [Store.perform, hset] at hfailed
      cases hfailed
  | remove key =>
      obtain ⟨store', hremove, -⟩ := remove_of_takes (htakes key rfl)
      rw [Store.perform, hremove] at hfailed
      cases hfailed
  | keys =>
      obtain ⟨keys, hkeys⟩ := h.sound.listed
      rw [Store.perform, hkeys] at hfailed
      cases hfailed
  | cached implName specVersion => cases hfailed
  | replace implName specVersion blob =>
      obtain ⟨store', hreplace, -⟩ :=
        MetadataCache.replace_of_takes blob h.sound (htakes _ rfl) specVersion.isLt
      rw [Store.perform, hreplace] at hfailed
      cases hfailed

/-- The file system is only in the way of keys that are longer than a name may be. -/
theorem Plain.long_of_io (h : store.Plain) (hio : (store.perform call).2 = .failed .io) :
    ∃ key, call.key? = some key ∧ Directory.maxNameLength < key.utf8ByteSize := by
  cases hcall : call.key? with
  | none => exact absurd hio (h.succeeds (by simp [hcall]))
  | some key =>
      refine ⟨key, rfl, Nat.lt_of_not_le fun hshort => ?_⟩
      by_cases hkey : FileKey key
      · refine h.succeeds (fun other hother => ?_) hio
        obtain rfl := Option.some.inj (hcall.symm.trans hother)
        exact h.takes_iff.mpr ⟨hkey, hshort⟩
      · rw [h.perform_of_refused hcall hkey] at hio
        cases call <;> cases hio

/-! Two stores that hold the same. -/

structure Mirrors (files memory : Store) : Prop where
  plain : files.Plain
  sound : memory.Sound
  takes : ∀ key, memory.Takes key
  get : ∀ key, files.Takes key → files.get key = memory.get key
  lists : ∀ key, files.Lists key ↔ memory.Lists key

theorem mirrors_empty : Mirrors (.files .empty) emptyMemory where
  plain := plain_empty
  sound := sound_memory []
  takes _ := trivial
  get key htakes := by
    rw [get_of_not_lists htakes]
    · rfl
    · rintro hlists
      obtain ⟨content, hmem⟩ := lists_files.mp hlists
      cases hmem
  lists key := by
    constructor
    · intro hlists
      obtain ⟨content, hmem⟩ := lists_files.mp hlists
      cases hmem
    · intro hlists
      obtain ⟨value, hmem⟩ := lists_memory.mp hlists
      cases hmem

namespace Mirrors

theorem takes_of_plain (h : Mirrors files memory) (hplain : files'.Plain)
    (htakes : files'.Takes key) : files.Takes key :=
  h.plain.takes_iff.mpr (hplain.takes_iff.mp htakes)

/-- The same change is made to both. -/
theorem changes {value? : Option String} (h : Mirrors files memory) (hplain : files'.Plain)
    (hfiles : Changes key value? files files')
    (hmemory : Changes key value? memory memory') : Mirrors files' memory' where
  plain := hplain
  sound := hmemory.sound h.sound (h.takes key)
  takes other := hmemory.takes other (h.takes other)
  get other htakes := by
    rw [hfiles.get, hmemory.get, h.get other (h.takes_of_plain hplain htakes)]
  lists other := by rw [hfiles.lists, hmemory.lists, h.lists]

/-- The same blob is filed in both. -/
theorem filed {implName blob : String} {specVersion : Nat} (h : Mirrors files memory)
    (hplain : files'.Plain)
    (hfiles : MetadataCache.Filed implName specVersion blob files files')
    (hmemory : MetadataCache.Filed implName specVersion blob memory memory') :
    Mirrors files' memory' := by
  have htakes : ∀ other, memory'.Takes other :=
    fun other => hmemory.takes other (h.takes other)
  have hlists : ∀ other, files'.Lists other ↔ memory'.Lists other := fun other => by
    rw [hfiles.lists, hmemory.lists, h.lists]
  refine ⟨hplain, hmemory.sound, htakes, fun other hother => ?_, hlists⟩
  by_cases hversion : MetadataCache.Files other implName
  · by_cases hkey : other = MetadataCache.key implName specVersion
    · rw [hkey, hfiles.blob, hmemory.blob]
    · -- The versions that were evicted are found in neither.
      have hgone : ¬ memory'.Lists other := by
        rw [hmemory.lists, if_pos hversion]
        exact hkey
      rw [get_of_not_lists hother (mt (hlists other).mp hgone),
        get_of_not_lists (htakes other) hgone]
  · rw [hfiles.get other hversion, hmemory.get other hversion,
      h.get other (h.takes_of_plain hplain hother)]

theorem cached (h : Mirrors files memory) (implName : String) (specVersion : Nat)
    (hkey : FileKey (MetadataCache.key implName specVersion)) :
    MetadataCache.get? files implName specVersion =
      MetadataCache.get? memory implName specVersion := by
  by_cases htakes : files.Takes (MetadataCache.key implName specVersion)
  · rw [MetadataCache.get?, MetadataCache.get?, h.get _ htakes]
  · -- A key that is too long for a file has not been filed in memory either.
    have hlong : Directory.maxNameLength <
        (MetadataCache.key implName specVersion).utf8ByteSize :=
      Nat.lt_of_not_le fun hshort => htakes (h.plain.takes_iff.mpr ⟨hkey, hshort⟩)
    have hgone : ¬ memory.Lists (MetadataCache.key implName specVersion) := fun hlists =>
      htakes (h.plain.sound.takes _ ((h.lists _).mpr hlists))
    rw [MetadataCache.get?, MetadataCache.get?, (h.plain.fails_of_long hkey hlong).get,
      get_of_not_lists (h.takes _) hgone]

end Mirrors

/-- Keys are listed in any order. -/
inductive Answer.Alike : Answer → Answer → Prop
  | same (answer : Answer) : Alike answer answer
  | listed {keys others : List String} (h : ∀ key, key ∈ keys ↔ key ∈ others) :
      Alike (.listed keys) (.listed others)

/-- An accepted call is answered alike, and leaves stores that hold the same. -/
theorem Mirrors.perform (h : Mirrors files memory) (haccepted : call.Accepted)
    (hquiet : (files.perform call).2 ≠ .failed .io) :
    Mirrors (files.perform call).1 (memory.perform call).1 ∧
      (files.perform call).2.Alike (memory.perform call).2 := by
  have htakes : ∀ key, call.key? = some key → call.failure .io = .failed .io →
      files.Takes key := by
    intro key hcall hfailure
    have hkey := haccepted key hcall
    refine h.plain.takes_iff.mpr ⟨hkey, Nat.le_of_not_lt fun hlong => hquiet ?_⟩
    rw [h.plain.answer_of_long hcall hkey hlong, hfailure]
  have hplain := h.plain.perform call
  cases call with
  | get key =>
      refine ⟨h, ?_⟩
      rw [Store.perform, Store.perform, h.get key (htakes key rfl rfl)]
      exact .same _
  | keys =>
      refine ⟨h, ?_⟩
      obtain ⟨keys, hkeys⟩ := h.plain.sound.listed
      obtain ⟨others, hothers⟩ := h.sound.listed
      rw [Store.perform, Store.perform, hkeys, hothers]
      refine .listed fun key => ?_
      simpa [Lists, hkeys, hothers] using h.lists key
  | cached implName specVersion =>
      refine ⟨h, ?_⟩
      rw [Store.perform, Store.perform, h.cached implName specVersion (haccepted _ rfl)]
      exact .same _
  | set key value =>
      obtain ⟨files', hfiles, hchanges⟩ := set_of_takes (htakes key rfl rfl) value
      obtain ⟨memory', hmemory, hchangesMemory⟩ := set_of_takes (h.takes key) value
      rw [Store.perform, hfiles] at hplain ⊢
      rw [Store.perform, hmemory]
      exact ⟨h.changes hplain hchanges hchangesMemory, .same _⟩
  | remove key =>
      obtain ⟨files', hfiles, hchanges⟩ := remove_of_takes (htakes key rfl rfl)
      obtain ⟨memory', hmemory, hchangesMemory⟩ := remove_of_takes (h.takes key)
      rw [Store.perform, hfiles] at hplain ⊢
      rw [Store.perform, hmemory]
      exact ⟨h.changes hplain hchanges hchangesMemory, .same _⟩
  | replace implName specVersion blob =>
      obtain ⟨files', hfiles, hfiled⟩ := MetadataCache.replace_of_takes blob h.plain.sound
        (htakes _ rfl rfl) specVersion.isLt
      obtain ⟨memory', hmemory, hfiledMemory⟩ := MetadataCache.replace_of_takes blob h.sound
        (h.takes (MetadataCache.key implName specVersion)) specVersion.isLt
      rw [Store.perform, hfiles] at hplain ⊢
      rw [Store.perform, hmemory]
      exact ⟨h.filed hplain hfiled hfiledMemory, .same _⟩

/-! Whole runs. -/

/-- The calls that a store in memory is to answer as well. -/
def accepted (steps : List Step) : List Step :=
  steps.filter fun step =>
    match step with
    | .call call => call.Accepted
    | .reopen => false

/-- The same call was answered alike. -/
def Agree (exchange other : Call × Answer) : Prop :=
  exchange.1 = other.1 ∧ exchange.2.Alike other.2

theorem Mirrors.transcript (h : Mirrors files memory) {steps : List Step}
    (hquiet : ∀ exchange ∈ files.transcript steps, exchange.2 ≠ .failed .io) :
    List.Forall₂ Agree ((files.transcript steps).filter (·.1.Accepted))
      (memory.transcript (accepted steps)) := by
  induction steps generalizing files memory with
  | nil => exact .nil
  | cons step rest ih =>
      cases step with
      | reopen =>
          rw [Store.transcript, h.plain.reopen] at hquiet ⊢
          exact ih h hquiet
      | call call =>
          obtain ⟨hanswer, hrest⟩ := List.forall_mem_cons.mp hquiet
          rw [Store.transcript]
          by_cases hcall : call.Accepted
          · obtain ⟨hmirrors, halike⟩ := h.perform hcall hanswer
            have hsteps : accepted (.call call :: rest) = .call call :: accepted rest := by
              simp [accepted, hcall]
            rw [hsteps, Store.transcript, List.filter_cons_of_pos (by simpa using hcall)]
            exact .cons ⟨rfl, halike⟩ (ih hmirrors hrest)
          · have hsteps : accepted (.call call :: rest) = accepted rest := by
              simp [accepted, hcall]
            obtain ⟨key, hkey, hrefused⟩ : ∃ key, call.key? = some key ∧ ¬ FileKey key := by
              simpa [Call.Accepted] using hcall
            rw [h.plain.perform_of_refused hkey hrefused] at hrest ⊢
            rw [hsteps, List.filter_cons_of_neg (by simpa using hcall)]
            exact ih h hrest

/-- Calls with keys that are accepted are answered as by a store in memory that gets
these calls only, unless the file system fails, which it does for long keys at most.
Calls with other keys fail and leave the directory as it is.  No key leads anywhere
but right into the directory. -/
theorem files_mirror_memory :
    (∀ steps, (∀ exchange ∈ (Store.files .empty).transcript steps,
      exchange.2 ≠ .failed .io) →
      List.Forall₂ Agree (((Store.files .empty).transcript steps).filter (·.1.Accepted))
        (emptyMemory.transcript (accepted steps))) ∧
    (∀ steps call, (((Store.files .empty).after steps).perform call).2 = .failed .io →
      ∃ key, call.key? = some key ∧ Directory.maxNameLength < key.utf8ByteSize) ∧
    (∀ steps call key, call.key? = some key → ¬ FileKey key →
      ((Store.files .empty).after steps).perform call =
        ((Store.files .empty).after steps, call.failure (.invalidKey key))) ∧
    (∀ (tree tree' : FileTree) path store, tree.openStore path = (tree', .ok store) →
      ∃ entries, store = .files ⟨some entries⟩ ∧ ∀ key, FileKey key →
          FileTree.resolve [] (FileTree.names (FileTree.join path key)) =
              FileTree.resolve [] (FileTree.names path) ++ [key] ∧
            entries.lookup key =
              tree'.lookup
                (FileTree.resolve [] (FileTree.names (FileTree.join path key)))) := by
  have hplain := fun steps => plain_empty.after steps
  refine ⟨fun steps hquiet => mirrors_empty.transcript hquiet, fun steps call => ?_,
    fun steps call key hkey hrefused => ?_, fun tree tree' path store hopen => ?_⟩
  · exact (hplain steps).long_of_io
  · exact (hplain steps).perform_of_refused hkey hrefused
  · exact FileTree.children_of_openStore hopen

/-- A version is filed, outlives the store that filed it, and gives way to the next one. -/
def upgrade : List Step :=
  [.call (.set "notes" "n"), .call (.replace "node" 7 "0x07"), .reopen,
    .call (.set "../escape" "x"), .call (.cached "node" 7), .call (.replace ".node" 9 "x"),
    .call (.replace "node" 8 "0x08"), .call .keys, .call (.remove "notes"), .reopen,
    .call (.get "node-7"), .call (.cached "node" 8), .call .keys]

theorem files_mirror_memory_upgrade :
    (∀ exchange ∈ (Store.files .empty).transcript upgrade, exchange.2 ≠ .failed .io) ∧
      List.Forall₂ Agree (((Store.files .empty).transcript upgrade).filter (·.1.Accepted))
        (emptyMemory.transcript (accepted upgrade)) ∧
      (accepted upgrade).length = 9 ∧
      ((Store.files .empty).after upgrade).perform (.set "../escape" "x") =
        ((Store.files .empty).after upgrade, .failed (.invalidKey "../escape")) ∧
      FileTree.openStore [] "var//cache" =
        ([(["var"], .directory), (["var", "cache"], .directory)], .ok (.files .empty)) ∧
      FileTree.resolve [] (FileTree.names (FileTree.join "var//cache" "node-8")) =
        ["var", "cache", "node-8"] := by
  obtain ⟨hmirror, -, hrefused, hchildren⟩ := files_mirror_memory
  have hquiet : ∀ exchange ∈ (Store.files .empty).transcript upgrade,
      exchange.2 ≠ .failed .io := by decide +kernel
  have hopen : FileTree.openStore [] "var//cache" =
      ([(["var"], .directory), (["var", "cache"], .directory)], .ok (.files .empty)) := by
    decide +kernel
  obtain ⟨entries, -, hchild⟩ := hchildren _ _ _ _ hopen
  refine ⟨hquiet, hmirror upgrade hquiet, by decide +kernel, ?_, hopen, ?_⟩
  · exact hrefused upgrade (.set "../escape" "x") "../escape" rfl (by decide)
  · rw [(hchild "node-8" (by decide)).1]
    decide +kernel

end Store

end ChainClient
