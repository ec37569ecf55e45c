import ChainClient.Proofs.Cache.Keys
import ChainClient.Proofs.Cache.Metadata
import ChainClient.Proofs.Text.Numeral
import Mathlib.Data.List.Induction

/-! Of each implementation the cache keeps the blob that was filed last, and
nothing else in its store changes. -/

namespace ChainClient.MetadataCache

/-! The keys that file a version of an implementation. -/

/-- The version may be written in any way in which it can be read. -/
def Files (key implName : String) : Prop :=
  ∃ version, key.toList = implName.toList ++ '-' :: version ∧
    ∃ n, Text.parseNatural (2 ^ 32) version = .ok n

variable {implName name other : String} {specVersion : Nat}

theorem no_dash_of_splitAtLastDash? {text : List Char} (h : splitAtLastDash? text = none) :
    '-' ∉ text := by
  induction text with
  | nil => simp
  | cons c rest ih =>
      rw [splitAtLastDash?] at h
      split at h
      case h_1 => cases h
      case h_2 hrest =>
        split at h
        case isTrue => cases h
        case isFalse hc => exact List.not_mem_cons_of_ne_of_not_mem (Ne.symm hc) (ih hrest)

theorem splitAtLastDash?_eq_some {text front back : List Char} :
    splitAtLastDash? text = some (front, back) ↔ text = front ++ '-' :: back ∧
      '-' ∉ back := by
  refine ⟨fun h => ?_, fun ⟨htext, hback⟩ => htext ▸ splitAtLastDash?_append front hback⟩
  induction text generalizing front with
  | nil => cases h
  | cons c rest ih =>
      rw [splitAtLastDash?] at h
      split at h
      case h_1 before after hrest =>
        cases h
        obtain ⟨rfl, hback⟩ := ih hrest
        exact ⟨rfl, hback⟩
      case h_2 hrest =>
        split at h
        case isTrue hc =>
          cases h
          exact ⟨by rw [hc, List.nil_append], no_dash_of_splitAtLastDash? hrest⟩
        case isFalse => cases h

theorem no_dash_in_version {version : List Char} {n : Nat}
    (h : Text.parseNatural (2 ^ 32) version = .ok n) : '-' ∉ version := by
  intro hmem
  rcases Text.isDigit_of_parseNatural h '-' hmem
    with hdash | hdash <;> revert hdash <;> decide

theorem isEntryOf_iff : isEntryOf implName other = true ↔ Files other implName := by
  have hversion : ∀ version, isVersion version = true ↔
      ∃ n, Text.parseNatural (2 ^ 32) version = .ok n := by
    intro version
    unfold isVersion
    cases Text.parseNatural (2 ^ 32) version with
    | error error => simp [Except.toOption]
    | ok n => simp [Except.toOption]
  unfold isEntryOf
  constructor
  · intro h
    split at h
    case h_1 front back hsplit =>
      obtain ⟨htext, -⟩ := splitAtLastDash?_eq_some.mp hsplit
      simp only [Bool.and_eq_true, decide_eq_true_eq, hversion] at h
      exact ⟨back, h.1 ▸ htext, h.2⟩
    case h_2 => cases h
  · rintro ⟨version, htext, n, hn⟩
    rw [splitAtLastDash?_eq_some.mpr ⟨htext, no_dash_in_version hn⟩]
    simp only [decide_true, Bool.true_and, hversion]
    exact ⟨n, hn⟩

instance (other implName : String) : Decidable (Files other implName) :=
  decidable_of_iff _ isEntryOf_iff

theorem files_key (implName : String) (h : specVersion < 2 ^ 32) :
    Files (key implName specVersion) implName :=
  ⟨_, toList_key implName specVersion, specVersion, Text.parseNatural_toDigits h⟩

theorem Files.unique (h : Files other implName) (hname : Files other name) :
    implName = name := by
  obtain ⟨version, htext, n, hn⟩ := h
  obtain ⟨version', htext', n', hn'⟩ := hname
  have hsplit := splitAtLastDash?_eq_some.mpr ⟨htext, no_dash_in_version hn⟩
  rw [splitAtLastDash?_eq_some.mpr ⟨htext', no_dash_in_version hn'⟩] at hsplit
  rw [Option.some.injEq, Prod.mk.injEq] at hsplit
  exact String.toList_injective hsplit.1.symm

/-! One filing. -/

variable {store store' : Store}

/-- Some keys are taken out of a store, and the others stay as they are. -/
structure Evicted (keys : List String) (store store' : Store) : Prop where
  get : ∀ other, store'.get other = if other ∈ keys then .ok none else store.get other
  lists : ∀ other, store'.Lists other ↔ other ∉ keys ∧ store.Lists other
  takes : ∀ other, store.Takes other → store'.Takes other
  sound : store.Sound → store'.Sound

theorem evict_of_takes {keys : List String} (h : ∀ key ∈ keys, store.Takes key) :
    ∃ store', evict store keys = (store', .ok ()) ∧ Evicted keys store store' := by
  induction keys generalizing store with
  | nil => exact ⟨store, rfl, by simp, by simp, fun _ h => h, fun h => h⟩
  | cons key rest ih =>
      obtain ⟨hkey, hrest⟩ := List.forall_mem_cons.mp h
      obtain ⟨middle, hremove, hchanges⟩ := Store.remove_of_takes hkey
      obtain ⟨store', hevict, hevicted⟩ := ih fun other hother =>
        hchanges.takes other (hrest other hother)
      refine ⟨store', ?_, fun other => ?_, fun other => ?_, fun other hother => ?_,
        fun hsound => ?_⟩
      · rw [evict, hremove]
        exact hevict
      · rw [hevicted.get, hchanges.get]
        grind
      · rw [hevicted.lists, hchanges.lists]
        grind
      · exact hevicted.takes other (hchanges.takes other hother)
      · exact hevicted.sound (hchanges.sound hsound hkey)

/-- The implementation's only key is the one that was filed, and what does
not concern it stays as it is. -/
structure Filed (implName : String) (specVersion : Nat) (blob : String)
    (store store' : Store) : Prop where
  get : ∀ other, ¬ Files other implName → store'.get other = store.get other
  blob : store'.get (key implName specVersion) = .ok (some blob)
  lists : ∀ other, store'.Lists other ↔
    if Files other implName then other = key implName specVersion else store.Lists other
  takes : ∀ other, store.Takes other → store'.Takes other
  sound : store'.Sound

theorem replace_of_takes (blob : String) (hsound : store.Sound)
    (htakes : store.Takes (key implName specVersion)) (hversion : specVersion < 2 ^ 32) :
    ∃ store', replace store implName specVersion blob = (store', .ok ()) ∧
      Filed implName specVersion blob store store' := by
  obtain ⟨keys, hkeys⟩ := hsound.listed
  have hmem : ∀ other, store.Lists other ↔ other ∈ keys := by
    simp [Store.Lists, hkeys]
  have hfiles := files_key implName hversion
  have hlisted : ∀ other ∈ keys.filter (isEntryOf implName), store.Takes other :=
    fun other hother => hsound.takes other ((hmem other).mpr (List.mem_filter.mp hother).1)
  obtain ⟨middle, hevict, hevicted⟩ := evict_of_takes hlisted
  obtain ⟨store', hset, hchanges⟩ := Store.set_of_takes (hevicted.takes _ htakes) blob
  refine ⟨store', ?_, ?_⟩
  · simp only [replace, hkeys, hevict, hset]
  · constructor
    case get =>
      intro other hother
      have hne : other ≠ key implName specVersion := by
        rintro rfl
        exact hother hfiles
      rw [hchanges.get, if_neg hne, hevicted.get, if_neg]
      simp [isEntryOf_iff, hother]
    case blob => rw [hchanges.get, if_pos rfl]
    case lists =>
      intro other
      rw [hchanges.lists, hevicted.lists, List.mem_filter, isEntryOf_iff, hmem]
      grind
    case takes =>
      exact fun other hother => hchanges.takes other (hevicted.takes other hother)
    case sound => exact hchanges.sound (hevicted.sound hsound) (hevicted.takes _ htakes)

/-! Filing one blob after another. -/

structure Filing where
  implName : String
  specVersion : Nat
  blob : String

def Filing.key (filing : Filing) : String :=
  MetadataCache.key filing.implName filing.specVersion

def Filing.replace (filing : Filing) (store : Store) : Store × Except CacheError Unit :=
  MetadataCache.replace store filing.implName filing.specVersion filing.blob

def replaceAll (store : Store) (filings : List Filing) : Store :=
  filings.foldl (fun store filing => (filing.replace store).1) store

/-- The last filing for an implementation. -/
def newest? (filings : List Filing) (implName : String) : Option Filing :=
  (filings.filter (·.implName = implName)).getLast?

theorem newest?_append_singleton (filings : List Filing) (filing : Filing)
    (implName : String) :
    newest? (filings ++ [filing]) implName =
      if filing.implName = implName then some filing else newest? filings implName := by
  unfold newest?
  rw [List.filter_append]
  split
  case isTrue h => simp [h]
  case isFalse h => simp [h]

theorem replaceAll_append_singleton (store : Store) (filings : List Filing)
    (filing : Filing) :
    replaceAll store (filings ++ [filing]) =
      (filing.replace (replaceAll store filings)).1 := by
  simp [replaceAll]

/-- What came of some filings. -/
structure Kept (store : Store) (filings : List Filing) (store' : Store) : Prop where
  newest : ∀ implName filing, newest? filings implName = some filing →
    (∀ other, store'.Lists other ∧ Files other implName ↔ other = filing.key) ∧
      store'.get filing.key = .ok (some filing.blob)
  others : ∀ other, (∀ filing ∈ filings, ¬ Files other filing.implName) →
    store'.get other = store.get other ∧ (store'.Lists other ↔ store.Lists other)
  takes : ∀ other, store.Takes other → store'.Takes other
  sound : store'.Sound

theorem Kept.nil (h : store.Sound) : Kept store [] store :=
  ⟨nofun, fun _ _ => ⟨rfl, Iff.rfl⟩, fun _ h => h, h⟩

theorem implName_of_newest? {filings : List Filing} {filing : Filing}
    (h : newest? filings implName = some filing) :
    filing.implName = implName ∧ filing ∈ filings := by
  have hmem := List.mem_filter.mp (List.mem_of_getLast? h)
  exact ⟨by simpa using hmem.2, hmem.1⟩

theorem Kept.snoc {filings : List Filing} {middle : Store} {filing : Filing}
    (h : Kept store filings middle)
    (hversions : ∀ filing ∈ filings, filing.specVersion < 2 ^ 32)
    (hversion : filing.specVersion < 2 ^ 32)
    (hfiled : Filed filing.implName filing.specVersion filing.blob middle store') :
    Kept store (filings ++ [filing]) store' where
  newest implName last hlast := by
    rw [newest?_append_singleton] at hlast
    split at hlast
    case isTrue hname =>
      cases hlast
      subst hname
      have hfiles := files_key filing.implName hversion
      refine ⟨fun other => ?_, hfiled.blob⟩
      rw [hfiled.lists, Filing.key]
      constructor
      · rintro ⟨hlists, hother⟩
        rwa [if_pos hother] at hlists
      · rintro rfl
        exact ⟨by rw [if_pos hfiles], hfiles⟩
    case isFalse hname =>
      -- The key of one implementation files no version of the other.
      have hdistinct : ∀ other, Files other implName → ¬ Files other filing.implName :=
        fun other hother hfiling => hname (hfiling.unique hother)
      obtain ⟨hlists, hget⟩ := h.newest implName last hlast
      obtain ⟨rfl, hmem⟩ := implName_of_newest? hlast
      refine ⟨fun other => ?_, ?_⟩
      · rw [← hlists, hfiled.lists]
        constructor
        · rintro ⟨hother, hfiles⟩
          rw [if_neg (hdistinct other hfiles)] at hother
          exact ⟨hother, hfiles⟩
        · rintro ⟨hother, hfiles⟩
          rw [if_neg (hdistinct other hfiles)]
          exact ⟨hother, hfiles⟩
      · rw [hfiled.get last.key (hdistinct _ (files_key _ (hversions last hmem)))]
        exact hget
  others other hother := by
    obtain ⟨hfilings, hlast⟩ := List.forall_mem_append.mp hother
    have hfiling := hlast filing List.mem_cons_self
    obtain ⟨hget, hlists⟩ := h.others other hfilings
    rw [hfiled.get other hfiling, hfiled.lists, if_neg hfiling]
    exact ⟨hget, hlists⟩
  takes other hother := hfiled.takes other (h.takes other hother)
  sound := hfiled.sound

theorem replace_of_kept {filings : List Filing} {middle : Store} {filing : Filing}
    (h : Kept store filings middle) (htakes : store.Takes filing.key)
    (hversion : filing.specVersion < 2 ^ 32) :
    ∃ store', filing.replace middle = (store', .ok ()) ∧
      Filed filing.implName filing.specVersion filing.blob middle store' :=
  replace_of_takes filing.blob h.sound (h.takes filing.key htakes) hversion

theorem kept_replaceAll {filings : List Filing} (hsound : store.Sound)
    (htakes : ∀ filing ∈ filings, store.Takes filing.key)
    (hversions : ∀ filing ∈ filings, filing.specVersion < 2 ^ 32) :
    Kept store filings (replaceAll store filings) := by
  induction filings using List.reverseRecOn with
  | nil => exact .nil hsound
  | append_singleton filings filing ih =>
      obtain ⟨htakes, htakesLast⟩ := List.forall_mem_append.mp htakes
      obtain ⟨hversions, hversionLast⟩ := List.forall_mem_append.mp hversions
      have hversion := hversionLast filing List.mem_cons_self
      have hkept := ih htakes hversions
      obtain ⟨store', hreplace, hfiled⟩ :=
        replace_of_kept hkept (htakesLast filing List.mem_cons_self) hversion
      rw [replaceAll_append_singleton, hreplace]
      exact hkept.snoc hversions hversion hfiled

/-- What a store holds after some filings, each of which succeeds. -/
structure KeepsNewest (store : Store) (filings : List Filing) : Prop where
  succeeds : ∀ before filing after, filings = before ++ filing :: after →
    (filing.replace (replaceAll store before)).2 = .ok ()
  /-- The only key that files a version of the implementation is that of the last filing. -/
  key : ∀ implName filing, newest? filings implName = some filing → ∀ other,
    (replaceAll store filings).Lists other ∧ Files other implName ↔ other = filing.key
  blob : ∀ implName filing, newest? filings implName = some filing →
    ∀ specVersion < 2 ^ 32, get? (replaceAll store filings) implName specVersion =
      if specVersion = filing.specVersion then some filing.blob else none
  others : ∀ implName, (∀ filing ∈ filings, filing.implName ≠ implName) →
    ∀ other, Files other implName →
      (replaceAll store filings).get other = store.get other ∧
        ((replaceAll store filings).Lists other ↔ store.Lists other)
  unversioned : ∀ other, (∀ implName, ¬ Files other implName) →
    (replaceAll store filings).get other = store.get other ∧
      ((replaceAll store filings).Lists other ↔ store.Lists other)

theorem Kept.get? {filings : List Filing} {filing : Filing} (h : Kept store filings store')
    (hnewest : newest? filings implName = some filing) (hversion : specVersion < 2 ^ 32) :
    get? store' implName specVersion =
      if specVersion = filing.specVersion then some filing.blob else none := by
  obtain ⟨hlists, hget⟩ := h.newest implName filing hnewest
  obtain ⟨rfl, -⟩ := implName_of_newest? hnewest
  split
  case isTrue heq =>
    subst heq
    exact get?_eq_some.mpr hget
  case isFalse hne =>
    cases hfound : MetadataCache.get? store' filing.implName specVersion with
    | none => rfl
    | some text =>
        have hlisted := Store.lists_of_get (get?_eq_some.mp hfound)
        have hkey := (hlists _).mp ⟨hlisted, files_key filing.implName hversion⟩
        exact absurd (key_inj hkey).2 hne

/-- Of each implementation the blob that was filed last is kept, alone, and
keys that do not concern it keep their values, for any store whose keys and
those to be filed can be written. -/
theorem newest_kept (store : Store) (filings : List Filing) (hsound : store.Sound)
    (htakes : ∀ filing ∈ filings, store.Takes filing.key)
    (hversions : ∀ filing ∈ filings, filing.specVersion < 2 ^ 32) :
    KeepsNewest store filings ∧
      ∀ implName specVersion other otherVersion,
        key implName specVersion = key other otherVersion ↔
          implName = other ∧ specVersion = otherVersion := by
  have hkept := kept_replaceAll hsound htakes hversions
  refine ⟨⟨?_, ?_, ?_, ?_, ?_⟩, fun implName specVersion other otherVersion => ?_⟩
  · rintro before filing after rfl
    obtain ⟨hbefore, hafter⟩ := List.forall_mem_append.mp htakes
    obtain ⟨hbeforeVersions, hafterVersions⟩ := List.forall_mem_append.mp hversions
    obtain ⟨store', hreplace, -⟩ := replace_of_kept
      (kept_replaceAll hsound hbefore hbeforeVersions) (hafter filing List.mem_cons_self)
      (hafterVersions filing List.mem_cons_self)
    rw [hreplace]
  · exact fun implName filing hnewest => (hkept.newest implName filing hnewest).1
  · exact fun implName filing hnewest specVersion hversion => hkept.get? hnewest hversion
  · intro implName hnone other hother
    exact hkept.others other fun filing hmem hfiling =>
      hnone filing hmem (hfiling.unique hother)
  · exact fun other hother => hkept.others other fun filing _ => hother filing.implName
  · exact ⟨key_inj, fun ⟨hname, hversion⟩ => by rw [hname, hversion]⟩

/-! One name starts with the other, and the version of an old key is written with zeros. -/

def oldKeys : Store :=
  .files ⟨some [("node-007", .file [0x30]), ("node-dev-7", .file [0x31]),
    ("node-x", .file [0x32]),
    ("node", .file [0x33]), ("sub", .directory)]⟩

def upgrades : List Filing :=
  [⟨"node", 8, "0x08"⟩, ⟨"node-dev", 8, "0x18"⟩, ⟨"node", 9, "0x09"⟩]

theorem newest_kept_upgrades :
    oldKeys.Sound ∧ (∀ filing ∈ upgrades, oldKeys.Takes filing.key) ∧
      (∀ filing ∈ upgrades, filing.specVersion < 2 ^ 32) ∧
      (∀ other, (replaceAll oldKeys upgrades).Lists other ∧ Files other "node" ↔
        other = "node-9") ∧
      get? (replaceAll oldKeys upgrades) "node" 8 = none ∧
      get? (replaceAll oldKeys upgrades) "node-dev" 8 = some "0x18" ∧
      (replaceAll oldKeys upgrades).get "node-x" = oldKeys.get "node-x" := by
  have hsound : oldKeys.Sound := by
    refine ⟨⟨_, rfl⟩, ?_⟩
    rintro key ⟨keys, hkeys, hmem⟩
    cases hkeys
    revert key
    decide
  have htakes : ∀ filing ∈ upgrades, oldKeys.Takes filing.key := by decide
  have hversions : ∀ filing ∈ upgrades, filing.specVersion < 2 ^ 32 := by decide
  obtain ⟨hkept, -⟩ := newest_kept oldKeys upgrades hsound htakes hversions
  refine ⟨hsound, htakes, hversions, hkept.key "node" _ rfl, ?_, ?_, ?_⟩
  · exact hkept.blob "node" _ rfl 8 (by decide)
  · exact hkept.blob "node-dev" _ rfl 8 (by decide)
  · refine (hkept.unversioned "node-x" fun implName hfiles => ?_).1
    obtain ⟨version, htext, n, hn⟩ := hfiles
    have hsplit := splitAtLastDash?_eq_some.mpr ⟨htext, no_dash_in_version hn⟩
    have hdash : splitAtLastDash? "node-x".toList = some ("node".toList, ['x']) := by decide
    rw [hdash, Option.some.injEq, Prod.mk.injEq] at hsplit
    rw [← hsplit.2] at hn
    cases hn

end ChainClient.MetadataCache
