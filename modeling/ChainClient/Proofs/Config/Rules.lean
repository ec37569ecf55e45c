import ChainClient.Config.File
import ChainClient.Proofs.Config.Variables

/-! The settings that variables give, and the rules that they keep.  What is read from a
list of variables depends neither on their order nor on variables that give no setting. -/

namespace ChainClient

namespace Config

/-- The rules of all sections. -/
structure Lawful (config : Config) : Prop where
  url : Url.scheme config.url = .ok "ws" ∨ Url.scheme config.url = .ok "wss"
  level : config.log.level ∈ ["trace", "debug", "info", "warn", "error"]
  writePath : config.log.write = true → config.log.writePath ≠ ""
  fileSize : config.log.write = true → 0 < config.log.writeMaxFileSize
  cachePath : config.cache.inMemory = false → config.cache.path ≠ ""
  secret : config.secret? ≠ some ""

theorem scheme_empty : Url.scheme "" = .error .noScheme := by
  rfl

theorem checkUrl_eq_ok {url : String} :
    checkUrl url = .ok () ↔ Url.scheme url = .ok "ws" ∨ Url.scheme url = .ok "wss" := by
  unfold checkUrl
  split
  case isTrue hempty => simp [hempty, scheme_empty]
  case isFalse =>
    cases Url.scheme url with
    | error cause => simp
    | ok scheme =>
        simp only [Except.ok.injEq]
        split
        case isTrue hscheme => exact iff_of_true rfl hscheme
        case isFalse hscheme => exact iff_of_false nofun hscheme

theorem checkLog_eq_ok {log : LogSettings} :
    checkLog log = .ok () ↔ log.level ∈ logLevels ∧
      (log.write = true → log.writePath ≠ "") ∧
        (log.write = true → 0 < log.writeMaxFileSize) := by
  unfold checkLog
  split
  case isTrue hlevel => simp [hlevel]
  case isFalse hlevel =>
    split
    case isTrue hpath => simp [hpath]
    case isFalse hpath =>
      split
      case isTrue hsize => simp [hsize]
      case isFalse hsize =>
        simp only [true_iff]
        refine ⟨Decidable.not_not.mp hlevel, fun hwrite hempty => hpath ⟨hwrite, hempty⟩,
          fun hwrite => Nat.pos_of_ne_zero fun hzero => hsize ⟨hwrite, hzero⟩⟩

theorem checkCache_eq_ok {cache : CacheSettings} :
    checkCache cache = .ok () ↔ (cache.inMemory = false → cache.path ≠ "") := by
  unfold checkCache
  cases cache.inMemory <;> simp

theorem check_eq_ok {config : Config} (hsecret : config.secret? ≠ some "") :
    config.check = .ok () ↔ config.Lawful := by
  simp only [check, bind_eq_ok]
  constructor
  · rintro ⟨⟨⟩, hurl, ⟨⟩, hlog, hcache⟩
    obtain ⟨hlevel, hpath, hsize⟩ := checkLog_eq_ok.mp hlog
    exact ⟨checkUrl_eq_ok.mp hurl, hlevel, hpath, hsize,
      checkCache_eq_ok.mp hcache, hsecret⟩
  · rintro ⟨hurl, hlevel, hpath, hsize, hcache, -⟩
    exact ⟨(), checkUrl_eq_ok.mpr hurl, (), checkLog_eq_ok.mpr ⟨hlevel, hpath, hsize⟩,
      checkCache_eq_ok.mpr hcache⟩

end Config

namespace Given

variable {entries others extra : List (String × String)} {given given' : Given}
  {config : Config}

theorem config_congr (h : ∀ setting, given.lookup setting = given'.lookup setting) :
    given.config = given'.config := by
  simp only [config, text, flag, size, h]

theorem secret?_config (given : Given) : given.config.secret? ≠ some "" := by
  simp [config, Option.filter_eq_some_iff]

theorem usable_of_perm (hperm : others.Perm entries) : Usable others ↔ Usable entries := by
  have hsymmetric : ∀ {entry other : String × String},
      (∀ setting, Variable.Names entry.1 setting → ¬ Variable.Names other.1 setting) →
        ∀ setting, Variable.Names other.1 setting → ¬ Variable.Names entry.1 setting :=
    fun h setting hother hentry => h setting hentry hother
  constructor
  · rintro ⟨honce, hreadable⟩
    exact ⟨(hperm.pairwise_iff hsymmetric).mp honce,
      fun entry hentry => hreadable entry (hperm.mem_iff.mpr hentry)⟩
  · rintro ⟨honce, hreadable⟩
    exact ⟨(hperm.pairwise_iff hsymmetric).mpr honce,
      fun entry hentry => hreadable entry (hperm.mem_iff.mp hentry)⟩

theorem config_of_perm (husable : Usable entries) (hperm : others.Perm entries) :
    (collect others).config = (collect entries).config :=
  config_congr fun _ => Assoc.lookup_of_perm husable.nodup_keys (hperm.filterMap _)

theorem config_reverse (husable : Usable entries) :
    Given.config (collect entries).reverse = (collect entries).config :=
  config_congr fun _ => Assoc.lookup_of_perm husable.nodup_keys (List.reverse_perm _)

/-! Variables that give no setting. -/

section Company

variable (hextra : ∀ entry ∈ extra, ∀ setting, ¬ Variable.Names entry.1 setting)

include hextra

theorem collect_of_unnamed : collect extra = [] := by
  rw [List.eq_nil_iff_forall_not_mem]
  rintro ⟨setting, value⟩ hmem
  obtain ⟨name, hname, hnames⟩ := mem_collect.mp hmem
  exact hextra (name, value) hname setting hnames

theorem collect_append_of_unnamed : collect (entries ++ extra) = collect entries := by
  have hsplit : collect (entries ++ extra) = collect entries ++ collect extra :=
    List.filterMap_append
  rw [hsplit, collect_of_unnamed hextra, List.append_nil]

theorem usable_append_of_unnamed : Usable (entries ++ extra) ↔ Usable entries := by
  constructor
  · rintro ⟨honce, hreadable⟩
    exact ⟨(List.pairwise_append.mp honce).1,
      fun entry hentry => hreadable entry (List.mem_append_left extra hentry)⟩
  · rintro ⟨honce, hreadable⟩
    refine ⟨List.pairwise_append.mpr ⟨honce, ?_, ?_⟩,
      List.forall_mem_append.mpr ⟨hreadable, ?_⟩⟩
    · exact List.Pairwise.imp_of_mem (fun hentry _ _ setting hnames =>
        absurd hnames (hextra _ hentry setting))
          (List.pairwise_of_forall fun _ _ => trivial)
    · exact fun _ _ other hother setting _ => hextra other hother setting
    · exact fun entry hentry setting hnames => absurd hnames (hextra entry hentry setting)

end Company

end Given

namespace Config

open Given

variable {entries others extra : List (String × String)} {config : Config}

/-- Settings are read exactly from variables that can be used, and
only if they keep the rules. -/
theorem ofVariables_eq_ok : ofVariables entries = .ok config ↔
    Usable entries ∧ config = (collect entries).config ∧ config.Lawful := by
  simp only [ofVariables, bind_eq_ok, mapError_eq_ok, Given.ofVariables_eq_ok, pure,
    Except.pure, Except.ok.injEq]
  constructor
  · rintro ⟨given, ⟨husable, rfl⟩, ⟨⟩, hcheck, rfl⟩
    rw [config_reverse husable] at hcheck ⊢
    exact ⟨husable, rfl, (check_eq_ok (secret?_config _)).mp hcheck⟩
  · rintro ⟨husable, rfl, hlawful⟩
    refine ⟨_, ⟨husable, rfl⟩, (), ?_, config_reverse husable⟩
    rw [config_reverse husable]
    exact (check_eq_ok (secret?_config _)).mpr hlawful

def fileLogging : List (String × String) :=
  [("DOTS_SUBSTRATE_URL", "ws://localhost:9944"), ("DOTS_DOTS_log_write", "true"),
    ("DOTS_Log_Write_Max_File_Size", "+1")]

def company : List (String × String) := [("LOG_WRITE", "maybe"), ("DOTS_", "")]

def mixed : List (String × String) :=
  [("LOG_WRITE", "maybe"), ("DOTS_Log_Write_Max_File_Size", "+1"),
    ("DOTS_SUBSTRATE_URL", "ws://localhost:9944"), ("DOTS_", ""),
    ("DOTS_DOTS_log_write", "true")]

end Config

end ChainClient
