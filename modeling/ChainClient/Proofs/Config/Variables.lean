import ChainClient.Config.Variables
import ChainClient.Proofs.Assoc
import ChainClient.Proofs.Outcome

/-! Which settings variables give.  Names are compared without their marks and without
regard to case; lists of variables are read as a whole or refused. -/

namespace ChainClient

theorem Setting.ofName?_eq_some {name : String} {setting : Setting} :
    ofName? name = some setting ↔ setting.name = name := by
  constructor
  · intro h
    simpa using List.find?_some h
  · rintro rfl
    cases setting <;> decide

namespace Variable

def mark : List Char := ['D', 'O', 'T', 'S', '_']

/-- A name gives a setting if it consists of marks and the
name of the setting in any case. -/
def Names (name : String) (setting : Setting) : Prop :=
  ∃ marks rest, name.toList = (List.replicate (marks + 1) mark).flatten ++ rest ∧
    rest.map Char.toLower = setting.name.toList

/-- The setting that a variable of this name gives. -/
def names? (name : String) : Option Setting :=
  (stripMark? name.toList).bind setting?

theorem stripMark?_mark (rest : List Char) :
    stripMark? (mark ++ rest) = some ((stripMark? rest).getD rest) := rfl

theorem marks_of_stripMark? {text rest : List Char} (h : stripMark? text = some rest) :
    ∃ marks, text = (List.replicate (marks + 1) mark).flatten ++ rest := by
  induction text using stripMark?.induct generalizing rest with
  | case1 text ih =>
      rw [stripMark?] at h
      cases hstripped : stripMark? text with
      | none =>
          rw [hstripped] at h
          cases h
          exact ⟨0, rfl⟩
      | some stripped =>
          rw [hstripped] at h
          cases h
          obtain ⟨marks, rfl⟩ := ih hstripped
          exact ⟨marks + 1, rfl⟩
  | case2 text hunmarked =>
      rw [stripMark?] at h
      · cases h
      · exact hunmarked

theorem stripMark?_of_marks {rest : List Char} (h : stripMark? rest = none) (marks : Nat) :
    stripMark? ((List.replicate (marks + 1) mark).flatten ++ rest) = some rest := by
  induction marks with
  | zero =>
      have hmarked := stripMark?_mark rest
      rwa [h] at hmarked
  | succ marks ih =>
      rw [List.replicate_succ, List.flatten_cons, List.append_assoc, stripMark?_mark, ih]
      rfl

/-- No setting starts as the mark does. -/
theorem stripMark?_of_setting {rest : List Char} {setting : Setting}
    (h : rest.map Char.toLower = setting.name.toList) : stripMark? rest = none := by
  unfold stripMark?
  split
  case h_1 =>
    exfalso
    revert h
    cases setting <;> simp [Setting.name]
  case h_2 => rfl

theorem names?_eq_some {name : String} {setting : Setting} :
    names? name = some setting ↔ Names name setting := by
  have hsetting : ∀ rest, setting? rest = some setting ↔
      rest.map Char.toLower = setting.name.toList := by
    intro rest
    rw [setting?, Setting.ofName?_eq_some, ← String.toList_inj,
      String.toList_ofList, eq_comm]
  rw [names?, Option.bind_eq_some_iff]
  constructor
  · rintro ⟨rest, hstripped, hrest⟩
    obtain ⟨marks, hname⟩ := marks_of_stripMark? hstripped
    exact ⟨marks, rest, hname, (hsetting rest).mp hrest⟩
  · rintro ⟨marks, rest, hname, hrest⟩
    refine ⟨rest, ?_, (hsetting rest).mpr hrest⟩
    rw [hname, stripMark?_of_marks (stripMark?_of_setting hrest)]

theorem names?_eq_none {name : String} :
    names? name = none ↔ ∀ setting, ¬ Names name setting := by
  simp only [Option.eq_none_iff_forall_ne_some, ne_eq, names?_eq_some]

end Variable

namespace Given

variable {entries others : List (String × String)} {given given' : Given}

/-- What variables give, in their order. -/
def collect (entries : List (String × String)) : Given :=
  entries.filterMap fun (name, value) => (Variable.names? name).map (·, value)

/-- No setting is given twice, and every value can be read. -/
structure Usable (entries : List (String × String)) : Prop where
  once : entries.Pairwise fun entry other =>
    ∀ setting, Variable.Names entry.1 setting → ¬ Variable.Names other.1 setting
  readable : ∀ entry ∈ entries, ∀ setting, Variable.Names entry.1 setting →
    setting.checkValue entry.2 = .ok ()

theorem mem_collect {setting : Setting} {value : String} :
    (setting, value) ∈ collect entries ↔
      ∃ name, (name, value) ∈ entries ∧ Variable.Names name setting := by
  simp only [collect, List.mem_filterMap, Prod.exists, Option.map_eq_some_iff,
    Prod.mk.injEq, Variable.names?_eq_some]
  constructor
  · rintro ⟨name, other, hmem, found, hnames, rfl, rfl⟩
    exact ⟨name, hmem, hnames⟩
  · rintro ⟨name, hmem, hnames⟩
    exact ⟨name, value, hmem, setting, hnames, rfl, rfl⟩

theorem mem_keys_collect {setting : Setting} : setting ∈ Assoc.keys (collect entries) ↔
    ∃ entry ∈ entries, Variable.Names entry.1 setting := by
  simp only [Assoc.mem_keys, mem_collect, Prod.exists]
  constructor
  · rintro ⟨value, name, hmem, hnames⟩
    exact ⟨name, value, hmem, hnames⟩
  · rintro ⟨name, value, hmem, hnames⟩
    exact ⟨value, name, hmem, hnames⟩

theorem collect_cons_of_unnamed {entry : String × String}
    (h : Variable.names? entry.1 = none) :
    collect (entry :: entries) = collect entries := by
  simp [collect, h]

theorem collect_cons {entry : String × String} {setting : Setting}
    (h : Variable.names? entry.1 = some setting) :
    collect (entry :: entries) = (setting, entry.2) :: collect entries := by
  simp [collect, h]

theorem usable_nil : Usable [] := ⟨List.Pairwise.nil, nofun⟩

theorem usable_cons_iff {entry : String × String} : Usable (entry :: entries) ↔
    Usable entries ∧ ∀ setting, Variable.Names entry.1 setting →
      setting.checkValue entry.2 = .ok () ∧ setting ∉ Assoc.keys (collect entries) := by
  constructor
  · rintro ⟨honce, hreadable⟩
    obtain ⟨hfirst, honce⟩ := List.pairwise_cons.mp honce
    obtain ⟨hentry, hreadable⟩ := List.forall_mem_cons.mp hreadable
    refine ⟨⟨honce, hreadable⟩,
      fun setting hnames => ⟨hentry setting hnames, fun hmem => ?_⟩⟩
    obtain ⟨other, hother, hagain⟩ := mem_keys_collect.mp hmem
    exact hfirst other hother setting hnames hagain
  · rintro ⟨⟨honce, hreadable⟩, hentry⟩
    refine ⟨List.pairwise_cons.mpr ⟨fun other hother setting hnames hagain => ?_, honce⟩,
      List.forall_mem_cons.mpr ⟨fun setting hnames => (hentry setting hnames).1, hreadable⟩⟩
    exact (hentry setting hnames).2 (mem_keys_collect.mpr ⟨other, hother, hagain⟩)

theorem Usable.nodup_keys (h : Usable entries) : (Assoc.keys (collect entries)).Nodup := by
  induction entries with
  | nil => exact List.nodup_nil
  | cons entry rest ih =>
      obtain ⟨hrest, hentry⟩ := usable_cons_iff.mp h
      cases hnames : Variable.names? entry.1 with
      | none =>
          rw [collect_cons_of_unnamed hnames]
          exact ih hrest
      | some setting =>
          rw [collect_cons hnames]
          exact List.nodup_cons.mpr
            ⟨(hentry setting (Variable.names?_eq_some.mp hnames)).2, ih hrest⟩

/-! Taking variables in. -/

theorem add_of_unnamed {entry : String × String} (h : Variable.names? entry.1 = none) :
    given.add entry = .ok given := by
  unfold add
  cases hstripped : Variable.stripMark? entry.1.toList with
  | none => simp only [hstripped]
  | some name =>
      rw [Variable.names?, hstripped, Option.bind_some] at h
      simp only [hstripped, h]

theorem add_eq_ok {entry : String × String} {setting : Setting}
    (h : Variable.names? entry.1 = some setting) :
    given.add entry = .ok given' ↔ given.lookup setting = none ∧
      setting.checkValue entry.2 = .ok () ∧ given' = (setting, entry.2) :: given := by
  obtain ⟨name, hstripped, hnames⟩ := Option.bind_eq_some_iff.mp h
  simp only [add, hstripped, hnames]
  cases hgiven : given.lookup setting with
  | some value => simp
  | none =>
      cases hcheck : setting.checkValue entry.2 with
      | error cause => simp
      | ok _ => simp [eq_comm]

theorem lookup_cons_eq_none {setting other : Setting} {value : String} :
    List.lookup other ((setting, value) :: given) = none ↔
      other ≠ setting ∧ given.lookup other = none := by
  by_cases h : other = setting
  · simp [h]
  · simp [List.lookup_cons, h, beq_eq_false_iff_ne.mpr h]

/-- Variables are taken in as long as they give what was not given before. -/
theorem foldlM_add_eq_ok :
    entries.foldlM add given = .ok given' ↔ Usable entries ∧
      (∀ setting ∈ Assoc.keys (collect entries), given.lookup setting = none) ∧
      given' = (collect entries).reverse ++ given := by
  induction entries generalizing given with
  | nil =>
      refine ⟨fun h => ?_, ?_⟩
      · cases h
        exact ⟨usable_nil, nofun, rfl⟩
      · rintro ⟨-, -, rfl⟩
        rfl
  | cons entry rest ih =>
      rw [List.foldlM_cons, bind_eq_ok, usable_cons_iff]
      cases hnames : Variable.names? entry.1 with
      | none =>
          have hunnamed := Variable.names?_eq_none.mp hnames
          simp only [add_of_unnamed hnames, collect_cons_of_unnamed hnames, Except.ok.injEq]
          grind
      | some setting =>
          have hnamed : ∀ other, Variable.Names entry.1 other ↔ other = setting := by
            intro other
            rw [← Variable.names?_eq_some, hnames, Option.some.injEq, eq_comm]
          simp only [add_eq_ok hnames, collect_cons hnames, ih, hnamed, Assoc.keys,
            List.map_cons, List.mem_cons, List.reverse_cons, List.append_assoc,
            List.singleton_append]
          constructor
          · rintro ⟨middle, ⟨hnone, hcheck, rfl⟩, husable, hnew, rfl⟩
            simp only [lookup_cons_eq_none] at hnew
            grind
          · rintro ⟨⟨husable, hentry⟩, hnew, rfl⟩
            obtain ⟨hcheck, hother⟩ := hentry setting rfl
            refine ⟨_, ⟨hnew setting (.inl rfl), hcheck, rfl⟩, husable,
              fun other hmem => ?_, rfl⟩
            rw [lookup_cons_eq_none]
            exact ⟨fun hsame => hother (hsame ▸ hmem), hnew other (.inr hmem)⟩

theorem ofVariables_eq_ok :
    ofVariables entries = .ok given ↔ Usable entries ∧
      given = (collect entries).reverse := by
  rw [ofVariables, foldlM_add_eq_ok, List.append_nil]
  exact ⟨fun ⟨husable, _, hgiven⟩ => ⟨husable, hgiven⟩,
    fun ⟨husable, hgiven⟩ => ⟨husable, fun _ _ => rfl, hgiven⟩⟩

end Given

end ChainClient
