import ChainClient.Proofs.Metadata.Conversion

/-! Chains of wrappers.  Every type of a chain has the descriptor of the type at
its inner end, unless this end is too far away; a chain that leads out of the
list fails the whole conversion. -/

namespace ChainClient

namespace PortableTypes

/-- What a type wraps, if it is listed and a wrapper. -/
def inner? (types : PortableTypes) (id : TypeId) : Option TypeId := do
  (← types[id]?).definition.wrapped?

/-- The type inside `steps` wrappers that stand one in another, the outermost being `id`. -/
def follow (types : PortableTypes) : (steps : Nat) → TypeId → Option TypeId
  | 0, id => some id
  | steps + 1, id => do follow types steps (← types.inner? id)

/-- More wrappers stand one in another than are followed. -/
def Overlong (types : PortableTypes) (id : TypeId) : Prop :=
  ∃ steps inner, 32 < steps ∧ types.follow steps id = some inner

/-- The wrappers come round to one of them again. -/
def Cyclic (types : PortableTypes) (id : TypeId) : Prop :=
  ∃ steps period inner, types.follow steps id = some inner ∧ 0 < period ∧
    types.follow period inner = some inner

/-- The wrappers that are followed lead to a type that is not listed. -/
def LeadsOutside (types : PortableTypes) (id missing : TypeId) : Prop :=
  ∃ steps, steps ≤ 32 ∧ types.follow steps id = some missing ∧ types.length ≤ missing

/-- The first listed type whose wrappers lead outside leads here. -/
def FirstOutside (types : PortableTypes) (missing : TypeId) : Prop :=
  ∃ id, id < types.length ∧ types.LeadsOutside id missing ∧
    ∀ earlier, earlier < id → ∀ other, ¬ types.LeadsOutside earlier other

variable {types : PortableTypes} {id inner middle : TypeId} {type : PortableType}
  {steps period : Nat}

theorem inner?_eq_some :
    types.inner? id = some inner ↔
      ∃ type, types[id]? = some type ∧ type.definition.wrapped? = some inner :=
  Option.bind_eq_some_iff

theorem inner?_eq_none_iff :
    types.inner? id = none ↔
      types[id]? = none ∨ ∃ type, types[id]? = some type ∧
        type.definition.wrapped? = none := by
  rw [inner?]
  cases types[id]? with
  | none => simp
  | some type => simp

/-! Steps into a chain. -/

@[simp] theorem follow_zero (types : PortableTypes) (id : TypeId) :
    types.follow 0 id = some id := rfl

theorem follow_succ (types : PortableTypes) (steps : Nat) (id : TypeId) :
    types.follow (steps + 1) id = (types.inner? id).bind (types.follow steps) := rfl

theorem follow_add (types : PortableTypes) (first second : Nat) (id : TypeId) :
    types.follow (first + second) id =
      (types.follow first id).bind (types.follow second) := by
  induction first generalizing id with
  | zero => rw [Nat.zero_add, follow_zero, Option.bind_some]
  | succ first ih =>
      rw [Nat.succ_add_eq_add_succ, Nat.add_succ, follow_succ, follow_succ,
        Option.bind_assoc]
      exact Option.bind_congr fun inner _ => ih inner

theorem exists_along (h : types.follow steps id = some inner) {step : Nat}
    (hstep : step ≤ steps) :
    ∃ along, types.follow step id = some along ∧
      types.follow (steps - step) along = some inner := by
  have hsplit : steps = step + (steps - step) := by omega
  rw [hsplit, follow_add] at h
  exact Option.bind_eq_some_iff.mp h

theorem listed_of_follow (h : types.follow steps id = some inner)
    (hinner : inner < types.length) : id < types.length := by
  cases steps with
  | zero =>
      cases h
      exact hinner
  | succ steps =>
      obtain ⟨next, hnext, -⟩ := Option.bind_eq_some_iff.mp h
      obtain ⟨type, htype, -⟩ := inner?_eq_some.mp hnext
      exact (List.getElem?_eq_some_iff.mp htype).1

/-- A chain ends in time, or goes on for longer than it is followed. -/
theorem ends_or_goes_on (types : PortableTypes) (wrappers : Nat) (id : TypeId) :
    (∃ steps inner, steps ≤ wrappers ∧ types.follow steps id = some inner ∧
      types.inner? inner = none) ∨
      ∃ inner, types.follow (wrappers + 1) id = some inner := by
  induction wrappers generalizing id with
  | zero =>
      cases hnext : types.inner? id with
      | none => exact .inl ⟨0, id, Nat.le_refl 0, rfl, hnext⟩
      | some next => exact .inr ⟨next, by rw [follow_succ, hnext]; rfl⟩
  | succ wrappers ih =>
      cases hnext : types.inner? id with
      | none => exact .inl ⟨0, id, Nat.zero_le _, rfl, hnext⟩
      | some next =>
          rcases ih next with ⟨steps, inner, hsteps, hfollow, hend⟩ | ⟨inner, hfollow⟩
          · refine .inl ⟨steps + 1, inner, Nat.succ_le_succ hsteps, ?_, hend⟩
            rw [follow_succ, hnext]
            exact hfollow
          · refine .inr ⟨inner, ?_⟩
            rw [follow_succ, hnext]
            exact hfollow

theorem follow_period (h : types.follow period inner = some inner) (times : Nat) :
    types.follow (times * period) inner = some inner := by
  induction times with
  | zero => rw [Nat.zero_mul, follow_zero]
  | succ times ih =>
      rw [Nat.succ_mul, follow_add, ih]
      exact h

theorem Cyclic.overlong (h : types.Cyclic id) : types.Overlong id := by
  obtain ⟨steps, period, inner, hfollow, hpositive, hperiod⟩ := h
  refine ⟨steps + 33 * period, inner, by omega, ?_⟩
  rw [follow_add, hfollow]
  exact follow_period hperiod 33

end PortableTypes

open PortableTypes

variable {types : PortableTypes} {id inner missing : TypeId} {type : PortableType}
  {steps wrappers : Nat}

/-! One chain. -/

theorem convertWithin_unlisted (h : types[id]? = none) :
    convertWithin types wrappers id = .error (.missingType id) := by
  unfold convertWithin
  simp only [PortableTypes.resolve, h]
  rfl

theorem convertWithin_follow (h : types.follow steps id = some inner) :
    convertWithin types (wrappers + steps) id = convertWithin types wrappers inner := by
  induction steps generalizing id with
  | zero =>
      cases h
      rfl
  | succ steps ih =>
      obtain ⟨next, hnext, hothers⟩ := Option.bind_eq_some_iff.mp h
      obtain ⟨type, htype, hwrapped⟩ := inner?_eq_some.mp hnext
      rw [← Nat.add_assoc, convertWithin_wrapper htype hwrapped]
      exact ih hothers

theorem convertWithin_of_reached (hsteps : steps ≤ wrappers)
    (h : types.follow steps id = some inner) :
    convertWithin types wrappers id = convertWithin types (wrappers - steps) inner := by
  rw [← convertWithin_follow h, Nat.sub_add_cancel hsteps]

theorem convertWithin_of_long (h : types.follow (wrappers + 1) id = some inner) :
    ∃ last, types.follow wrappers id = some last ∧ convertWithin types wrappers id =
      .ok (.unsupported ("recursive wrapper " ++ toString last)) := by
  rw [follow_add] at h
  obtain ⟨last, hlast, hnext⟩ := Option.bind_eq_some_iff.mp h
  rw [follow_succ] at hnext
  obtain ⟨next, hnext, -⟩ := Option.bind_eq_some_iff.mp hnext
  obtain ⟨type, htype, hwrapped⟩ := inner?_eq_some.mp hnext
  refine ⟨last, hlast, ?_⟩
  rw [convertWithin_of_reached (Nat.le_refl wrappers) hlast, Nat.sub_self]
  exact convertWithin_wrapper_zero htype hwrapped

theorem convertWithin_of_overlong (h : types.Overlong id) :
    ∃ last, types.follow 32 id = some last ∧ convertWithin types maxWrappers id =
      .ok (.unsupported ("recursive wrapper " ++ toString last)) := by
  obtain ⟨steps, inner, hsteps, hfollow⟩ := h
  obtain ⟨next, hnext, -⟩ := exists_along hfollow hsteps
  exact convertWithin_of_long hnext

/-- Nothing but a chain that leads out of the list fails. -/
theorem convertWithin_eq_error {error : MetadataError} :
    convertWithin types maxWrappers id = .error error ↔
      ∃ missing, types.LeadsOutside id missing ∧ error = .missingType missing := by
  constructor
  · intro h
    rcases ends_or_goes_on types maxWrappers id with
      ⟨steps, inner, hsteps, hfollow, hend⟩ | ⟨inner, hfollow⟩
    · rw [convertWithin_of_reached hsteps hfollow] at h
      rcases inner?_eq_none_iff.mp hend with hunlisted | ⟨type, htype, hplain⟩
      · rw [convertWithin_unlisted hunlisted] at h
        cases h
        exact ⟨inner, ⟨steps, hsteps, hfollow, List.getElem?_eq_none_iff.mp hunlisted⟩, rfl⟩
      · rw [convertWithin_plain htype hplain] at h
        cases h
    · obtain ⟨last, -, hconverted⟩ := convertWithin_of_long hfollow
      rw [hconverted] at h
      cases h
  · rintro ⟨missing, ⟨steps, hsteps, hfollow, houtside⟩, rfl⟩
    have hreach : steps ≤ maxWrappers := hsteps
    rw [convertWithin_of_reached hreach hfollow]
    exact convertWithin_unlisted (List.getElem?_eq_none_iff.mpr houtside)

theorem converts_iff :
    (∃ descriptor, convertWithin types maxWrappers id = .ok descriptor) ↔
      ∀ missing, ¬ types.LeadsOutside id missing := by
  cases h : convertWithin types maxWrappers id with
  | ok descriptor =>
      refine iff_of_true ⟨descriptor, rfl⟩ fun missing houtside => ?_
      have herror := convertWithin_eq_error.mpr ⟨missing, houtside, rfl⟩
      rw [h] at herror
      cases herror
  | error error =>
      obtain ⟨missing, houtside, -⟩ := convertWithin_eq_error.mp h
      exact iff_of_false nofun fun hinside => hinside missing houtside

/-! The whole list. -/

/-- The first listed type that cannot be converted fails with this error. -/
def FailsFirst (types : PortableTypes) (listed : List PortableType)
    (error : MetadataError) : Prop :=
  ∃ (position : Nat) (type : PortableType), listed[position]? = some type ∧
    convertWithin types maxWrappers type.id = .error error ∧
    ∀ (earlier : Nat) (other : PortableType), earlier < position →
      listed[earlier]? = some other →
      ∃ descriptor, convertWithin types maxWrappers other.id = .ok descriptor

section Listed

variable {first : PortableType} {listed others : List PortableType} {before : TypeRegistry}
  {error failure : MetadataError} {descriptor : TypeDescriptor}

theorem failsFirst_cons_of_error
    (hfirst : convertWithin types maxWrappers first.id = .error failure) :
    FailsFirst types (first :: others) error ↔ failure = error := by
  constructor
  · rintro ⟨position, type, htype, herror, hearlier⟩
    cases position with
    | zero =>
        cases htype
        exact Except.error.inj (hfirst.symm.trans herror)
    | succ position =>
        obtain ⟨descriptor, hconverted⟩ := hearlier 0 first (Nat.succ_pos position) rfl
        rw [hfirst] at hconverted
        cases hconverted
  · rintro rfl
    exact ⟨0, first, rfl, hfirst, nofun⟩

theorem failsFirst_cons_of_ok
    (hfirst : convertWithin types maxWrappers first.id = .ok descriptor) :
    FailsFirst types (first :: others) error ↔ FailsFirst types others error := by
  constructor
  · rintro ⟨position, type, htype, herror, hearlier⟩
    cases position with
    | zero =>
        cases htype
        rw [hfirst] at herror
        cases herror
    | succ position =>
        exact ⟨position, type, htype, herror, fun earlier other hlt hother =>
          hearlier (earlier + 1) other (Nat.succ_lt_succ hlt) hother⟩
  · rintro ⟨position, type, htype, herror, hearlier⟩
    refine ⟨position + 1, type, htype, herror, fun earlier other hlt hother => ?_⟩
    cases earlier with
    | zero =>
        cases hother
        exact ⟨descriptor, hfirst⟩
    | succ earlier => exact hearlier earlier other (Nat.lt_of_succ_lt_succ hlt) hother

theorem foldlM_eq_error_iff :
    listed.foldlM (insertConverted types) before = .error error ↔
      FailsFirst types listed error := by
  induction listed generalizing before with
  | nil =>
      refine iff_of_false nofun ?_
      rintro ⟨position, type, htype, -⟩
      cases htype
  | cons first others ih =>
      rw [List.foldlM_cons, insertConverted]
      cases hfirst : convertWithin types maxWrappers first.id with
      | error failure =>
          rw [failsFirst_cons_of_error hfirst]
          exact ⟨Except.error.inj, congrArg Except.error⟩
      | ok descriptor =>
          rw [failsFirst_cons_of_ok hfirst]
          exact ih

end Listed

theorem convertTypes_eq_error (hpositions : types.DeclarePositions)
    {error : MetadataError} :
    convertTypes types = .error error ↔
      ∃ missing, types.FirstOutside missing ∧ error = .missingType missing := by
  rw [convertTypes_eq, foldlM_eq_error_iff]
  constructor
  · rintro ⟨position, type, htype, herror, hearlier⟩
    rw [hpositions position type htype] at herror
    obtain ⟨missing, houtside, rfl⟩ := convertWithin_eq_error.mp herror
    have hlisted := (List.getElem?_eq_some_iff.mp htype).1
    refine ⟨missing, ⟨position, hlisted, houtside, fun earlier hlt => ?_⟩, rfl⟩
    have hother := List.getElem?_eq_getElem (Nat.lt_trans hlt hlisted)
    have hconverted := hearlier earlier _ hlt hother
    rw [hpositions earlier _ hother] at hconverted
    exact converts_iff.mp hconverted
  · rintro ⟨missing, ⟨id, hlisted, houtside, hearlier⟩, rfl⟩
    have htype := List.getElem?_eq_getElem hlisted
    refine ⟨id, _, htype, ?_, fun earlier other hlt hother => ?_⟩
    · rw [hpositions id _ htype]
      exact convertWithin_eq_error.mpr ⟨missing, houtside, rfl⟩
    · rw [hpositions earlier other hother]
      exact converts_iff.mpr (hearlier earlier hlt)

theorem exists_registry (hpositions : types.DeclarePositions)
    (hinside : ∀ id, id < types.length → ∀ missing, ¬ types.LeadsOutside id missing) :
    ∃ registry, convertTypes types = .ok registry := by
  cases h : convertTypes types with
  | ok registry => exact ⟨registry, rfl⟩
  | error error =>
      obtain ⟨missing, ⟨id, hlisted, houtside, -⟩, -⟩ :=
        (convertTypes_eq_error hpositions).mp h
      exact absurd houtside (hinside id hlisted missing)

variable {registry : TypeRegistry}

theorem get?_of_converted (h : convertTypes types = .ok registry)
    (hpositions : types.DeclarePositions) (hlisted : id < types.length)
    {descriptor : TypeDescriptor}
    (hconverted : convertWithin types maxWrappers id = .ok descriptor) :
    registry.get? id = some descriptor := by
  obtain ⟨found, hfound⟩ := get?_of_listed h hpositions (List.getElem?_eq_getElem hlisted)
  have hsame := convertWithin_of_get? h hfound
  rw [hconverted] at hsame
  cases hsame
  exact hfound

/-- What a registry holds for the chains of wrappers of a list. -/
structure CollapsesWrappers (types : PortableTypes) (registry : TypeRegistry) : Prop where
  /-- All along a chain that ends in reach, the descriptor is that of the end. -/
  shared : ∀ id steps inner type, id < types.length → steps ≤ 32 →
    types.follow steps id = some inner → types[inner]? = some type →
    type.definition.wrapped? = none → ∀ step along, step ≤ steps →
    types.follow step id = some along → registry.get? along = some type.descriptor
  /-- Other chains do not get through. -/
  stopped : ∀ id, id < types.length → types.Overlong id ∨ types.Cyclic id →
    ∃ last, types.follow 32 id = some last ∧
      registry.get? id = some (.unsupported ("recursive wrapper " ++ toString last))
  /-- There are no chains but these. -/
  exhaustive : ∀ id, id < types.length →
    (∃ steps inner type, steps ≤ 32 ∧ types.follow steps id = some inner ∧
      types[inner]? = some type ∧ type.definition.wrapped? = none) ∨ types.Overlong id

theorem collapses_of_convertTypes (hpositions : types.DeclarePositions)
    (h : convertTypes types = .ok registry) : CollapsesWrappers types registry where
  shared := by
    intro id steps inner type _ hsteps hfollow htype hplain step along hstep halong
    obtain ⟨found, hfound, hothers⟩ := exists_along hfollow hstep
    obtain rfl : found = along := Option.some.inj (hfound.symm.trans halong)
    have hinner := (List.getElem?_eq_some_iff.mp htype).1
    have hreach : steps - step ≤ maxWrappers := Nat.le_trans (Nat.sub_le steps step) hsteps
    apply get?_of_converted h hpositions (listed_of_follow hothers hinner)
    rw [convertWithin_of_reached hreach hothers, convertWithin_plain htype hplain]
  stopped := by
    intro id hlisted hchain
    obtain ⟨last, hlast, hconverted⟩ :=
      convertWithin_of_overlong (hchain.elim (fun hlong => hlong) Cyclic.overlong)
    exact ⟨last, hlast, get?_of_converted h hpositions hlisted hconverted⟩
  exhaustive := by
    intro id hlisted
    rcases ends_or_goes_on types 32 id with
      ⟨steps, inner, hsteps, hfollow, hend⟩ | ⟨inner, hfollow⟩
    · rcases inner?_eq_none_iff.mp hend with hunlisted | ⟨type, htype, hplain⟩
      · -- An end outside the list would have failed the conversion of this type.
        have houtside := List.getElem?_eq_none_iff.mp hunlisted
        obtain ⟨descriptor, hid⟩ :=
          get?_of_listed h hpositions (List.getElem?_eq_getElem hlisted)
        have hinside := converts_iff.mp ⟨descriptor, convertWithin_of_get? h hid⟩
        exact absurd ⟨steps, hsteps, hfollow, houtside⟩ (hinside inner)
      · exact .inl ⟨steps, inner, type, hsteps, hfollow, htype, hplain⟩
    · exact .inr ⟨33, inner, by omega, hfollow⟩

/-- Up to 32 wrappers one in another are passed through from every type on, and a conversion
comes to its end whatever the wrappers refer to. -/
theorem wrappers_collapse (hpositions : types.DeclarePositions) :
    (∀ registry, convertTypes types = .ok registry → CollapsesWrappers types registry) ∧
    (∀ missing, convertTypes types = .error (.missingType missing) ↔
      types.FirstOutside missing) ∧
    ((∀ id, id < types.length → ∀ missing, ¬ types.LeadsOutside id missing) →
      ∃ registry, convertTypes types = .ok registry) := by
  refine ⟨fun registry => collapses_of_convertTypes hpositions, fun missing => ?_,
    exists_registry hpositions⟩
  rw [convertTypes_eq_error hpositions]
  constructor
  · rintro ⟨first, hfirst, ⟨⟩⟩
    exact hfirst
  · intro hfirst
    exact ⟨missing, hfirst, rfl⟩

/-- One byte inside 33 wrappers, and two more wrappers that are around each other. -/
def towerTypes : PortableTypes :=
  ⟨0, [], .primitive (.integer .u8)⟩ ::
    (List.range 33).map (fun below => ⟨below + 1, [], .composite [⟨none, below⟩]⟩) ++
    [⟨34, ["Here"], .composite [⟨some "there", 35⟩]⟩,
      ⟨35, ["There"], .composite [⟨some "here", 34⟩]⟩]

/-- Wrappers of two types that are not listed, the first through another wrapper. -/
def danglingTypes : PortableTypes :=
  [⟨0, [], .tuple [5]⟩, ⟨1, ["Outer"], .composite [⟨none, 3⟩]⟩,
    ⟨2, [], .composite [⟨none, 7⟩]⟩, ⟨3, ["Inner"], .composite [⟨none, 9⟩]⟩]

theorem wrappers_collapse_tower :
    towerTypes.DeclarePositions ∧
      (∃ registry, convertTypes towerTypes = .ok registry ∧
        registry.get? 32 = some (.primitive .u8) ∧
        registry.get? 33 = some (.unsupported "recursive wrapper 1") ∧
        registry.get? 34 = some (.unsupported "recursive wrapper 34")) ∧
      danglingTypes.DeclarePositions ∧
      convertTypes danglingTypes = .error (.missingType 9) := by
  have hpositions : towerTypes.DeclarePositions := by decide +kernel
  have hconverted : (convertTypes towerTypes).toOption.isSome = true := by decide +kernel
  obtain ⟨registry, hsome⟩ := Option.isSome_iff_exists.mp hconverted
  have hregistry := ok_of_toOption hsome
  have hcollapses := (wrappers_collapse hpositions).1 registry hregistry
  have hbyte :=
    hcollapses.shared 32 32 0 _ (by decide) (by decide) rfl rfl rfl 0 32 (by decide) rfl
  obtain ⟨last, hlast, hlong⟩ :=
    hcollapses.stopped 33 (by decide) (.inl ⟨33, 0, by decide, rfl⟩)
  obtain rfl : 1 = last := Option.some.inj hlast
  obtain ⟨last, hlast, hround⟩ :=
    hcollapses.stopped 34 (by decide) (.inr ⟨0, 2, 34, rfl, by decide, rfl⟩)
  obtain rfl : 34 = last := Option.some.inj hlast
  have hdangling : danglingTypes.DeclarePositions := by decide
  have hfirst : danglingTypes.FirstOutside 9 := by
    refine ⟨1, by decide, ⟨2, by decide, rfl, by decide⟩, ?_⟩
    rintro earlier hlt other ⟨steps, -, hfollow, houtside⟩
    obtain rfl : earlier = 0 := by omega
    have hended : danglingTypes.inner? 0 = none := rfl
    cases steps with
    | zero =>
        cases hfollow
        revert houtside
        decide
    | succ steps =>
        rw [follow_succ, hended] at hfollow
        cases hfollow
  exact ⟨hpositions, ⟨registry, hregistry, hbyte, hlong, hround⟩, hdangling,
    ((wrappers_collapse hdangling).2.1 9).mpr hfirst⟩

end ChainClient
