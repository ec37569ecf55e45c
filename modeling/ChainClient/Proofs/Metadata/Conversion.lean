import ChainClient.Metadata.Convert
import ChainClient.Proofs.Outcome

/-! The descriptor of each listed type: its own, or that of the type inside its wrappers. -/

namespace ChainClient

/-! Shapes of variant types. -/

/-- No variant can stand beside these two, and only the second has a field. -/
def OptionShape (inner : TypeId) (variants : List PortableVariant) : Prop :=
  ∃ first second field, variants = [first, second] ∧ first.name = "None" ∧
    first.fields = [] ∧
    second.name = "Some" ∧ second.fields = [field] ∧ field.type = inner

def ResultShape (ok err : TypeId) (variants : List PortableVariant) : Prop :=
  ∃ first second okField errField, variants = [first, second] ∧
    first.name = "Ok" ∧ first.fields = [okField] ∧ okField.type = ok ∧
    second.name = "Err" ∧ second.fields = [errField] ∧ errField.type = err

theorem asOption?_eq_some {variants : List PortableVariant} {inner : TypeId} :
    asOption? variants = some inner ↔ OptionShape inner variants := by
  constructor
  · intro h
    unfold asOption? at h
    split at h
    case h_2 => cases h
    case h_1 first second =>
      split at h
      case h_2 => cases h
      case h_1 field hfirst hsecond =>
        split at h
        case isFalse => cases h
        case isTrue hnames =>
          cases h
          exact ⟨first, second, field, rfl, hnames.1, hfirst, hnames.2, hsecond, rfl⟩
  · rintro ⟨first, second, field, rfl, hnone, hfirst, hsome, hsecond, rfl⟩
    simp [asOption?, hfirst, hsecond, hnone, hsome]

theorem asResult?_eq_some {variants : List PortableVariant} {ok err : TypeId} :
    asResult? variants = some (ok, err) ↔ ResultShape ok err variants := by
  constructor
  · intro h
    unfold asResult? at h
    split at h
    case h_2 => cases h
    case h_1 first second =>
      split at h
      case h_2 => cases h
      case h_1 okField errField hfirst hsecond =>
        split at h
        case isFalse => cases h
        case isTrue hnames =>
          cases h
          exact ⟨first, second, okField, errField, rfl, hnames.1, hfirst, rfl, hnames.2,
            hsecond, rfl⟩
  · rintro ⟨first, second, okField, errField, rfl, hok, hfirst, rfl, herr, hsecond, rfl⟩
    simp [asResult?, hfirst, hsecond, hok, herr]

/-- The shape of an option or of a result, whatever is inside. -/
def HasMarks (variants : List PortableVariant) : Prop :=
  (∃ inner, OptionShape inner variants) ∨ ∃ ok err, ResultShape ok err variants

instance (variants : List PortableVariant) : Decidable (HasMarks variants) :=
  decidable_of_iff ((asOption? variants).isSome ∨ (asResult? variants).isSome) <| by
    simp only [HasMarks, Option.isSome_iff_exists, asOption?_eq_some, Prod.exists,
      asResult?_eq_some]

theorem variantDescriptor_cases (path : List String) (variants : List PortableVariant) :
    (∃ ok err, ResultShape ok err variants ∧
      variantDescriptor path variants = .result ok err) ∨
    (∃ inner, OptionShape inner variants ∧
      variantDescriptor path variants = .option inner) ∨
    (¬ HasMarks variants ∧ variantDescriptor path variants =
      .enum (enumName path) (variants.map PortableVariant.convert)) := by
  unfold variantDescriptor
  cases hresult : asResult? variants with
  | some parts => exact .inl ⟨parts.1, parts.2, asResult?_eq_some.mp hresult, rfl⟩
  | none =>
      cases hoption : asOption? variants with
      | some inner => exact .inr (.inl ⟨inner, asOption?_eq_some.mp hoption, rfl⟩)
      | none =>
          refine .inr (.inr ⟨?_, rfl⟩)
          rintro (⟨inner, hshape⟩ | ⟨ok, err, hshape⟩)
          · rw [asOption?_eq_some.mpr hshape] at hoption
            cases hoption
          · rw [asResult?_eq_some.mpr hshape] at hresult
            cases hresult

/-! Wrappers. -/

/-- What a composite of one field wraps. -/
def PortableDef.wrapped? : PortableDef → Option TypeId
  | .composite [single] => some single.type
  | _ => none

/-- The descriptor of a type that is no wrapper. -/
def PortableType.descriptor (type : PortableType) : TypeDescriptor :=
  match type.definition with
  | .primitive kind => kind.descriptor
  | .compact inner => .compact inner
  | .sequence element => .list element none
  | .array length element => .list element (some length)
  | .tuple parts => .tuple parts
  | .bitSequence => .unsupported "BitSequence"
  | .variant variants => variantDescriptor type.path variants
  | .composite fields => compositeDescriptor fields

variable {types : PortableTypes} {id : TypeId} {type : PortableType} {wrappers : Nat}

theorem listed_of_convertWithin {descriptor : TypeDescriptor}
    (h : convertWithin types wrappers id = .ok descriptor) :
    ∃ type, types[id]? = some type := by
  cases htype : types[id]? with
  | some type => exact ⟨type, rfl⟩
  | none =>
      unfold convertWithin at h
      simp only [PortableTypes.resolve, htype] at h
      cases h

theorem convertWithin_plain (htype : types[id]? = some type)
    (hplain : type.definition.wrapped? = none) :
    convertWithin types wrappers id = .ok type.descriptor := by
  unfold convertWithin PortableType.descriptor
  simp only [PortableTypes.resolve, htype, ok_bind]
  cases hdefinition : type.definition with
  | composite fields =>
      rcases fields with _ | ⟨single, _ | ⟨second, others⟩⟩
      · rfl
      · rw [hdefinition] at hplain
        cases hplain
      · rfl
  | _ => rfl

theorem convertWithin_wrapper {inner : TypeId} (htype : types[id]? = some type)
    (hwrapped : type.definition.wrapped? = some inner) :
    convertWithin types (wrappers + 1) id = convertWithin types wrappers inner := by
  rw [convertWithin]
  simp only [PortableTypes.resolve, htype, ok_bind]
  unfold PortableDef.wrapped? at hwrapped
  split at hwrapped
  case h_1 single hdefinition =>
    cases hwrapped
    simp only [hdefinition]
  case h_2 => cases hwrapped

theorem convertWithin_wrapper_zero {inner : TypeId} (htype : types[id]? = some type)
    (hwrapped : type.definition.wrapped? = some inner) :
    convertWithin types 0 id =
      .ok (.unsupported ("recursive wrapper " ++ toString id)) := by
  rw [convertWithin]
  simp only [PortableTypes.resolve, htype, ok_bind]
  unfold PortableDef.wrapped? at hwrapped
  split at hwrapped
  case h_1 single hdefinition => simp only [hdefinition]
  case h_2 => cases hwrapped

/-! The registry. -/

def PortableDef.variants : PortableDef → List PortableVariant
  | .variant variants => variants
  | _ => []

namespace PortableTypes

/-- Every type declares its place in the list as its number. -/
def DeclarePositions (types : PortableTypes) : Prop :=
  ∀ (position : Nat) (type : PortableType), types[position]? = some type →
    type.id = position

instance (types : PortableTypes) : Decidable types.DeclarePositions :=
  decidable_of_iff (∀ position < types.length, ∀ type ∈ types[position]?,
    type.id = position) <| by
    constructor
    · intro h position type htype
      obtain ⟨hposition, -⟩ := List.getElem?_eq_some_iff.mp htype
      exact h position hposition type htype
    · intro h position _ type htype
      exact h position type htype

/-- Variants with the shape of an option or a result carry the indices nought and one. -/
def MarksInOrder (types : PortableTypes) : Prop :=
  ∀ type ∈ types, HasMarks type.definition.variants →
    type.definition.variants.map (·.index) = [0, 1]

instance (types : PortableTypes) : Decidable types.MarksInOrder :=
  inferInstanceAs (Decidable (∀ type ∈ types, HasMarks type.definition.variants →
    type.definition.variants.map (·.index) = [0, 1]))

end PortableTypes

def insertConverted (types : PortableTypes) (registry : TypeRegistry)
    (type : PortableType) : Except MetadataError TypeRegistry := do
  return registry.insert type.id (← convertWithin types maxWrappers type.id)

theorem insertConverted_eq_ok {registry registry' : TypeRegistry} :
    insertConverted types registry type = .ok registry' ↔
      ∃ descriptor, convertWithin types maxWrappers type.id = .ok descriptor ∧
        registry' = registry.insert type.id descriptor := by
  simp only [insertConverted, bind_eq_ok, pure, Except.pure, Except.ok.injEq]
  grind

section Insertion

variable {listed : List PortableType} {before after : TypeRegistry}

theorem converted_of_get?_foldlM
    (h : listed.foldlM (insertConverted types) before = .ok after)
    {descriptor : TypeDescriptor} (hid : after.get? id = some descriptor) :
    convertWithin types maxWrappers id = .ok descriptor ∨
      before.get? id = some descriptor := by
  induction listed generalizing before with
  | nil =>
      cases h
      exact .inr hid
  | cons first others ih =>
      obtain ⟨middle, hfirst, hothers⟩ := bind_eq_ok.mp h
      obtain ⟨inserted, hinserted, rfl⟩ := insertConverted_eq_ok.mp hfirst
      rcases ih hothers with hconverted | hmiddle
      · exact .inl hconverted
      · rw [TypeRegistry.get?_insert] at hmiddle
        split at hmiddle
        case isTrue hsame =>
          cases hmiddle
          exact .inl (hsame ▸ hinserted)
        case isFalse => exact .inr hmiddle

theorem get?_foldlM_isSome (h : listed.foldlM (insertConverted types) before = .ok after)
    (hid : (∃ type ∈ listed, type.id = id) ∨ (before.get? id).isSome) :
    (after.get? id).isSome := by
  induction listed generalizing before with
  | nil =>
      cases h
      rcases hid with ⟨type, hmem, -⟩ | hbefore
      · cases hmem
      · exact hbefore
  | cons first others ih =>
      obtain ⟨middle, hfirst, hothers⟩ := bind_eq_ok.mp h
      obtain ⟨inserted, -, rfl⟩ := insertConverted_eq_ok.mp hfirst
      apply ih hothers
      rw [TypeRegistry.get?_insert]
      by_cases hsame : id = first.id
      · exact .inr (by rw [if_pos hsame]; rfl)
      · rw [if_neg hsame]
        rcases hid with ⟨type, hmem, htype⟩ | hbefore
        · rcases List.mem_cons.mp hmem with rfl | hmem
          · exact absurd htype.symm hsame
          · exact .inl ⟨type, hmem, htype⟩
        · exact .inr hbefore

end Insertion

variable {registry : TypeRegistry}

theorem convertTypes_eq (types : PortableTypes) :
    convertTypes types = types.foldlM (insertConverted types) .empty := rfl

theorem convertWithin_of_get? (h : convertTypes types = .ok registry)
    {descriptor : TypeDescriptor} (hid : registry.get? id = some descriptor) :
    convertWithin types maxWrappers id = .ok descriptor := by
  rw [convertTypes_eq] at h
  rcases converted_of_get?_foldlM h hid with hconverted | hnone
  · exact hconverted
  · cases hnone

theorem get?_of_listed (h : convertTypes types = .ok registry)
    (hpositions : types.DeclarePositions) (htype : types[id]? = some type) :
    ∃ descriptor, registry.get? id = some descriptor := by
  rw [convertTypes_eq] at h
  have hmem := List.mem_of_getElem? htype
  exact Option.isSome_iff_exists.mp
    (get?_foldlM_isSome h (.inl ⟨type, hmem, hpositions id type htype⟩))

end ChainClient
