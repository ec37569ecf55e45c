import ChainClient.Proofs.Codec.Remainder
import ChainClient.Proofs.Metadata.Conversion

/-! The byte in front of a variant: the index that its type declares for it, against
the one that the codec goes by. -/

namespace ChainClient

open Codec

namespace TypeRegistry

/-- The value of a variant whose fields have these values. -/
def variantValue (registry : TypeRegistry) (descriptor : TypeDescriptor)
    (variant : PortableVariant) (values : List Value) : Value :=
  match descriptor, values with
  | .option _, [] => .null
  | .option inner, value :: _ =>
      match registry.get? inner with
      | some descriptor => wrapSome descriptor value
      | none => value
  | _, _ => .variant (descriptor.tag ++ "::" ++ variant.name) variant.index values

/-- Reads variants as they are declared: the index of one of them, and then its fields. -/
def decodeVariants (registry : TypeRegistry) (descriptor : TypeDescriptor)
    (variants : List PortableVariant) (budget : Nat) (input : Bytes) :
    Except CodecError (Value × Bytes) := do
  let (index, others) ← takeByte input
  match variants.find? (·.index = index) with
  | some variant =>
      (fun parts => (registry.variantValue descriptor variant parts.1, parts.2)) <$>
        decodeEach (decodeWithin registry budget) (variant.fields.map (·.type)) others
  | none => .error (.invalidVariantIndex descriptor.tag index)

end TypeRegistry

variable {registry : TypeRegistry} {id : TypeId} {budget : Nat} {path : List String}
  {variants : List PortableVariant}

theorem decodeVariants_declared {index : UInt8} {variant : PortableVariant}
    (h : variants.find? (·.index = index) = some variant) (descriptor : TypeDescriptor)
    (others : Bytes) :
    registry.decodeVariants descriptor variants budget (index :: others) =
      (fun parts => (registry.variantValue descriptor variant parts.1, parts.2)) <$>
        decodeEach (decodeWithin registry budget) (variant.fields.map (·.type)) others := by
  simp only [TypeRegistry.decodeVariants, takeByte_cons, ok_bind, h]

theorem decodeVariants_undeclared {index : UInt8}
    (h : variants.find? (·.index = index) = none) (descriptor : TypeDescriptor)
    (others : Bytes) :
    registry.decodeVariants descriptor variants budget (index :: others) =
      .error (.invalidVariantIndex descriptor.tag index) := by
  simp only [TypeRegistry.decodeVariants, takeByte_cons, ok_bind, h]

/-! Enums. -/

theorem map_convert_type (fields : List PortableField) :
    (fields.map PortableField.convert).map (·.type) = fields.map (·.type) := by
  rw [List.map_map]
  rfl

theorem find?_convert (variants : List PortableVariant) (index : UInt8) :
    (variants.map PortableVariant.convert).find? (·.index = index) =
      (variants.find? (·.index = index)).map PortableVariant.convert := by
  rw [List.find?_map]
  rfl

theorem decodeWithin_enum_eq {name : String}
    (hid : registry.get? id = some (.enum name (variants.map PortableVariant.convert)))
    (input : Bytes) :
    decodeWithin registry (budget + 1) id input =
      registry.decodeVariants (.enum name (variants.map PortableVariant.convert)) variants
        budget input := by
  cases input with
  | nil => simp only [decodeWithin, resolve, hid, ok_bind]; rfl
  | cons index others =>
      have hconvert := find?_convert variants index
      cases hfind : variants.find? (·.index = index) with
      | none =>
          rw [hfind] at hconvert
          rw [decodeVariants_undeclared hfind]
          exact decodeWithin_enum_undeclared hid hconvert others
      | some variant =>
          rw [hfind] at hconvert
          rw [decodeVariants_declared hfind, ← map_convert_type, decodeEach_map]
          exact decodeWithin_enum_index hid hconvert others

/-! Options and results, whose variants are marked by nought and one. -/

theorem indices_of_marks {first second : PortableVariant}
    (h : [first, second].map (·.index) = [0, 1]) : first.index = 0 ∧ second.index = 1 := by
  simpa using h

theorem find?_marks {first second : PortableVariant} (hfirst : first.index = 0)
    (hsecond : second.index = 1) (index : UInt8) :
    [first, second].find? (·.index = index) =
      if index = 0 then some first else if index = 1 then some second else none := by
  by_cases hzero : index = 0
  · simp [hfirst, hzero]
  · by_cases hone : index = 1
    · simp [hfirst, hsecond, hone]
    · simp [hfirst, hsecond, hzero, hone, Ne.symm hzero, Ne.symm hone]

theorem decodeEach_single (read : TypeId → Reader Value) (id : TypeId) (input : Bytes) :
    decodeEach read [id] input = (fun part => ([part.1], part.2)) <$> read id input := by
  simp only [decodeEach]
  cases read id input <;> rfl

theorem decodeWithin_result_eq {ok err : TypeId} (hshape : ResultShape ok err variants)
    (hmarks : variants.map (·.index) = [0, 1])
    (hid : registry.get? id = some (.result ok err)) (input : Bytes) :
    decodeWithin registry (budget + 1) id input =
      registry.decodeVariants (.result ok err) variants budget input := by
  obtain ⟨first, second, okField, errField, rfl, hok, hokFields, rfl, herr,
    herrFields, rfl⟩ :=
    hshape
  obtain ⟨hfirst, hsecond⟩ := indices_of_marks hmarks
  cases input with
  | nil => simp only [decodeWithin, resolve, hid, ok_bind]; rfl
  | cons index others =>
      have hfind := find?_marks hfirst hsecond index
      by_cases hzero : index = 0
      · rw [if_pos hzero] at hfind
        rw [decodeWithin_result_index hid (.inl hzero), decodeVariants_declared hfind,
          if_pos hzero, hokFields, List.map_singleton, decodeEach_single]
        cases decodeWithin registry budget okField.type others with
        | error error => rfl
        | ok part =>
            simp [TypeRegistry.variantValue, TypeDescriptor.tag, hok, hfirst, hzero,
              resultName]
      · by_cases hone : index = 1
        · rw [if_neg hzero, if_pos hone] at hfind
          rw [decodeWithin_result_index hid (.inr hone), decodeVariants_declared hfind,
            if_neg hzero, herrFields, List.map_singleton, decodeEach_single]
          cases decodeWithin registry budget errField.type others with
          | error error => rfl
          | ok part =>
              simp [TypeRegistry.variantValue, TypeDescriptor.tag, herr, hsecond, hone,
                resultName]
        · rw [if_neg hzero, if_neg hone] at hfind
          rw [decodeVariants_undeclared hfind]
          exact decodeWithin_result_undeclared hid hzero hone others

theorem decodeWithin_option_some {inner : TypeId}
    (hid : registry.get? id = some (.option inner)) (variant : PortableVariant)
    (others : Bytes) :
    decodeWithin registry (budget + 1) id (1 :: others) =
      (fun part => (registry.variantValue (.option inner) variant [part.1], part.2)) <$>
        decodeWithin registry budget inner others := by
  cases hread : decodeWithin registry budget inner others with
  | error error =>
      simp [decodeWithin, resolve, hid, hread, bind, Except.bind, Functor.map, Except.map]
  | ok part =>
      obtain ⟨descriptor, hinner⟩ := decodeWithin_resolves hread
      rw [map_ok, TypeRegistry.variantValue, hinner]
      exact (decodeWithin_option_eq_ok hid).mpr
        (.inr ⟨others, part.1, descriptor, rfl, hread, hinner, rfl⟩)

theorem decodeWithin_option_eq {inner : TypeId} (hshape : OptionShape inner variants)
    (hmarks : variants.map (·.index) = [0, 1])
    (hid : registry.get? id = some (.option inner)) (input : Bytes) :
    decodeWithin registry (budget + 1) id input =
      registry.decodeVariants (.option inner) variants budget input := by
  obtain ⟨first, second, field, rfl, -, hnone, -, hsome, rfl⟩ := hshape
  obtain ⟨hfirst, hsecond⟩ := indices_of_marks hmarks
  cases input with
  | nil => simp only [decodeWithin, resolve, hid, ok_bind]; rfl
  | cons index others =>
      have hfind := find?_marks hfirst hsecond index
      by_cases hzero : index = 0
      · rw [if_pos hzero] at hfind
        rw [decodeVariants_declared hfind, hnone, hzero]
        exact none_reads hid others
      · by_cases hone : index = 1
        · rw [if_neg hzero, if_pos hone] at hfind
          rw [decodeVariants_declared hfind, hsome, List.map_singleton,
            decodeEach_single, hone, decodeWithin_option_some hid second]
          cases decodeWithin registry budget field.type others <;> rfl
        · rw [if_neg hzero, if_neg hone] at hfind
          rw [decodeVariants_undeclared hfind]
          exact decodeWithin_option_undeclared hid hzero hone others

/-- The converted type reads its variants as they are declared, if those that have the shape
of an option or a result declare the marks. -/
theorem decodeWithin_variant_eq
    (hmarks : HasMarks variants → variants.map (·.index) = [0, 1])
    (hid : registry.get? id = some (variantDescriptor path variants)) (input : Bytes) :
    decodeWithin registry (budget + 1) id input =
      registry.decodeVariants (variantDescriptor path variants) variants budget input := by
  rcases variantDescriptor_cases path variants with
    ⟨ok, err, hshape, hdescriptor⟩ | ⟨inner, hshape, hdescriptor⟩ | ⟨-, hdescriptor⟩
  · rw [hdescriptor] at hid ⊢
    exact decodeWithin_result_eq hshape (hmarks (.inr ⟨ok, err, hshape⟩)) hid input
  · rw [hdescriptor] at hid ⊢
    exact decodeWithin_option_eq hshape (hmarks (.inl ⟨inner, hshape⟩)) hid input
  · rw [hdescriptor] at hid ⊢
    exact decodeWithin_enum_eq hid input

/-! Indices of their own. -/

/-- Each index selects the fields of the variant that declares it, and every other byte is
refused. -/
structure TypeRegistry.KeepsIndices (registry : TypeRegistry) (id : TypeId)
    (descriptor : TypeDescriptor) (variants : List PortableVariant) : Prop where
  declared : ∀ variant ∈ variants, ∀ (budget : Nat) (others : Bytes),
    decodeWithin registry (budget + 1) id (variant.index :: others) =
      (fun parts => (registry.variantValue descriptor variant parts.1, parts.2)) <$>
        decodeEach (decodeWithin registry budget) (variant.fields.map (·.type)) others
  undeclared : ∀ index, (∀ variant ∈ variants, variant.index ≠ index) →
    ∀ (budget : Nat) (others : Bytes),
      decodeWithin registry (budget + 1) id (index :: others) =
        .error (.invalidVariantIndex descriptor.tag index)

theorem keepsIndices_of_marks (hindices : (variants.map (·.index)).Nodup)
    (hmarks : HasMarks variants → variants.map (·.index) = [0, 1])
    (hid : registry.get? id = some (variantDescriptor path variants)) :
    registry.KeepsIndices id (variantDescriptor path variants) variants where
  declared := by
    intro variant hmem budget others
    rw [decodeWithin_variant_eq hmarks hid]
    exact decodeVariants_declared (find?_of_nodup hindices hmem) _ others
  undeclared := by
    intro index hindex budget others
    rw [decodeWithin_variant_eq hmarks hid]
    exact decodeVariants_undeclared (by simpa using hindex) _ others

/-! Variants of these shapes are told apart by place, whatever they declare. -/

def discriminated (variants : List PortableVariant) : List PortableVariant :=
  if HasMarks variants then
    variants.mapIdx fun position variant => { variant with index := UInt8.ofNat position }
  else variants

theorem indices_discriminated (h : HasMarks variants) :
    (discriminated variants).map (·.index) = [0, 1] := by
  rw [discriminated, if_pos h]
  rcases h with ⟨inner, first, second, field, rfl, -⟩ |
    ⟨ok, err, first, second, _, _, rfl, -⟩
  · rfl
  · rfl

theorem variantDescriptor_discriminated (path : List String)
    (variants : List PortableVariant) :
    variantDescriptor path (discriminated variants) = variantDescriptor path variants := by
  by_cases h : HasMarks variants
  · rw [discriminated, if_pos h]
    rcases h with
      ⟨inner, first, second, field, rfl, hnone, hfirst, hsome, hsecond, -⟩ |
      ⟨ok, err, first, second, okField, errField, rfl, hok, hfirst, -, herr, hsecond, -⟩
    · simp [variantDescriptor, asResult?, asOption?, hnone, hfirst, hsome, hsecond]
    · simp [variantDescriptor, asResult?, hok, hfirst, herr, hsecond]
  · rw [discriminated, if_neg h]

theorem keepsIndices_discriminated (hindices : (variants.map (·.index)).Nodup)
    (hid : registry.get? id = some (variantDescriptor path variants)) :
    registry.KeepsIndices id (variantDescriptor path variants)
      (discriminated variants) := by
  rw [← variantDescriptor_discriminated path variants] at hid ⊢
  by_cases h : HasMarks variants
  · have hmarks := indices_discriminated h
    exact keepsIndices_of_marks (hmarks ▸ by decide) (fun _ => hmarks) hid
  · rw [discriminated, if_neg h] at hid ⊢
    exact keepsIndices_of_marks hindices (fun hmarks => absurd hmarks h) hid

/-- Some value can be read. -/
def TypeRegistry.Readable (registry : TypeRegistry) (id : TypeId) : Prop :=
  ∃ budget input outcome, decodeWithin registry budget id input = .ok outcome

theorem indices_of_keepsIndices_option {descriptor : TypeDescriptor} {inner : TypeId}
    (hshape : OptionShape inner variants) (hindices : (variants.map (·.index)).Nodup)
    (hid : registry.get? id = some (.option inner))
    (h : registry.KeepsIndices id descriptor variants) :
    variants.map (·.index) = [0, 1] := by
  obtain ⟨first, second, field, rfl, -, hnone, -, hsome, rfl⟩ := hshape
  have hne : first.index ≠ second.index := by simpa using hindices
  -- Without a level to go the inner type is not read, and only
  -- the bytes of the option count.
  have hempty := h.declared first (by simp) 0 []
  have hfull := h.declared second (by simp) 0 []
  have hfirst : first.index = 0 := by
    rw [hnone] at hempty
    rcases (decodeWithin_option_eq_ok hid).mp hempty with
      ⟨hzero, -⟩ | ⟨others, item, _, -, hitem, -⟩
    · exact (List.cons.inj hzero).1
    · rw [decodeWithin_zero] at hitem
      cases hitem
  have hsecond : second.index = 1 := by
    by_cases hone : second.index = 1
    · exact hone
    · rw [decodeWithin_option_undeclared hid (hfirst ▸ hne.symm) hone, hsome,
        List.map_singleton, decodeEach_single, decodeWithin_zero] at hfull
      cases hfull
  simp [hfirst, hsecond]

theorem indices_of_keepsIndices_result {ok err : TypeId}
    (hshape : ResultShape ok err variants) (hindices : (variants.map (·.index)).Nodup)
    (hreadable : registry.Readable ok) (hid : registry.get? id = some (.result ok err))
    (h : registry.KeepsIndices id (.result ok err) variants) :
    variants.map (·.index) = [0, 1] := by
  obtain ⟨first, second, okField, errField, rfl, hok, hokFields, rfl, herr,
    herrFields, rfl⟩ :=
    hshape
  have hne : first.index ≠ second.index := by simpa using hindices
  have hmark : ∀ variant field, variant ∈ [first, second] → variant.fields = [field] →
      variant.index = 0 ∨ variant.index = 1 := by
    intro variant field hmem hfields
    have hread := h.declared variant hmem 0 []
    by_cases hmarked : variant.index = 0 ∨ variant.index = 1
    · exact hmarked
    · rw [decodeWithin_result_undeclared hid (fun hzero => hmarked (.inl hzero))
        (fun hone => hmarked (.inr hone)), hfields, List.map_singleton, decodeEach_single,
        decodeWithin_zero] at hread
      cases hread
  -- The two marks may still be swapped.  Then a value of the first type
  -- goes by the second name.
  have hfirst : first.index = 0 := by
    rcases hmark first okField (by simp) hokFields with hzero | hone
    · exact hzero
    · obtain ⟨budget, input, outcome, hread⟩ := hreadable
      have hswapped := h.declared first (by simp) budget input
      rw [hokFields, List.map_singleton, decodeEach_single, hread, hone] at hswapped
      obtain ⟨index, others, item, -, hbyte, -, hvalue⟩ :=
        (decodeWithin_result_eq_ok hid).mp hswapped
      cases hbyte
      simp [TypeRegistry.variantValue, TypeDescriptor.tag, hok, resultName] at hvalue
  have hsecond : second.index = 1 :=
    (hmark second errField (by simp) herrFields).resolve_left (hfirst ▸ hne.symm)
  simp [hfirst, hsecond]

/-- The codec goes by the place of variants that have the shape of an option or a
result, and by the declared index of all others.  So declared indices are kept if
variants of these shapes declare nought and one in this order and, as far as their
fields can be read at all, only then. -/
theorem variants_keep_indices
    (hid : registry.get? id = some (variantDescriptor path variants))
    (hindices : (variants.map (·.index)).Nodup) :
    registry.KeepsIndices id (variantDescriptor path variants) (discriminated variants) ∧
    ((HasMarks variants → variants.map (·.index) = [0, 1]) →
      registry.KeepsIndices id (variantDescriptor path variants) variants) ∧
    ((∀ variant ∈ variants, ∀ field ∈ variant.fields, registry.Readable field.type) →
      registry.KeepsIndices id (variantDescriptor path variants) variants →
        HasMarks variants → variants.map (·.index) = [0, 1]) := by
  refine ⟨keepsIndices_discriminated hindices hid,
    fun hmarks => keepsIndices_of_marks hindices hmarks hid, ?_⟩
  intro hreadable hkeeps hmarks
  rcases variantDescriptor_cases path variants with
    ⟨ok, err, hshape, hdescriptor⟩ | ⟨inner, hshape, hdescriptor⟩ | ⟨hplain, -⟩
  · rw [hdescriptor] at hid hkeeps
    have hok : registry.Readable ok := by
      obtain ⟨first, second, okField, _, rfl, -, hfields, rfl, -⟩ := hshape
      exact hreadable first (by simp) okField (by simp [hfields])
    exact indices_of_keepsIndices_result hshape hindices hok hid hkeeps
  · rw [hdescriptor] at hid
    exact indices_of_keepsIndices_option hshape hindices hid hkeeps
  · exact absurd hmarks hplain

def verdictVariants (first second : UInt8) : List PortableVariant :=
  [⟨"Ok", [⟨none, 0⟩], first, []⟩, ⟨"Err", [⟨none, 1⟩], second, []⟩]

def verdictTypes (first second : UInt8) : PortableTypes :=
  [⟨0, [], .primitive (.integer .u8)⟩, ⟨1, [], .primitive (.integer (.unsigned 16))⟩,
    ⟨2, ["Verdict"], .variant (verdictVariants first second)⟩]

def verdictRegistry : TypeRegistry :=
  ⟨[(0, .primitive .u8), (1, .primitive (.unsigned 16)), (2, .result 0 1)]⟩

theorem variants_keep_indices_in_order :
    verdictRegistry.get? 2 = some (variantDescriptor ["Verdict"] (verdictVariants 0 1)) ∧
      ((verdictVariants 0 1).map (·.index)).Nodup ∧
      (∀ variant ∈ verdictVariants 0 1, ∀ field ∈ variant.fields,
        verdictRegistry.Readable field.type) ∧
      verdictRegistry.KeepsIndices 2 (.result 0 1) (verdictVariants 0 1) ∧
      (HasMarks (verdictVariants 0 1) → (verdictVariants 0 1).map (·.index) = [0, 1]) := by
  have hid : verdictRegistry.get? 2 =
      some (variantDescriptor ["Verdict"] (verdictVariants 0 1)) := rfl
  have hindices : ((verdictVariants 0 1).map (·.index)).Nodup := by decide
  have hreadable : ∀ variant ∈ verdictVariants 0 1, ∀ field ∈ variant.fields,
      verdictRegistry.Readable field.type := by
    simp only [verdictVariants, List.forall_mem_cons]
    exact ⟨⟨⟨1, [5], _, rfl⟩, nofun⟩, ⟨⟨1, [5, 0], _, rfl⟩, nofun⟩, nofun⟩
  obtain ⟨-, hkeeps, hback⟩ := variants_keep_indices hid hindices
  have horder : verdictRegistry.KeepsIndices 2 (.result 0 1) (verdictVariants 0 1) :=
    hkeeps fun _ => rfl
  exact ⟨hid, hindices, hreadable, horder, hback hreadable horder⟩

/-- An index that is declared for one variant is read as the other. -/
theorem variants_swap_indices :
    convertTypes (verdictTypes 1 0) = .ok verdictRegistry ∧
      verdictRegistry.get? 2 = some (variantDescriptor ["Verdict"] (verdictVariants 1 0)) ∧
      ((verdictVariants 1 0).map (·.index)).Nodup ∧
      (verdictVariants 1 0).find? (·.index = 0) = some ⟨"Err", [⟨none, 1⟩], 0, []⟩ ∧
      decode verdictRegistry 2 [0, 5, 1] = .ok (.variant "Result::Ok" 0 [.unsigned 5], 2) ∧
      ¬ verdictRegistry.KeepsIndices 2 (.result 0 1) (verdictVariants 1 0) := by
  refine ⟨ok_of_toOption (by decide +kernel), rfl, by decide, rfl, rfl, ?_⟩
  intro hkeeps
  have hread : (.ok (.variant "Result::Ok" 0 [.unsigned 5], [1]) :
      Except CodecError (Value × Bytes)) =
        .ok (.variant "Result::Err" 0 [.unsigned 261], []) :=
    hkeeps.declared ⟨"Err", [⟨none, 1⟩], 0, []⟩ (by simp [verdictVariants]) 1 [5, 1]
  simp at hread

end ChainClient
