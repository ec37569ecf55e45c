import ChainClient.Proofs.Codec.Scalar

/-! Registries under which every value that is read can be told from every other. -/

namespace ChainClient

namespace TypeDescriptor

def structFields : TypeDescriptor → List Field
  | .struct fields => fields
  | _ => []

def enumVariants : TypeDescriptor → List Variant
  | .enum _ variants => variants
  | _ => []

def optionInner? : TypeDescriptor → Option TypeId
  | .option inner => some inner
  | _ => none

/-- An enum that can be read as a value in the wrapper of options of options. -/
def LooksLikeOption : TypeDescriptor → Prop
  | .enum name variants => name = "Option" ∧ ∃ variant ∈ variants, variant.name = "Some"
  | _ => False

instance : (descriptor : TypeDescriptor) → Decidable descriptor.LooksLikeOption
  | .enum name variants =>
      inferInstanceAs (Decidable (name = "Option" ∧ ∃ variant ∈ variants,
        variant.name = "Some"))
  | .primitive _ | .boolean | .string | .compact _ | .option _ | .result .. | .tuple _
  | .list .. | .struct _ | .unsupported _ => inferInstanceAs (Decidable False)

end TypeDescriptor

namespace TypeRegistry

def DistinctFieldNames (registry : TypeRegistry) : Prop :=
  ∀ id fields, registry.get? id = some (.struct fields) → (Codec.fieldNames fields).Nodup

def DistinctVariantIndices (registry : TypeRegistry) : Prop :=
  ∀ id name variants, registry.get? id = some (.enum name variants) →
    (variants.map Variant.index).Nodup

def DistinctVariantNames (registry : TypeRegistry) : Prop :=
  ∀ id name variants, registry.get? id = some (.enum name variants) →
    (variants.map Variant.name).Nodup

def NoOptionLookalike (registry : TypeRegistry) : Prop :=
  ∀ id inner descriptor, registry.get? id = some (.option inner) →
    registry.get? inner = some descriptor → ¬ descriptor.LooksLikeOption

/-! All of these can be checked entry by entry. -/

variable {registry : TypeRegistry}

theorem forall_entries_iff {p : TypeDescriptor → Prop} :
    (∀ entry ∈ registry.entries, ∀ descriptor ∈ (registry.get? entry.1).toList,
      p descriptor) ↔
      ∀ id descriptor, registry.get? id = some descriptor → p descriptor := by
  constructor
  · intro h id descriptor hid
    obtain ⟨before, after, hentries, _⟩ := List.lookup_eq_some_iff.mp hid
    exact h (id, descriptor) (by simp [hentries]) descriptor (by simp [hid])
  · intro h entry _ descriptor hdescriptor
    exact h entry.1 descriptor (by simpa using hdescriptor)

theorem distinctFieldNames_iff :
    registry.DistinctFieldNames ↔
      ∀ id descriptor, registry.get? id = some descriptor →
        (Codec.fieldNames descriptor.structFields).Nodup := by
  constructor
  · intro h id descriptor hid
    cases descriptor with
    | struct fields => exact h id fields hid
    | _ => exact List.nodup_nil
  · intro h id fields hid
    exact h id (.struct fields) hid

theorem forall_enum_iff {p : List Variant → Prop} (hnil : p []) :
    (∀ id name variants, registry.get? id = some (.enum name variants) → p variants) ↔
      ∀ id descriptor, registry.get? id = some descriptor → p descriptor.enumVariants := by
  constructor
  · intro h id descriptor hid
    cases descriptor with
    | enum name variants => exact h id name variants hid
    | _ => exact hnil
  · intro h id name variants hid
    exact h id (.enum name variants) hid

theorem distinctVariantIndices_iff :
    registry.DistinctVariantIndices ↔
      ∀ id descriptor, registry.get? id = some descriptor →
        (descriptor.enumVariants.map Variant.index).Nodup :=
  forall_enum_iff List.nodup_nil

theorem distinctVariantNames_iff :
    registry.DistinctVariantNames ↔
      ∀ id descriptor, registry.get? id = some descriptor →
        (descriptor.enumVariants.map Variant.name).Nodup :=
  forall_enum_iff List.nodup_nil

theorem noOptionLookalike_iff :
    registry.NoOptionLookalike ↔
      ∀ id descriptor, registry.get? id = some descriptor →
        ∀ inner ∈ descriptor.optionInner?.toList,
          ∀ looked ∈ (registry.get? inner).toList, ¬ looked.LooksLikeOption := by
  simp only [Option.mem_toList]
  constructor
  · intro h id descriptor hid inner hinner looked hlooked
    cases descriptor with
    | option other =>
        obtain rfl := Option.some.inj hinner
        exact h id other looked hid hlooked
    | _ => contradiction
  · intro h id inner looked hid hlooked
    exact h id (.option inner) hid inner rfl looked hlooked

instance : Decidable registry.DistinctFieldNames :=
  decidable_of_iff _ (forall_entries_iff.trans distinctFieldNames_iff.symm)

instance : Decidable registry.DistinctVariantIndices :=
  decidable_of_iff _ (forall_entries_iff.trans distinctVariantIndices_iff.symm)

instance : Decidable registry.DistinctVariantNames :=
  decidable_of_iff _ (forall_entries_iff.trans distinctVariantNames_iff.symm)

instance : Decidable registry.NoOptionLookalike :=
  decidable_of_iff _ (forall_entries_iff.trans noOptionLookalike_iff.symm)

end TypeRegistry

namespace Codec

/-- The text of the wrapper splits into a name and a variant in one way only. -/
theorem qualified_eq_someName {name variant : String}
    (h : name ++ "::" ++ variant = someName) : name = "Option" ∧ variant = "Some" := by
  have hchars : name.toList ++ ':' :: ':' :: variant.toList = someName.toList := by
    rw [← h]
    simp
  have hlength : name.toList.length + 2 + variant.toList.length = 12 := by
    have := congrArg List.length hchars
    simp only [List.length_append, List.length_cons] at this
    have hsome : someName.toList.length = 12 := by decide
    omega
  have hcolons : ∀ position < 12, someName.toList[position]? = some ':' →
      someName.toList[position + 1]? = some ':' → position = 6 := by
    decide
  have hposition : name.toList.length = 6 := by
    apply hcolons _ (by omega)
    · rw [← hchars]
      simp
    · rw [← hchars]
      simp
  have hname : name.toList = "Option".toList := by
    have := congrArg (List.take 6) hchars
    rw [← hposition, List.take_left, hposition] at this
    rw [this]
    decide
  have hvariant : variant.toList = "Some".toList := by
    have := congrArg (List.drop 8) hchars
    rw [List.drop_append, hposition, List.drop_of_length_le (by omega)] at this
    simp only [List.nil_append, List.drop_succ_cons, List.drop_zero] at this
    rw [this]
    decide
  exact ⟨String.toList_inj.mp hname, String.toList_inj.mp hvariant⟩

theorem IsBare.of_name {name : String} {index : UInt8} {items : List Value}
    (h : name ≠ someName) : IsBare (.variant name index items) :=
  ⟨by simp, fun _ _ heq => h (Value.variant.inj heq).1⟩

/-- Nothing but an option, and enums that look like one, is read as a value that an
option would take for its own. -/
theorem isBare_of_decodeWithin {registry : TypeRegistry} {budget : Nat} {id : TypeId}
    {descriptor : TypeDescriptor} {input rest : Bytes} {value : Value}
    (hid : registry.get? id = some descriptor)
    (hoption : ∀ inner, descriptor ≠ .option inner)
    (hlookalike : ¬ descriptor.LooksLikeOption)
    (h : decodeWithin registry budget id input = .ok (value, rest)) : IsBare value := by
  cases budget with
  | zero =>
      rw [decodeWithin_zero] at h
      contradiction
  | succ budget =>
      cases descriptor with
      | primitive width =>
          rw [decodeWithin_primitive hid] at h
          obtain ⟨raw, _, _, rfl⟩ := decodePrimitive_eq_ok.mp h
          rw [primitiveValue]
          split <;> exact ⟨by simp, by simp⟩
      | boolean =>
          rw [decodeWithin_boolean hid] at h
          obtain ⟨b, _, rfl⟩ := decodeBool_eq_ok.mp h
          exact ⟨by simp, by simp⟩
      | string =>
          rw [decodeWithin_string hid] at h
          obtain ⟨text, _, rfl⟩ := decodeString_eq_ok.mp h
          exact ⟨by simp, by simp⟩
      | compact inner =>
          rw [decodeWithin_compact hid] at h
          obtain ⟨n, _, rfl⟩ := decodeCompactValue_eq_ok.mp h
          exact ⟨by simp, by simp⟩
      | option inner => exact absurd rfl (hoption inner)
      | result ok err =>
          obtain ⟨index, others, item, _, _, _, rfl⟩ := (decodeWithin_result_eq_ok hid).mp h
          refine .of_name ?_
          rw [resultName]
          split <;> decide
      | tuple types =>
          obtain ⟨values, _, rfl⟩ := (decodeWithin_tuple_eq_ok hid).mp h
          exact ⟨by simp, by simp⟩
      | list element length? =>
          cases hbyte : registry.isByte element with
          | true =>
              obtain ⟨_, _, raw, _, _, rfl⟩ := (decodeWithin_bytes_eq_ok hid hbyte).mp h
              exact ⟨by simp [Value.ofBytes], by simp [Value.ofBytes]⟩
          | false =>
              obtain ⟨_, _, values, _, _, rfl⟩ := (decodeWithin_list_eq_ok hid hbyte).mp h
              exact ⟨by simp, by simp⟩
      | struct fields =>
          obtain ⟨values, _, rfl⟩ := (decodeWithin_struct_eq_ok hid).mp h
          exact ⟨by simp, by simp⟩
      | enum name variants =>
          obtain ⟨_, _, variant, values, _, hfind, _, rfl⟩ :=
            (decodeWithin_enum_eq_ok hid).mp h
          refine .of_name fun hname => hlookalike ?_
          obtain ⟨rfl, hvariant⟩ := qualified_eq_someName hname
          exact ⟨rfl, variant, List.mem_of_find?_eq_some hfind, hvariant⟩
      | unsupported tag =>
          rw [decodeWithin_unsupported hid] at h
          contradiction

end Codec

end ChainClient
