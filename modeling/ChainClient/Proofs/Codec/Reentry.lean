import ChainClient.Proofs.Codec.RoundTrip
import ChainClient.Proofs.Value.Printed

/-! Values that were read, printed and typed in again are written as the same bytes. -/

namespace ChainClient.Codec

open Value (IsPlain HasDistinctNames reread)

variable {registry : TypeRegistry} {budget : Nat} {id : TypeId}

theorem forall_of_decodeEach {α : Type} {read : α → Reader Value} {p : Value → Prop}
    (hread : ∀ item ⦃input rest value⦄, read item input = .ok (value, rest) → p value)
    {items : List α} {input rest : Bytes} {values : List Value}
    (h : decodeEach read items input = .ok (values, rest)) : ∀ value ∈ values, p value := by
  induction items generalizing input values with
  | nil =>
      obtain ⟨rfl, -⟩ := Prod.mk.inj (Except.ok.inj h)
      simp
  | cons item items ih =>
      obtain ⟨value, others, middle, hvalue, hothers, rfl⟩ := decodeEach_cons_eq_ok.mp h
      exact List.forall_mem_cons.mpr ⟨hread item hvalue, ih hothers⟩

/-! The names in what is read. -/

theorem hasDistinctNames_of_decodeWithin (hnames : registry.DistinctFieldNames)
    (budget : Nat) (id : TypeId) {input rest : Bytes} {value : Value}
    (h : decodeWithin registry budget id input = .ok (value, rest)) :
    value.Every HasDistinctNames := by
  induction budget generalizing id input rest value with
  | zero =>
      rw [decodeWithin_zero] at h
      contradiction
  | succ budget ih =>
      obtain ⟨descriptor, hid⟩ := decodeWithin_resolves h
      cases descriptor with
      | primitive width =>
          rw [decodeWithin_primitive hid] at h
          obtain ⟨raw, _, _, rfl⟩ := decodePrimitive_eq_ok.mp h
          rw [primitiveValue]
          split <;> exact Value.every_of_scalar rfl trivial
      | boolean =>
          rw [decodeWithin_boolean hid] at h
          obtain ⟨b, _, rfl⟩ := decodeBool_eq_ok.mp h
          exact Value.every_of_scalar rfl trivial
      | string =>
          rw [decodeWithin_string hid] at h
          obtain ⟨text, _, rfl⟩ := decodeString_eq_ok.mp h
          exact Value.every_of_scalar rfl trivial
      | compact inner =>
          rw [decodeWithin_compact hid] at h
          obtain ⟨n, _, rfl⟩ := decodeCompactValue_eq_ok.mp h
          exact Value.every_of_scalar rfl trivial
      | option inner =>
          rcases (decodeWithin_option_eq_ok hid).mp h with
            ⟨_, rfl⟩ | ⟨others, item, descriptor, _, hitem, _, rfl⟩
          · exact Value.every_of_scalar rfl trivial
          · cases descriptor with
            | option deeper =>
                exact Value.every_variant.mpr
                  ⟨trivial, List.forall_mem_singleton.mpr (ih inner hitem)⟩
            | _ => exact ih inner hitem
      | result ok err =>
          obtain ⟨index, others, item, _, _, hitem, rfl⟩ :=
            (decodeWithin_result_eq_ok hid).mp h
          exact Value.every_variant.mpr
            ⟨trivial, List.forall_mem_singleton.mpr (ih _ hitem)⟩
      | tuple types =>
          obtain ⟨values, hvalues, rfl⟩ := (decodeWithin_tuple_eq_ok hid).mp h
          exact Value.every_sequence.mpr
            ⟨trivial, forall_of_decodeEach (fun type _ _ _ => ih type) hvalues⟩
      | list element length? =>
          cases hbyte : registry.isByte element with
          | true =>
              obtain ⟨_, _, raw, _, _, rfl⟩ := (decodeWithin_bytes_eq_ok hid hbyte).mp h
              exact Value.every_of_scalar rfl trivial
          | false =>
              obtain ⟨_, _, values, _, hvalues, rfl⟩ :=
                (decodeWithin_list_eq_ok hid hbyte).mp h
              rw [decodeRepeated_eq] at hvalues
              exact Value.every_sequence.mpr
                ⟨trivial, forall_of_decodeEach (fun _ _ _ _ => ih element) hvalues⟩
      | struct fields =>
          obtain ⟨values, hvalues, rfl⟩ := (decodeWithin_struct_eq_ok hid).mp h
          have hlength := length_of_decodeEach hvalues
          have heach := forall_of_decodeEach (fun field _ _ _ => ih field.type) hvalues
          refine Value.every_composite.mpr ⟨?_, fun field hfield => ?_⟩
          · rw [HasDistinctNames, List.map_fst_zip (by simp [fieldNames, hlength])]
            exact hnames id fields hid
          · exact heach field.2 (List.of_mem_zip hfield).2
      | enum name variants =>
          obtain ⟨_, _, variant, values, _, _, hvalues, rfl⟩ :=
            (decodeWithin_enum_eq_ok hid).mp h
          exact Value.every_variant.mpr
            ⟨trivial, forall_of_decodeEach (fun field _ _ _ => ih field.type) hvalues⟩
      | unsupported tag =>
          rw [decodeWithin_unsupported hid] at h
          contradiction

/-! What is written of what was read again. -/

/-- A plain value that is read and written is written as the same bytes after
it was printed and taken back. -/
def Reenters (read : Reader Value) (write : Writer Value) : Prop :=
  ∀ ⦃input rest value written⦄, read input = .ok (value, rest) → value.Every IsPlain →
    write value = .ok written → write value.reread = .ok written

theorem toInt?_reread {value : Value} (hplain : IsPlain value) {n : Int}
    (h : toInt? value = some n) : toInt? value.reread = some n := by
  cases value with
  | unsigned m => rwa [Value.reread_unsigned hplain]
  | signed m =>
      obtain rfl := Option.some.inj h
      rw [Value.reread_signed hplain]
      split
      case isTrue hsign => exact congrArg some (Int.toNat_of_nonneg hsign)
      case isFalse => rfl
  | _ => cases h

theorem reenters_primitive {read : Reader Value} {width : Primitive} :
    Reenters read (encodePrimitive id width) := by
  intro input rest value written _ hplain hwritten
  obtain ⟨length, n, hlength, hn, hfits, rfl⟩ := encodePrimitive_eq_ok.mp hwritten
  exact encodePrimitive_eq_ok.mpr
    ⟨length, n, hlength, toInt?_reread hplain.self hn, hfits, rfl⟩

theorem reenters_bool : Reenters decodeBool (encodeBool id) := by
  intro input rest value written h _ hwritten
  obtain ⟨b, _, rfl⟩ := decodeBool_eq_ok.mp h
  exact hwritten

theorem reenters_string : Reenters decodeString (encodeStringValue id) := by
  intro input rest value written h _ hwritten
  obtain ⟨text, _, rfl⟩ := decodeString_eq_ok.mp h
  exact hwritten

theorem reenters_compact : Reenters decodeCompactValue (encodeCompactValue id) := by
  intro input rest value written h hplain hwritten
  obtain ⟨n, _, rfl⟩ := decodeCompactValue_eq_ok.mp h
  rwa [Value.reread_unsigned hplain.self]

theorem reenters_each {α : Type} {read : α → Reader Value}
    {write : Value → α → Except CodecError Bytes}
    (h : ∀ item, Reenters (read item) (write · item)) {items : List α} {input rest : Bytes}
    {values : List Value} {written : Bytes}
    (hread : decodeEach read items input = .ok (values, rest))
    (hplain : ∀ value ∈ values, value.Every IsPlain)
    (hwritten : encodeZip write items values = .ok written) :
    encodeZip write items (values.map reread) = .ok written := by
  induction items generalizing input values written with
  | nil =>
      obtain ⟨rfl, -⟩ := Prod.mk.inj (Except.ok.inj hread)
      exact hwritten
  | cons item items ih =>
      obtain ⟨value, others, middle, hvalue, hothers, rfl⟩ := decodeEach_cons_eq_ok.mp hread
      obtain ⟨first, last, hfirst, hlast, rfl⟩ := encodeZip_cons_eq_ok.mp hwritten
      rw [List.forall_mem_cons] at hplain
      exact encodeZip_cons_eq_ok.mpr
        ⟨first, last, h item hvalue hplain.1 hfirst, ih hothers hplain.2 hlast, rfl⟩

theorem reenters_repeated {read : Reader Value} {write : Writer Value}
    (h : Reenters read write) {length : Nat} {input rest : Bytes} {values : List Value}
    {written : Bytes} (hread : decodeRepeated read length input = .ok (values, rest))
    (hplain : ∀ value ∈ values, value.Every IsPlain)
    (hwritten : encodeEach write values = .ok written) :
    encodeEach write (values.map reread) = .ok written := by
  have hlength := length_of_decodeRepeated hread
  rw [decodeRepeated_eq] at hread
  rw [encodeEach_eq, hlength] at hwritten
  rw [encodeEach_eq, List.length_map, hlength]
  exact reenters_each (fun _ => h) hread hplain hwritten

theorem reenters_tuple {types : List TypeId} (hid : registry.get? id = some (.tuple types))
    (ih : ∀ part, Reenters (decodeWithin registry budget part)
      (encodeWithin registry budget · part)) :
    Reenters (decodeWithin registry (budget + 1) id)
      (encodeWithin registry (budget + 1) · id) := by
  intro input rest value written h hplain hwritten
  obtain ⟨values, hvalues, rfl⟩ := (decodeWithin_tuple_eq_ok hid).mp h
  obtain ⟨items, heq, hlength, hitems⟩ := (encodeWithin_tuple_eq_ok hid).mp hwritten
  obtain rfl := Value.sequence.inj heq
  simp only [Value.reread_sequence]
  exact (encodeWithin_tuple_eq_ok hid).mpr ⟨_, rfl, by rw [List.length_map, hlength],
    reenters_each ih hvalues (Value.every_sequence.mp hplain).2 hitems⟩

theorem reenters_struct {fields : List Field}
    (hid : registry.get? id = some (.struct fields)) (hnames : (fieldNames fields).Nodup)
    (ih : ∀ part, Reenters (decodeWithin registry budget part)
      (encodeWithin registry budget · part)) :
    Reenters (decodeWithin registry (budget + 1) id)
      (encodeWithin registry (budget + 1) · id) := by
  intro input rest value written h hplain hwritten
  obtain ⟨values, hvalues, rfl⟩ := (decodeWithin_struct_eq_ok hid).mp h
  have hlength := length_of_decodeEach hvalues
  have hvaluesOf : ((fieldNames fields).zip values).map Prod.snd = values :=
    List.map_snd_zip (by simp [fieldNames, hlength])
  have hparts : ∀ value ∈ values, value.Every IsPlain := by
    rw [← hvaluesOf, List.forall_mem_map]
    exact (Value.every_composite.mp hplain).2
  have hreread : Value.reread (.composite ((fieldNames fields).zip values)) =
      .composite ((fieldNames fields).zip (values.map reread)) := by
    rw [Value.reread_composite, List.zip_map_right]
    rfl
  simp only [encodeWithin_struct_zip hid hnames hlength] at hwritten
  simp only [hreread, encodeWithin_struct_zip hid hnames
    (show (values.map reread).length = fields.length by rw [List.length_map, hlength])]
  exact reenters_each (fun field : Field => ih field.type) hvalues hparts hwritten

theorem find?_named {variants : List Variant} (hnames : (variants.map Variant.name).Nodup)
    {variant : Variant} (hmem : variant ∈ variants) (hfields : variant.fields = []) :
    (variants.find? fun other => other.name.toList = variant.name.toList ∧
      other.fields = []) =
      some variant := by
  cases hfind : variants.find? fun other =>
      other.name.toList = variant.name.toList ∧ other.fields = [] with
  | none => simpa [hfields] using List.find?_eq_none.mp hfind variant hmem
  | some other =>
      have hother : other.name.toList = variant.name.toList ∧ other.fields = [] := by
        simpa using List.find?_some hfind
      exact congrArg some (List.inj_on_of_nodup_map hnames
        (List.mem_of_find?_eq_some hfind) hmem
        (String.toList_inj.mp hother.1))

/-- A variant under a name of its own is the one that its qualified name selects. -/
theorem variantNamed?_of_nodup {name : String} {variants : List Variant}
    (hnames : (variants.map Variant.name).Nodup) {variant : Variant}
    (hmem : variant ∈ variants) (hfields : variant.fields = []) :
    variantNamed? name variants (name ++ "::" ++ variant.name) = some variant := by
  have hgiven : (name ++ "::" ++ variant.name).toList =
      (name.toList ++ [':', ':']) ++ variant.name.toList := by
    simp
  have hprefix : (name.toList ++ [':', ':']).isPrefixOf
      ((name.toList ++ [':', ':']) ++ variant.name.toList) = true :=
    List.isPrefixOf_iff_prefix.mpr (List.prefix_append _ _)
  simp only [variantNamed?, hgiven, hprefix, if_true, List.drop_left]
  exact find?_named hnames hmem hfields

theorem reenters_enum {name : String} {variants : List Variant}
    (hid : registry.get? id = some (.enum name variants))
    (hnames : (variants.map Variant.name).Nodup) :
    Reenters (decodeWithin registry (budget + 1) id)
      (encodeWithin registry (budget + 1) · id) := by
  intro input rest value written h hplain hwritten
  obtain ⟨index, others, variant, values, rfl, hfind, hvalues, rfl⟩ :=
    (decodeWithin_enum_eq_ok hid).mp h
  obtain rfl : values = [] := hplain.self
  obtain rfl := find?_index_self hfind
  obtain ⟨selected, items, bytes, hselect, hlength, hitems, rfl⟩ :=
    (encodeWithin_enum_eq_ok hid).mp hwritten
  rw [selectVariant, hfind] at hselect
  obtain ⟨rfl, rfl⟩ := Prod.mk.inj (Except.ok.inj hselect)
  have hfields : variant.fields = [] := List.eq_nil_of_length_eq_zero hlength.symm
  refine (encodeWithin_enum_eq_ok hid).mpr ⟨variant, [], bytes, ?_, hlength, hitems, rfl⟩
  rw [Value.reread_variant, selectVariant,
    variantNamed?_of_nodup hnames (List.mem_of_find?_eq_some hfind) hfields]

/-- Only an empty option comes back as one, and nothing as a variant. -/
theorem isBare_reread {value : Value} (hplain : IsPlain value) (h : value ≠ .null) :
    IsBare value.reread := by
  cases value with
  | null => exact absurd rfl h
  | bool b => exact ⟨nofun, nofun⟩
  | unsigned n =>
      rw [Value.reread_unsigned hplain]
      exact ⟨nofun, nofun⟩
  | signed n =>
      rw [Value.reread_signed hplain]
      split <;> exact ⟨nofun, nofun⟩
  | string text => exact ⟨nofun, nofun⟩
  | sequence items => exact ⟨nofun, nofun⟩
  | composite fields => exact ⟨nofun, nofun⟩
  | variant name index fields =>
      obtain rfl : fields = [] := hplain
      exact ⟨nofun, nofun⟩

theorem encodeWithin_option_plain {inner : TypeId}
    (hid : registry.get? id = some (.option inner)) {value : Value} (hplain : IsPlain value)
    (h : value ≠ .null) {written : Bytes}
    (hwritten : encodeWithin registry (budget + 1) value id = .ok written) :
    (1 :: ·) <$> encodeWithin registry budget value inner = .ok written := by
  have hbare : IsBare value := by
    refine ⟨h, ?_⟩
    rintro index items rfl
    obtain rfl : items = [] := hplain
    simp [encodeWithin, resolve, hid, mismatch] at hwritten
  rwa [← encodeWithin_option_bare hid hbare]

theorem reenters_option {inner : TypeId} (hid : registry.get? id = some (.option inner))
    (ih : ∀ part, Reenters (decodeWithin registry budget part)
      (encodeWithin registry budget · part)) :
    Reenters (decodeWithin registry (budget + 1) id)
      (encodeWithin registry (budget + 1) · id) := by
  intro input rest value written h hplain hwritten
  rcases (decodeWithin_option_eq_ok hid).mp h with
    ⟨rfl, rfl⟩ | ⟨others, item, descriptor, rfl, hitem, hinner, rfl⟩
  · exact hwritten
  · by_cases hnull : wrapSome descriptor item = .null
    · simp only [hnull] at hwritten ⊢
      exact hwritten
    · have hbare := isBare_reread hplain.self hnull
      obtain ⟨bytes, hbytes, rfl⟩ :=
        map_eq_ok.mp (encodeWithin_option_plain hid hplain.self hnull hwritten)
      simp only [encodeWithin_option_bare hid hbare]
      refine map_eq_ok.mpr ⟨bytes, ?_, rfl⟩
      cases descriptor with
      | option deeper => exact absurd hplain.self (List.cons_ne_nil item [])
      | _ => exact ih inner hitem hplain hbytes

theorem reenters_result {ok err : TypeId} (hid : registry.get? id = some (.result ok err)) :
    Reenters (decodeWithin registry (budget + 1) id)
      (encodeWithin registry (budget + 1) · id) := by
  intro input rest value written h hplain hwritten
  obtain ⟨index, others, item, _, _, _, rfl⟩ := (decodeWithin_result_eq_ok hid).mp h
  exact absurd hplain.self (List.cons_ne_nil item [])

theorem reenters_list {element : TypeId} {length? : Option Nat}
    (hid : registry.get? id = some (.list element length?))
    (ih : ∀ part, Reenters (decodeWithin registry budget part)
      (encodeWithin registry budget · part)) :
    Reenters (decodeWithin registry (budget + 1) id)
      (encodeWithin registry (budget + 1) · id) := by
  intro input rest value written h hplain hwritten
  cases hbyte : registry.isByte element with
  | true =>
      obtain ⟨_, _, raw, _, _, rfl⟩ := (decodeWithin_bytes_eq_ok hid hbyte).mp h
      exact hwritten
  | false =>
      obtain ⟨length, middle, values, hlength, hvalues, rfl⟩ :=
        (decodeWithin_list_eq_ok hid hbyte).mp h
      obtain ⟨lengthBytes, bytes, hcheck, hcount, hbytes, rfl⟩ :=
        (encodeWithin_list_sequence_eq_ok hid).mp hwritten
      simp only [Value.reread_sequence]
      refine (encodeWithin_list_sequence_eq_ok hid).mpr ⟨lengthBytes, bytes, ?_, ?_,
        reenters_repeated (ih element) hvalues
          (Value.every_sequence.mp hplain).2 hbytes, rfl⟩
      · rw [List.length_map]
        exact checkLength_any hcheck
      · rwa [List.length_map]

theorem reenters_within (hnames : registry.DistinctFieldNames)
    (hvariants : registry.DistinctVariantNames) (budget : Nat) (id : TypeId) :
    Reenters (decodeWithin registry budget id) (encodeWithin registry budget · id) := by
  induction budget generalizing id with
  | zero =>
      intro input rest value written h
      rw [decodeWithin_zero] at h
      contradiction
  | succ budget ih =>
      intro input rest value written h
      obtain ⟨descriptor, hid⟩ := decodeWithin_resolves h
      revert input rest value written
      change Reenters _ _
      cases descriptor with
      | primitive width =>
          rw [funext (encodeWithin_primitive hid)]
          exact reenters_primitive
      | boolean =>
          rw [decodeWithin_boolean hid, funext (encodeWithin_boolean hid)]
          exact reenters_bool
      | string =>
          rw [decodeWithin_string hid, funext (encodeWithin_string hid)]
          exact reenters_string
      | compact inner =>
          rw [decodeWithin_compact hid, funext (encodeWithin_compact hid)]
          exact reenters_compact
      | option inner => exact reenters_option hid ih
      | result ok err => exact reenters_result hid
      | tuple types => exact reenters_tuple hid ih
      | list element length? => exact reenters_list hid ih
      | struct fields => exact reenters_struct hid (hnames id fields hid) ih
      | enum name variants => exact reenters_enum hid (hvariants id name variants hid)
      | unsupported tag =>
          intro input rest value written h
          rw [decodeWithin_unsupported hid] at h
          contradiction

/-- The text of a plain value that was read is itself read, as a value that
is written as the same bytes. -/
theorem encode_of_printed (hnames : registry.DistinctFieldNames)
    (hoption : registry.NoOptionLookalike) (hvariants : registry.DistinctVariantNames)
    {bytes : Bytes} {value : Value} {count : Nat}
    (h : decode registry id bytes = .ok (value, count)) (hplain : value.Every IsPlain)
    (hnesting : value.nesting < Json.nestingBudget) :
    ∃ json written, Json.parse? value.render = some json ∧
      encode registry id (Value.ofJson json) = .ok written ∧
      encode registry id value = .ok written := by
  obtain ⟨rest, hread, _⟩ := decode_eq_ok.mp h
  obtain ⟨_, written, _, hwritten, _, _⟩ := restores_within hnames hoption maxDepth id hread
  have hdistinct := hasDistinctNames_of_decodeWithin hnames maxDepth id hread
  exact ⟨value.toJson, written, Value.parse?_render hplain hdistinct hnesting,
    reenters_within hnames hvariants maxDepth id hread hplain hwritten, hwritten⟩

/-- Signed integers, a variant without fields inside an option,
bytes and positions for names. -/
def reportRegistry : TypeRegistry :=
  ⟨[(0, .primitive (.signedOf 16)), (1, .enum "Mood" [⟨3, "Calm", []⟩, ⟨1, "Busy", []⟩]),
    (2, .option 1), (3, .primitive .u8), (4, .list 3 none), (5, .list 0 none),
    (6, .struct [⟨some "mood", 2⟩, ⟨none, 4⟩, ⟨some "offsets", 5⟩])]⟩

def calmReport : Value :=
  .composite [("mood", .variant "Mood::Calm" 3 []), ("1", .string "0x0709"),
    ("offsets", .sequence [.signed 5, .signed (-2)])]

theorem encode_of_printed_report :
    reportRegistry.DistinctFieldNames ∧ reportRegistry.NoOptionLookalike ∧
      reportRegistry.DistinctVariantNames ∧
      decode reportRegistry 6 [1, 3, 8, 7, 9, 8, 5, 0, 254, 255] = .ok (calmReport, 10) ∧
      calmReport.Every IsPlain ∧ calmReport.nesting < Json.nestingBudget ∧
      calmReport.render =
        "\x7b\"mood\":\"Mood::Calm\",\"1\":\"0x0709\",\"offsets\":[5,-2]\x7d" ∧
      ∃ json written, Json.parse? calmReport.render = some json ∧
        encode reportRegistry 6 (Value.ofJson json) = .ok written ∧
        encode reportRegistry 6 calmReport = .ok written := by
  have hnames : reportRegistry.DistinctFieldNames := by decide
  have hoption : reportRegistry.NoOptionLookalike := by decide
  have hvariants : reportRegistry.DistinctVariantNames := by decide
  have hdecode : decode reportRegistry 6 [1, 3, 8, 7, 9, 8, 5, 0, 254, 255] =
      .ok (calmReport, 10) := rfl
  have hplain : calmReport.Every IsPlain := by decide
  have hnesting : calmReport.nesting < Json.nestingBudget := by decide
  have hrender : calmReport.render =
      "\x7b\"mood\":\"Mood::Calm\",\"1\":\"0x0709\",\"offsets\":[5,-2]\x7d" := by
    decide
  exact ⟨hnames, hoption, hvariants, hdecode, hplain, hnesting, hrender,
    encode_of_printed hnames hoption hvariants hdecode hplain hnesting⟩

end ChainClient.Codec
