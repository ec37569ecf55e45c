import ChainClient.Proofs.Codec.Fields
import ChainClient.Proofs.Codec.Unambiguous

/-! Both directions between bytes and values, for each type that has parts, given
them for the types of its parts. -/

namespace ChainClient.Codec

variable {registry : TypeRegistry} {budget : Nat} {id : TypeId} {faithful : Prop}

/-! Tuples. -/

theorem tuple_reads {types : List TypeId} (hid : registry.get? id = some (.tuple types))
    {written : Bytes} {values : List Value}
    (h : Reads (decodeEach (decodeWithin registry budget) types) written values) :
    Reads (decodeWithin registry (budget + 1) id) written (.sequence values) :=
  fun suffix => (decodeWithin_tuple_eq_ok hid).mpr ⟨values, h suffix, rfl⟩

theorem restores_tuple {types : List TypeId} (hid : registry.get? id = some (.tuple types))
    (ih : ∀ part, Restores (decodeWithin registry budget part)
      (encodeWithin registry budget · part)) :
    Restores (decodeWithin registry (budget + 1) id)
      (encodeWithin registry (budget + 1) · id) := by
  intro input rest value h
  obtain ⟨values, hvalues, rfl⟩ := (decodeWithin_tuple_eq_ok hid).mp h
  obtain ⟨raw, written, hinput, hwritten, hreads, hraw⟩ := restores_each ih types hvalues
  exact ⟨raw, written, hinput,
    (encodeWithin_tuple_eq_ok hid).mpr
      ⟨values, rfl, length_of_decodeEach hvalues, hwritten⟩,
    tuple_reads hid hreads, hraw⟩

theorem settles_tuple {types : List TypeId} (hid : registry.get? id = some (.tuple types))
    (ih : ∀ part, Settles faithful (decodeWithin registry budget part)
      (encodeWithin registry budget · part)) :
    Settles faithful (decodeWithin registry (budget + 1) id)
      (encodeWithin registry (budget + 1) · id) := by
  intro value written h
  obtain ⟨items, rfl, hlength, hitems⟩ := (encodeWithin_tuple_eq_ok hid).mp h
  obtain ⟨settled, hsettled, hreads, hagain⟩ := settles_each ih hlength hitems
  exact ⟨.sequence settled, tuple_reads hid hreads, fun hfaithful =>
    (encodeWithin_tuple_eq_ok hid).mpr ⟨settled, rfl, hsettled, hagain hfaithful⟩⟩

/-! Structs. -/

theorem struct_reads {fields : List Field} (hid : registry.get? id = some (.struct fields))
    {written : Bytes} {values : List Value}
    (h : Reads (decodeEach (fun field => decodeWithin registry budget field.type) fields)
      written values) :
    Reads (decodeWithin registry (budget + 1) id) written
      (.composite ((fieldNames fields).zip values)) :=
  fun suffix => (decodeWithin_struct_eq_ok hid).mpr ⟨values, h suffix, rfl⟩

/-- Under distinct names the value that is read of a struct is written field by field. -/
theorem encodeWithin_struct_zip {fields : List Field}
    (hid : registry.get? id = some (.struct fields)) (hnames : (fieldNames fields).Nodup)
    {values : List Value} (hlength : values.length = fields.length) :
    encodeWithin registry (budget + 1) (.composite ((fieldNames fields).zip values)) id =
      encodeFields (encodeWithin registry budget) fields values := by
  rw [encodeWithin_struct_composite hid, encodeNamed_zip hnames hlength]

/-- Whatever form a struct is given in, some values are written for its fields. -/
theorem encodeFields_of_encodeWithin {fields : List Field}
    (hid : registry.get? id = some (.struct fields)) {value : Value} {written : Bytes}
    (h : encodeWithin registry (budget + 1) value id = .ok written) :
    ∃ items, items.length = fields.length ∧
      encodeFields (encodeWithin registry budget) fields items = .ok written := by
  rcases encodeWithin_struct_shape hid h with ⟨entries, rfl⟩ | ⟨items, rfl⟩
  · rw [encodeWithin_struct_composite hid] at h
    exact encodeFields_of_encodeNamed h
  · exact ⟨items, (encodeWithin_struct_sequence hid).mp h⟩

theorem restores_struct {fields : List Field}
    (hid : registry.get? id = some (.struct fields)) (hnames : (fieldNames fields).Nodup)
    (ih : ∀ part, Restores (decodeWithin registry budget part)
      (encodeWithin registry budget · part)) :
    Restores (decodeWithin registry (budget + 1) id)
      (encodeWithin registry (budget + 1) · id) := by
  intro input rest value h
  obtain ⟨values, hvalues, rfl⟩ := (decodeWithin_struct_eq_ok hid).mp h
  have hlength := length_of_decodeEach hvalues
  obtain ⟨raw, written, hinput, hwritten, hreads, hraw⟩ :=
    restores_each (fun field : Field => ih field.type) fields hvalues
  exact ⟨raw, written, hinput, (encodeWithin_struct_zip hid hnames hlength).trans hwritten,
    struct_reads hid hreads, hraw⟩

theorem settles_struct {fields : List Field}
    (hid : registry.get? id = some (.struct fields))
    (hnames : faithful → (fieldNames fields).Nodup)
    (ih : ∀ part, Settles faithful (decodeWithin registry budget part)
      (encodeWithin registry budget · part)) :
    Settles faithful (decodeWithin registry (budget + 1) id)
      (encodeWithin registry (budget + 1) · id) := by
  intro value written h
  obtain ⟨items, hlength, hitems⟩ := encodeFields_of_encodeWithin hid h
  obtain ⟨settled, hsettled, hreads, hagain⟩ :=
    settles_each (fun field : Field => ih field.type) hlength hitems
  exact ⟨.composite ((fieldNames fields).zip settled), struct_reads hid hreads,
    fun hfaithful => (encodeWithin_struct_zip hid (hnames hfaithful) hsettled).trans
      (hagain hfaithful)⟩

/-! Enums. -/

theorem enum_reads {name : String} {variants : List Variant}
    (hid : registry.get? id = some (.enum name variants)) {variant : Variant}
    (hfind : variants.find? (·.index = variant.index) = some variant) {written : Bytes}
    {values : List Value}
    (h : Reads (decodeEach (fun field => decodeWithin registry budget field.type)
      variant.fields)
      written values) :
    Reads (decodeWithin registry (budget + 1) id) (variant.index :: written)
      (.variant (name ++ "::" ++ variant.name) variant.index values) :=
  fun suffix => (decodeWithin_enum_eq_ok hid).mpr
    ⟨variant.index, written ++ suffix, variant, values, rfl, hfind, h suffix, rfl⟩

theorem encodeWithin_variant {name : String} {variants : List Variant}
    (hid : registry.get? id = some (.enum name variants)) {variant : Variant}
    (hfind : variants.find? (·.index = variant.index) = some variant) {given : String}
    {items : List Value} {written : Bytes} (hlength : items.length = variant.fields.length)
    (h : encodeFields (encodeWithin registry budget) variant.fields items = .ok written) :
    encodeWithin registry (budget + 1) (.variant given variant.index items) id =
      .ok (variant.index :: written) := by
  refine (encodeWithin_enum_eq_ok hid).mpr ⟨variant, items, written, ?_, hlength, h, rfl⟩
  rw [selectVariant, hfind]

theorem find?_index_self {variants : List Variant} {index : UInt8} {variant : Variant}
    (h : variants.find? (·.index = index) = some variant) : variant.index = index := by
  simpa using List.find?_some h

/-- Under keys of their own each item is the one that its key selects. -/
theorem find?_of_nodup {α β : Type} [DecidableEq β] {key : α → β} {items : List α}
    (hkeys : (items.map key).Nodup) {item : α} (hmem : item ∈ items) :
    items.find? (key · = key item) = some item := by
  induction items with
  | nil => simp at hmem
  | cons first others ih =>
      simp only [List.map_cons, List.nodup_cons] at hkeys
      rcases List.mem_cons.mp hmem with rfl | hmem
      · simp
      · have hne : key first ≠ key item := by
          intro heq
          exact hkeys.1 (heq ▸ List.mem_map_of_mem hmem)
        simp [hne, ih hkeys.2 hmem]

theorem selectVariant_mem {name : String} {variants : List Variant} {value : Value}
    {variant : Variant} {items : List Value}
    (h : selectVariant id name variants value = .ok (variant, items)) :
    variant ∈ variants := by
  cases value with
  | variant _ index given =>
      simp only [selectVariant] at h
      cases hfind : variants.find? (·.index = index) with
      | none => simp [hfind] at h
      | some found =>
          simp only [hfind, Except.ok.injEq, Prod.mk.injEq] at h
          exact h.1 ▸ List.mem_of_find?_eq_some hfind
  | string given =>
      simp only [selectVariant] at h
      cases hfind : variantNamed? name variants given with
      | none => simp [hfind, mismatch] at h
      | some found =>
          simp only [hfind, Except.ok.injEq, Prod.mk.injEq] at h
          exact h.1 ▸ List.mem_of_find?_eq_some hfind
  | _ => simp [selectVariant, mismatch] at h

theorem restores_enum {name : String} {variants : List Variant}
    (hid : registry.get? id = some (.enum name variants))
    (ih : ∀ part, Restores (decodeWithin registry budget part)
      (encodeWithin registry budget · part)) :
    Restores (decodeWithin registry (budget + 1) id)
      (encodeWithin registry (budget + 1) · id) := by
  intro input rest value h
  obtain ⟨index, others, variant, values, rfl, hfind, hvalues, rfl⟩ :=
    (decodeWithin_enum_eq_ok hid).mp h
  obtain rfl := find?_index_self hfind
  obtain ⟨raw, written, rfl, hwritten, hreads, hraw⟩ :=
    restores_each (fun field : Field => ih field.type) variant.fields hvalues
  exact ⟨variant.index :: raw, variant.index :: written, rfl,
    encodeWithin_variant hid hfind (length_of_decodeEach hvalues) hwritten,
    enum_reads hid hfind hreads, hraw.cons variant.index⟩

theorem settles_enum {name : String} {variants : List Variant}
    (hid : registry.get? id = some (.enum name variants))
    (hindices : (variants.map Variant.index).Nodup)
    (ih : ∀ part, Settles faithful (decodeWithin registry budget part)
      (encodeWithin registry budget · part)) :
    Settles faithful (decodeWithin registry (budget + 1) id)
      (encodeWithin registry (budget + 1) · id) := by
  intro value written h
  obtain ⟨variant, items, rest, hselect, hlength, hitems, rfl⟩ :=
    (encodeWithin_enum_eq_ok hid).mp h
  have hfind := find?_of_nodup hindices (selectVariant_mem hselect)
  obtain ⟨settled, hsettled, hreads, hagain⟩ :=
    settles_each (fun field : Field => ih field.type) hlength hitems
  exact ⟨.variant (name ++ "::" ++ variant.name) variant.index settled,
    enum_reads hid hfind hreads,
    fun hfaithful => encodeWithin_variant hid hfind hsettled (hagain hfaithful)⟩

/-! Options. -/

theorem none_reads {inner : TypeId} (hid : registry.get? id = some (.option inner)) :
    Reads (decodeWithin registry (budget + 1) id) [0] .null :=
  fun _ => (decodeWithin_option_eq_ok hid).mpr (.inl ⟨rfl, rfl⟩)

theorem some_reads {inner : TypeId} {descriptor : TypeDescriptor}
    (hid : registry.get? id = some (.option inner))
    (hinner : registry.get? inner = some descriptor) {written : Bytes} {value : Value}
    (h : Reads (decodeWithin registry budget inner) written value) :
    Reads (decodeWithin registry (budget + 1) id) (1 :: written)
      (wrapSome descriptor value) :=
  fun suffix => (decodeWithin_option_eq_ok hid).mpr
    (.inr ⟨written ++ suffix, value, descriptor, rfl, h suffix, hinner, rfl⟩)

theorem encodeWithin_wrapSome_of_bare {inner : TypeId} {descriptor : TypeDescriptor}
    (hid : registry.get? id = some (.option inner)) {value : Value}
    (hbare : (∀ deeper, descriptor ≠ .option deeper) → IsBare value) :
    encodeWithin registry (budget + 1) (wrapSome descriptor value) id =
      (1 :: ·) <$> encodeWithin registry budget value inner := by
  cases descriptor with
  | option deeper => exact encodeWithin_option_wrapped hid 1 value
  | _ => exact encodeWithin_option_bare hid (hbare nofun)

/-- An option's value that was read is written as a mark before the inner value. -/
theorem encodeWithin_wrapSome {inner : TypeId} {descriptor : TypeDescriptor}
    (hid : registry.get? id = some (.option inner))
    (hinner : registry.get? inner = some descriptor)
    (hlookalike : ¬ descriptor.LooksLikeOption) {input rest : Bytes} {value : Value}
    (h : decodeWithin registry budget inner input = .ok (value, rest)) :
    encodeWithin registry (budget + 1) (wrapSome descriptor value) id =
      (1 :: ·) <$> encodeWithin registry budget value inner := by
  apply encodeWithin_wrapSome_of_bare hid
  intro hoption
  exact isBare_of_decodeWithin hinner hoption hlookalike h

theorem restores_option {inner : TypeId} (hid : registry.get? id = some (.option inner))
    (hlookalike : ∀ descriptor, registry.get? inner = some descriptor →
      ¬ descriptor.LooksLikeOption)
    (ih : ∀ part, Restores (decodeWithin registry budget part)
      (encodeWithin registry budget · part)) :
    Restores (decodeWithin registry (budget + 1) id)
      (encodeWithin registry (budget + 1) · id) := by
  intro input rest value h
  rcases (decodeWithin_option_eq_ok hid).mp h with
    ⟨rfl, rfl⟩ | ⟨others, item, descriptor, rfl, hitem, hinner, rfl⟩
  · exact ⟨[0], [0], rfl, encodeWithin_option_null hid, none_reads hid, .same [0]⟩
  · obtain ⟨raw, written, rfl, hwritten, hreads, hraw⟩ := ih inner hitem
    refine ⟨1 :: raw, 1 :: written, rfl, ?_, some_reads hid hinner hreads, hraw.cons 1⟩
    simp only at hwritten ⊢
    rw [encodeWithin_wrapSome hid hinner (hlookalike descriptor hinner) hitem, hwritten]
    rfl

theorem settles_option {inner : TypeId} (hid : registry.get? id = some (.option inner))
    (hlookalike : faithful → ∀ descriptor, registry.get? inner = some descriptor →
      ¬ descriptor.LooksLikeOption)
    (ih : ∀ part, Settles faithful (decodeWithin registry budget part)
      (encodeWithin registry budget · part)) :
    Settles faithful (decodeWithin registry (budget + 1) id)
      (encodeWithin registry (budget + 1) · id) := by
  intro value written h
  rcases encodeWithin_option_inversion hid h with rfl | ⟨item, rest, hitem, rfl⟩
  · exact ⟨.null, none_reads hid, fun _ => encodeWithin_option_null hid⟩
  · obtain ⟨settled, hreads, hagain⟩ := ih inner hitem
    obtain ⟨descriptor, hinner⟩ := decodeWithin_resolves hreads.exact
    refine ⟨wrapSome descriptor settled, some_reads hid hinner hreads, fun hfaithful => ?_⟩
    have hagain := hagain hfaithful
    simp only at hagain ⊢
    rw [encodeWithin_wrapSome hid hinner (hlookalike hfaithful descriptor hinner)
      hreads.exact, hagain]
    rfl

/-! Results. -/

theorem result_reads {ok err : TypeId} (hid : registry.get? id = some (.result ok err))
    {index : UInt8} (hindex : index = 0 ∨ index = 1) {written : Bytes} {item : Value}
    (h : Reads (decodeWithin registry budget (if index = 0 then ok else err))
      written item) :
    Reads (decodeWithin registry (budget + 1) id) (index :: written)
      (.variant (resultName index) index [item]) :=
  fun suffix => (decodeWithin_result_eq_ok hid).mpr
    ⟨index, written ++ suffix, item, hindex, rfl, h suffix, rfl⟩

theorem restores_result {ok err : TypeId} (hid : registry.get? id = some (.result ok err))
    (ih : ∀ part, Restores (decodeWithin registry budget part)
      (encodeWithin registry budget · part)) :
    Restores (decodeWithin registry (budget + 1) id)
      (encodeWithin registry (budget + 1) · id) := by
  intro input rest value h
  obtain ⟨index, others, item, hindex, rfl, hitem, rfl⟩ :=
    (decodeWithin_result_eq_ok hid).mp h
  obtain ⟨raw, written, rfl, hwritten, hreads, hraw⟩ := ih _ hitem
  exact ⟨index :: raw, index :: written, rfl,
    (encodeWithin_result_eq_ok hid).mpr ⟨_, index, item, written, hindex, rfl,
      hwritten, rfl⟩,
    result_reads hid hindex hreads, hraw.cons index⟩

theorem settles_result {ok err : TypeId} (hid : registry.get? id = some (.result ok err))
    (ih : ∀ part, Settles faithful (decodeWithin registry budget part)
      (encodeWithin registry budget · part)) :
    Settles faithful (decodeWithin registry (budget + 1) id)
      (encodeWithin registry (budget + 1) · id) := by
  intro value written h
  obtain ⟨name, index, item, rest, hindex, rfl, hitem, rfl⟩ :=
    (encodeWithin_result_eq_ok hid).mp h
  obtain ⟨settled, hreads, hagain⟩ := ih _ hitem
  exact ⟨.variant (resultName index) index [settled], result_reads hid hindex hreads,
    fun hfaithful => (encodeWithin_result_eq_ok hid).mpr
      ⟨_, index, settled, rest, hindex, rfl, hagain hfaithful, rfl⟩⟩

/-! Lists.  A list of bytes is carried as text, and not element by element. -/

theorem bytes_reads {element : TypeId} {length? : Option Nat}
    (hid : registry.get? id = some (.list element length?))
    (hbyte : registry.isByte element = true) {lengthBytes raw : Bytes}
    (h : Reads (listLength length?) lengthBytes raw.length) :
    Reads (decodeWithin registry (budget + 1) id) (lengthBytes ++ raw) (.ofBytes raw) := by
  intro suffix
  rw [List.append_assoc]
  exact (decodeWithin_bytes_eq_ok hid hbyte).mpr
    ⟨raw.length, raw ++ suffix, raw, h _, take_reads rfl suffix, rfl⟩

theorem list_reads {element : TypeId} {length? : Option Nat}
    (hid : registry.get? id = some (.list element length?))
    (hbyte : registry.isByte element = false) {length : Nat} {lengthBytes written : Bytes}
    {values : List Value} (hlength : Reads (listLength length?) lengthBytes length)
    (h : Reads (decodeRepeated (decodeWithin registry budget element) length)
      written values) :
    Reads (decodeWithin registry (budget + 1) id) (lengthBytes ++ written)
      (.sequence values) := by
  intro suffix
  rw [List.append_assoc]
  exact (decodeWithin_list_eq_ok hid hbyte).mpr
    ⟨length, written ++ suffix, values, hlength _, h suffix, rfl⟩

theorem encodeWithin_ofBytes {element : TypeId} {length? : Option Nat}
    (hid : registry.get? id = some (.list element length?))
    (hbyte : registry.isByte element = true) {lengthBytes raw : Bytes}
    (hcheck : checkLength id (.ofBytes raw) length? raw.length = .ok ())
    (h : encodeLength length? raw.length = .ok lengthBytes) :
    encodeWithin registry (budget + 1) (.ofBytes raw) id = .ok (lengthBytes ++ raw) :=
  (encodeWithin_bytes hid hbyte _).trans
    (encodeByteList_eq_ok.mpr ⟨raw, lengthBytes, Hex.decode0x?_encode0x raw,
      hcheck, h, rfl⟩)

theorem restores_list {element : TypeId} {length? : Option Nat}
    (hid : registry.get? id = some (.list element length?))
    (ih : ∀ part, Restores (decodeWithin registry budget part)
      (encodeWithin registry budget · part)) :
    Restores (decodeWithin registry (budget + 1) id)
      (encodeWithin registry (budget + 1) · id) := by
  intro input rest value h
  cases hbyte : registry.isByte element with
  | true =>
      obtain ⟨length, middle, bytes, hlength, htake, rfl⟩ :=
        (decodeWithin_bytes_eq_ok hid hbyte).mp h
      obtain ⟨rfl, rfl⟩ := take_eq_ok.mp htake
      obtain ⟨raw, lengthBytes, rfl, hwritten, hreads, hraw⟩ := restores_listLength hlength
      exact ⟨raw ++ bytes, lengthBytes ++ bytes, by simp,
        encodeWithin_ofBytes hid hbyte (checkLength_of_listLength hlength) hwritten,
        bytes_reads hid hbyte hreads, hraw.append (.same bytes)⟩
  | false =>
      obtain ⟨length, middle, values, hlength, hvalues, rfl⟩ :=
        (decodeWithin_list_eq_ok hid hbyte).mp h
      have hcount := length_of_decodeRepeated hvalues
      obtain ⟨raw, lengthBytes, rfl, hlengthBytes, hlengthReads, hraw⟩ :=
        restores_listLength hlength
      obtain ⟨rawValues, written, rfl, hwritten, hreads, hrawValues⟩ :=
        restores_repeated (ih element) length hvalues
      refine ⟨raw ++ rawValues, lengthBytes ++ written, by simp, ?_,
        list_reads hid hbyte hlengthReads hreads, hraw.append hrawValues⟩
      subst hcount
      exact (encodeWithin_list_sequence_eq_ok hid).mpr
        ⟨lengthBytes, written, checkLength_of_listLength hlength,
          hlengthBytes, hwritten, rfl⟩

theorem length_of_encodeWithin_byte {element : TypeId}
    (hbyte : registry.isByte element = true) {value : Value} {written : Bytes}
    (h : encodeWithin registry budget value element = .ok written) :
    written.length = 1 := by
  have helement : registry.get? element = some (.primitive .u8) := by
    simpa [TypeRegistry.isByte] using hbyte
  cases budget with
  | zero =>
      rw [encodeWithin_zero] at h
      contradiction
  | succ budget =>
      rw [encodeWithin_primitive helement] at h
      obtain ⟨length, n, hlength, _, _, rfl⟩ := encodePrimitive_eq_ok.mp h
      have hone : length = 1 := by
        simpa [Primitive.byteLength?, Primitive.u8, eq_comm] using hlength
      simpa using hone

theorem settles_list {element : TypeId} {length? : Option Nat}
    (hid : registry.get? id = some (.list element length?))
    (ih : ∀ part, Settles faithful (decodeWithin registry budget part)
      (encodeWithin registry budget · part)) :
    Settles faithful (decodeWithin registry (budget + 1) id)
      (encodeWithin registry (budget + 1) · id) := by
  intro value written h
  rcases encodeWithin_list_shape hid h with ⟨hbyte, text, rfl⟩ | ⟨items, rfl⟩
  · obtain ⟨raw, lengthBytes, _, hcheck, hlength, rfl⟩ :=
      encodeByteList_eq_ok.mp ((encodeWithin_bytes hid hbyte text).symm.trans h)
    exact ⟨.ofBytes raw, bytes_reads hid hbyte (listLength_reads hcheck hlength),
      fun _ => encodeWithin_ofBytes hid hbyte (checkLength_any hcheck) hlength⟩
  · obtain ⟨lengthBytes, bytes, hcheck, hlength, hbytes, rfl⟩ :=
      (encodeWithin_list_sequence_eq_ok hid).mp h
    cases hbyte : registry.isByte element with
    | true =>
        -- Integers in the place of bytes are read back as text, of as many bytes.
        have hcount : bytes.length = items.length := by
          simpa using length_of_encodeEach
            (fun _ _ hitem => length_of_encodeWithin_byte hbyte hitem) hbytes
        rw [← hcount] at hcheck hlength
        exact ⟨.ofBytes bytes, bytes_reads hid hbyte (listLength_reads hcheck hlength),
          fun _ => encodeWithin_ofBytes hid hbyte (checkLength_any hcheck) hlength⟩
    | false =>
        obtain ⟨settled, hcount, hreads, hagain⟩ := settles_repeated (ih element) hbytes
        refine ⟨.sequence settled,
          list_reads hid hbyte (listLength_reads hcheck hlength) hreads,
          fun hfaithful => ?_⟩
        rw [← hcount] at hcheck hlength
        exact (encodeWithin_list_sequence_eq_ok hid).mpr
          ⟨lengthBytes, bytes, checkLength_any hcheck, hlength, hagain hfaithful, rfl⟩

end ChainClient.Codec
