import ChainClient.Proofs.Codec.Sequence

/-! Values of a struct by the names of its fields. -/

namespace ChainClient.Codec

variable {write : Value → TypeId → Except CodecError Bytes} {id : TypeId}

/-- Writes values at the types of fields. -/
def encodeFields (write : Value → TypeId → Except CodecError Bytes) :
    List Field → List Value → Except CodecError Bytes :=
  encodeZip fun value field => write value field.type

theorem encodeNamed_cons_eq_ok {value : Value} {position : Nat} {field : Field}
    {fields : List Field} {written : Bytes} :
    encodeNamed write id value position (field :: fields) = .ok written ↔
      ∃ item first rest, value.get? (field.effectiveName position) = some item ∧
        write item field.type = .ok first ∧
        encodeNamed write id value (position + 1) fields = .ok rest ∧
        written = first ++ rest := by
  rw [encodeNamed]
  cases value.get? (field.effectiveName position) with
  | none => simp [mismatch]
  | some item =>
      simp only [bind_eq_ok, Except.ok.injEq, Option.some.injEq]
      grind

/-- The values that the names of a struct's fields select are written in order. -/
theorem encodeFields_of_encodeNamed {value : Value} {position : Nat} {fields : List Field}
    {written : Bytes} (h : encodeNamed write id value position fields = .ok written) :
    ∃ items, items.length = fields.length ∧
      encodeFields write fields items = .ok written := by
  induction fields generalizing position written with
  | nil => exact ⟨[], rfl, h⟩
  | cons field fields ih =>
      obtain ⟨item, first, rest, _, hfirst, hrest, rfl⟩ := encodeNamed_cons_eq_ok.mp h
      obtain ⟨items, hlength, hitems⟩ := ih hrest
      exact ⟨item :: items, by simp [hlength],
        encodeZip_cons_eq_ok.mpr ⟨first, rest, hfirst, hitems, rfl⟩⟩

theorem lookup_zip {names : List String} {values : List Value} (hnames : names.Nodup)
    {index : Nat} {name : String} {value : Value} (hname : names[index]? = some name)
    (hvalue : values[index]? = some value) :
    (names.zip values).lookup name = some value := by
  induction names generalizing index values with
  | nil => simp at hname
  | cons first names ih =>
      rw [List.nodup_cons] at hnames
      cases values with
      | nil => simp at hvalue
      | cons item values =>
          cases index with
          | zero =>
              simp only [List.getElem?_cons_zero, Option.some.injEq] at hname hvalue
              simp [hname, hvalue]
          | succ index =>
              simp only [List.getElem?_cons_succ] at hname hvalue
              have hne : name ≠ first := by
                rintro rfl
                exact hnames.1 (List.mem_of_getElem? hname)
              rw [List.zip_cons_cons, List.lookup_cons, beq_eq_false_iff_ne.mpr hne]
              exact ih hnames.2 hname hvalue

/-- Entries that hold a value for every field, under the name it goes by at its position,
are written like the values alone. -/
theorem encodeNamed_of_lookup {entries : List (String × Value)} {position : Nat}
    {fields : List Field} {values : List Value} (hlength : values.length = fields.length)
    (hlookup : ∀ (index : Nat) field value, fields[index]? = some field →
      values[index]? = some value →
        entries.lookup (field.effectiveName (position + index)) = some value) :
    encodeNamed write id (.composite entries) position fields =
      encodeFields write fields values := by
  induction fields generalizing position values with
  | nil =>
      obtain rfl := List.eq_nil_of_length_eq_zero hlength
      rfl
  | cons field fields ih =>
      match values with
      | value :: values =>
          have hfirst := hlookup 0 field value rfl rfl
          have hrest : encodeNamed write id (.composite entries) (position + 1) fields =
              encodeFields write fields values :=
            ih (by simpa using hlength) (by
              intro index other item hother hitem
              have hnext := hlookup (index + 1) other item (by simpa using hother)
                (by simpa using hitem)
              rwa [show position + 1 + index = position + (index + 1) by omega])
          simp only [encodeNamed, Value.get?, Nat.add_zero] at hfirst ⊢
          rw [hfirst, hrest]
          rfl

theorem getElem?_fieldNames (fields : List Field) (index : Nat) :
    (fieldNames fields)[index]? = fields[index]?.map (Field.effectiveName index) := by
  simp [fieldNames]

theorem lookup_of_mem_zip {names : List String} {values : List Value} (hnames : names.Nodup)
    {name : String} {value : Value} (h : (name, value) ∈ names.zip values) :
    (names.zip values).lookup name = some value := by
  obtain ⟨index, hindex⟩ := List.mem_iff_getElem?.mp h
  obtain ⟨hname, hvalue⟩ := List.getElem?_zip_eq_some.mp hindex
  exact lookup_zip hnames hname hvalue

/-- The only value that stands under a name is the one that is looked up. -/
theorem lookup_of_unique {entries : List (String × Value)} {name : String} {value : Value}
    (hmem : (name, value) ∈ entries)
    (hunique : ∀ found, (name, found) ∈ entries → found = value) :
    entries.lookup name = some value := by
  cases hlookup : entries.lookup name with
  | none =>
      have habsent := List.lookup_eq_none_iff.mp hlookup (name, value) hmem
      simp at habsent
  | some found => rw [hunique found (Assoc.mem_of_lookup hlookup)]

/-- Under distinct names the entries of a struct are written like its values by position, in
whatever order they stand, and whatever else stands among them. -/
theorem encodeNamed_of_perm {fields : List Field} {values : List Value}
    (hnames : (fieldNames fields).Nodup) (hlength : values.length = fields.length)
    {entries others : List (String × Value)}
    (hentries : entries.Perm ((fieldNames fields).zip values ++ others))
    (hothers : ∀ entry ∈ others, entry.1 ∉ fieldNames fields) :
    encodeNamed write id (.composite entries) 0 fields =
      encodeFields write fields values := by
  apply encodeNamed_of_lookup hlength
  intro index field value hfield hvalue
  rw [Nat.zero_add]
  have hname : (fieldNames fields)[index]? = some (field.effectiveName index) := by
    rw [getElem?_fieldNames, hfield]
    rfl
  have hzip := lookup_zip hnames hname hvalue
  apply lookup_of_unique
  · exact hentries.mem_iff.mpr (List.mem_append_left _ (Assoc.mem_of_lookup hzip))
  · intro found hfound
    rcases List.mem_append.mp (hentries.mem_iff.mp hfound) with hfound | hfound
    · exact Option.some.inj ((lookup_of_mem_zip hnames hfound).symm.trans hzip)
    · exact absurd (List.mem_of_getElem? hname) (hothers _ hfound)

/-- Under distinct names a struct is written like its values by position. -/
theorem encodeNamed_zip {fields : List Field} {values : List Value}
    (hnames : (fieldNames fields).Nodup) (hlength : values.length = fields.length) :
    encodeNamed write id (.composite ((fieldNames fields).zip values)) 0 fields =
      encodeFields write fields values := by
  have hentries :
      ((fieldNames fields).zip values).Perm ((fieldNames fields).zip values ++ []) := by
    rw [List.append_nil]
  exact encodeNamed_of_perm hnames hlength hentries nofun

end ChainClient.Codec
