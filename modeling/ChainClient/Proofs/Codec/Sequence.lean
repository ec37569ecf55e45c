import ChainClient.Proofs.Codec.Scalar

/-! Values one after another: the parts of tuples, structs, variants and lists. -/

namespace ChainClient.Codec

variable {α : Type} {faithful : Prop}

/-- Writes values for the items that they belong to. -/
def encodeZip (write : Value → α → Except CodecError Bytes) (items : List α)
    (values : List Value) : Except CodecError Bytes :=
  encodeEach (fun pair => write pair.1 pair.2) (values.zip items)

theorem encodeEach_cons_eq_ok {write : α → Except CodecError Bytes} {item : α}
    {items : List α} {written : Bytes} :
    encodeEach write (item :: items) = .ok written ↔
      ∃ first rest, write item = .ok first ∧ encodeEach write items = .ok rest ∧
        written = first ++ rest := by
  simp only [encodeEach, bind_eq_ok, Except.ok.injEq]
  grind

theorem encodeZip_cons_eq_ok {write : Value → α → Except CodecError Bytes} {item : α}
    {items : List α} {value : Value} {values : List Value} {written : Bytes} :
    encodeZip write (item :: items) (value :: values) = .ok written ↔
      ∃ first rest, write value item = .ok first ∧ encodeZip write items values = .ok rest ∧
        written = first ++ rest :=
  encodeEach_cons_eq_ok

theorem decodeEach_cons_eq_ok {read : α → Reader Value} {item : α} {items : List α}
    {input rest : Bytes} {values : List Value} :
    decodeEach read (item :: items) input = .ok (values, rest) ↔
      ∃ value others middle, read item input = .ok (value, middle) ∧
        decodeEach read items middle = .ok (others, rest) ∧ values = value :: others := by
  simp only [decodeEach, bind_eq_ok, Prod.exists, Except.ok.injEq, Prod.mk.injEq]
  grind

theorem length_of_decodeEach {read : α → Reader Value} {items : List α} {input rest : Bytes}
    {values : List Value} (h : decodeEach read items input = .ok (values, rest)) :
    values.length = items.length := by
  induction items generalizing input values with
  | nil =>
      simp only [decodeEach, Except.ok.injEq, Prod.mk.injEq] at h
      simp [← h.1]
  | cons item items ih =>
      obtain ⟨value, others, middle, _, hothers, rfl⟩ := decodeEach_cons_eq_ok.mp h
      simp [ih hothers]

theorem each_reads_nil (read : α → Reader Value) : Reads (decodeEach read []) [] [] :=
  fun _ => rfl

theorem each_reads_cons {read : α → Reader Value} {item : α} {items : List α}
    {first rest : Bytes} {value : Value} {values : List Value}
    (hfirst : Reads (read item) first value)
    (hrest : Reads (decodeEach read items) rest values) :
    Reads (decodeEach read (item :: items)) (first ++ rest) (value :: values) := by
  intro suffix
  rw [List.append_assoc]
  exact decodeEach_cons_eq_ok.mpr ⟨value, values, _, hfirst _, hrest _, rfl⟩

theorem restores_each {read : α → Reader Value}
    {write : Value → α → Except CodecError Bytes}
    (h : ∀ item, Restores (read item) (write · item)) (items : List α) :
    Restores (decodeEach read items) (encodeZip write items) := by
  induction items with
  | nil =>
      intro input rest values hread
      simp only [decodeEach, Except.ok.injEq, Prod.mk.injEq] at hread
      obtain ⟨rfl, rfl⟩ := hread
      exact ⟨[], [], rfl, rfl, each_reads_nil read, .same []⟩
  | cons item items ih =>
      intro input rest values hread
      obtain ⟨value, others, middle, hvalue, hothers, rfl⟩ := decodeEach_cons_eq_ok.mp hread
      obtain ⟨raw, first, rfl, hfirst, hfirstReads, hraw⟩ := h item hvalue
      obtain ⟨rawOthers, last, rfl, hlast, hlastReads, hrawOthers⟩ := ih hothers
      exact ⟨raw ++ rawOthers, first ++ last, by simp,
        encodeZip_cons_eq_ok.mpr ⟨first, last, hfirst, hlast, rfl⟩,
        each_reads_cons hfirstReads hlastReads, hraw.append hrawOthers⟩

theorem settles_each {read : α → Reader Value} {write : Value → α → Except CodecError Bytes}
    (h : ∀ item, Settles faithful (read item) (write · item)) {items : List α}
    {values : List Value} {written : Bytes} (hlength : values.length = items.length)
    (hwritten : encodeZip write items values = .ok written) :
    ∃ settled : List Value, settled.length = items.length ∧
      Reads (decodeEach read items) written settled ∧
      (faithful → encodeZip write items settled = .ok written) := by
  induction items generalizing values written with
  | nil =>
      obtain rfl := List.eq_nil_of_length_eq_zero hlength
      obtain rfl := Except.ok.inj hwritten
      exact ⟨[], rfl, each_reads_nil read, fun _ => rfl⟩
  | cons item items ih =>
      match values with
      | value :: values =>
          obtain ⟨first, rest, hfirst, hrest, rfl⟩ := encodeZip_cons_eq_ok.mp hwritten
          obtain ⟨settledFirst, hreadsFirst, hagainFirst⟩ := h item hfirst
          obtain ⟨settled, hsettled, hreads, hagain⟩ := ih (by simpa using hlength) hrest
          exact ⟨settledFirst :: settled, by simp [hsettled],
            each_reads_cons hreadsFirst hreads, fun hfaithful =>
              encodeZip_cons_eq_ok.mpr
                ⟨first, rest, hagainFirst hfaithful, hagain hfaithful, rfl⟩⟩

theorem length_of_encodeEach {write : α → Except CodecError Bytes} {width : Nat}
    (h : ∀ ⦃item written⦄, write item = .ok written → written.length = width)
    {items : List α} {written : Bytes} (hwritten : encodeEach write items = .ok written) :
    written.length = width * items.length := by
  induction items generalizing written with
  | nil =>
      obtain rfl := Except.ok.inj hwritten
      rfl
  | cons item items ih =>
      obtain ⟨first, rest, hfirst, hrest, rfl⟩ := encodeEach_cons_eq_ok.mp hwritten
      rw [List.length_append, h hfirst, ih hrest, List.length_cons, Nat.mul_succ,
        Nat.add_comm]

/-! Lists are as many items of one type as their length says. -/

theorem decodeRepeated_eq (read : Reader Value) (length : Nat) :
    decodeRepeated read length =
      decodeEach (fun _ : Unit => read) (List.replicate length ()) := by
  induction length with
  | zero => rfl
  | succ length ih =>
      funext input
      simp only [decodeRepeated, List.replicate_succ, decodeEach, ih]

theorem encodeEach_eq (write : Value → Except CodecError Bytes) (values : List Value) :
    encodeEach write values =
      encodeZip (fun value (_ : Unit) => write value) (List.replicate values.length ())
        values := by
  induction values with
  | nil => rfl
  | cons value values ih =>
      simp only [encodeEach, ih]
      rfl

theorem length_of_decodeRepeated {read : Reader Value} {length : Nat} {input rest : Bytes}
    {values : List Value} (h : decodeRepeated read length input = .ok (values, rest)) :
    values.length = length := by
  rw [decodeRepeated_eq] at h
  simpa using length_of_decodeEach h

theorem restores_repeated {read : Reader Value} {write : Writer Value}
    (h : Restores read write) (length : Nat) :
    Restores (decodeRepeated read length) (encodeEach write) := by
  intro input rest values hread
  have hlength := length_of_decodeRepeated hread
  rw [decodeRepeated_eq] at hread
  rw [decodeRepeated_eq, encodeEach_eq, hlength]
  exact restores_each (fun _ => h) _ hread

theorem settles_repeated {read : Reader Value} {write : Writer Value}
    (h : Settles faithful read write) {values : List Value} {written : Bytes}
    (hwritten : encodeEach write values = .ok written) :
    ∃ settled : List Value, settled.length = values.length ∧
      Reads (decodeRepeated read values.length) written settled ∧
      (faithful → encodeEach write settled = .ok written) := by
  rw [encodeEach_eq] at hwritten
  obtain ⟨settled, hlength, hreads, hagain⟩ :=
    settles_each (fun _ : Unit => h) (by simp) hwritten
  rw [List.length_replicate] at hlength
  refine ⟨settled, hlength, ?_, fun hfaithful => ?_⟩
  · rw [decodeRepeated_eq]
    exact hreads
  · rw [encodeEach_eq, hlength]
    exact hagain hfaithful

end ChainClient.Codec
