import ChainClient.Proofs.Codec.Parts

/-! Reading and writing undo each other.  What is read is written as the same
value in its shortest form, and what is written, from whatever form it was given
in, is read back as one value. -/

namespace ChainClient.Codec

variable {registry : TypeRegistry} {id : TypeId}

theorem restores_within (hnames : registry.DistinctFieldNames)
    (hoption : registry.NoOptionLookalike) (budget : Nat) (id : TypeId) :
    Restores (decodeWithin registry budget id) (encodeWithin registry budget · id) := by
  -- Types may refer to each other in circles, so the induction is on the depth that is
  -- left, of which both sides spend one at each descriptor.
  induction budget generalizing id with
  | zero =>
      intro input rest value h
      rw [decodeWithin_zero] at h
      contradiction
  | succ budget ih =>
      intro input rest value h
      obtain ⟨descriptor, hid⟩ := decodeWithin_resolves h
      revert input rest value
      change Restores _ _
      cases descriptor with
      | primitive width =>
          rw [decodeWithin_primitive hid, funext (encodeWithin_primitive hid)]
          exact restores_primitive
      | boolean =>
          rw [decodeWithin_boolean hid, funext (encodeWithin_boolean hid)]
          exact restores_bool
      | string =>
          rw [decodeWithin_string hid, funext (encodeWithin_string hid)]
          exact restores_string
      | compact inner =>
          rw [decodeWithin_compact hid, funext (encodeWithin_compact hid)]
          exact restores_compact
      | option inner =>
          exact restores_option hid (fun descriptor => hoption id inner descriptor hid) ih
      | result ok err => exact restores_result hid ih
      | tuple types => exact restores_tuple hid ih
      | list element length? => exact restores_list hid ih
      | struct fields => exact restores_struct hid (hnames id fields hid) ih
      | enum name variants => exact restores_enum hid ih
      | unsupported tag =>
          intro input rest value h
          rw [decodeWithin_unsupported hid] at h
          contradiction

/-- Variants need indices of their own to be read back at all; names and options matter only
for writing again what was read. -/
theorem settles_within (hindices : registry.DistinctVariantIndices) (budget : Nat)
    (id : TypeId) : Settles (registry.DistinctFieldNames ∧ registry.NoOptionLookalike)
      (decodeWithin registry budget id) (encodeWithin registry budget · id) := by
  induction budget generalizing id with
  | zero =>
      intro value written h
      simp only [encodeWithin_zero] at h
      contradiction
  | succ budget ih =>
      intro value written h
      obtain ⟨descriptor, hid⟩ := encodeWithin_resolves h
      revert value written
      change Settles _ _ _
      cases descriptor with
      | primitive width =>
          rw [decodeWithin_primitive hid, funext (encodeWithin_primitive hid)]
          exact settles_primitive
      | boolean =>
          rw [decodeWithin_boolean hid, funext (encodeWithin_boolean hid)]
          exact settles_bool
      | string =>
          rw [decodeWithin_string hid, funext (encodeWithin_string hid)]
          exact settles_string
      | compact inner =>
          rw [decodeWithin_compact hid, funext (encodeWithin_compact hid)]
          exact settles_compact
      | option inner =>
          exact settles_option hid
            (fun hfaithful descriptor => hfaithful.2 id inner descriptor hid) ih
      | result ok err => exact settles_result hid ih
      | tuple types => exact settles_tuple hid ih
      | list element length? => exact settles_list hid ih
      | struct fields =>
          exact settles_struct hid (fun hfaithful => hfaithful.1 id fields hid) ih
      | enum name variants => exact settles_enum hid (hindices id name variants hid) ih
      | unsupported tag =>
          intro value written h
          simp only [encodeWithin_unsupported hid] at h
          contradiction

theorem decode_eq_ok {input : Bytes} {value : Value} {count : Nat} :
    decode registry id input = .ok (value, count) ↔
      ∃ rest, decodeWithin registry maxDepth id input = .ok (value, rest) ∧
        count = input.length - rest.length := by
  simp only [decode, decodePrefix, bind_eq_ok, Prod.exists, Except.ok.injEq, Prod.mk.injEq]
  grind

theorem decode_of_reads {written : Bytes} {value : Value}
    (h : Reads (decodeWithin registry maxDepth id) written value) (suffix : Bytes) :
    decode registry id (written ++ suffix) = .ok (value, written.length) :=
  decode_eq_ok.mpr ⟨suffix, h suffix, by simp⟩

/-- A value that was read is written in no more bytes, which are read as it again; the bytes
it was read from differ only in compact integers that they have in a longer form. -/
theorem encode_of_decode (hnames : registry.DistinctFieldNames)
    (hoption : registry.NoOptionLookalike) {bytes : Bytes} {value : Value} {count : Nat}
    (h : decode registry id bytes = .ok (value, count)) :
    ∃ written, encode registry id value = .ok written ∧ written.length ≤ count ∧
      (∀ suffix, decode registry id (written ++ suffix) = .ok (value, written.length)) ∧
      (written.length = count → written = bytes.take count) ∧
      Recompacts (bytes.take count) written := by
  obtain ⟨rest, hread, rfl⟩ := decode_eq_ok.mp h
  obtain ⟨raw, written, rfl, hwritten, hreads, hraw⟩ :=
    restores_within hnames hoption maxDepth id hread
  have hcount : (raw ++ rest).length - rest.length = raw.length := by simp
  rw [hcount, List.take_left]
  exact ⟨written, hwritten, hraw.length_le, decode_of_reads hreads,
    hraw.eq_of_length_eq, hraw⟩

/-- A registry with options of options, unnamed fields, compact
integers and lists of bytes. -/
def statusRegistry : TypeRegistry :=
  ⟨[(0, .primitive (.unsigned 32)), (1, .compact 0), (2, .option 1), (3, .option 2),
    (4, .struct [⟨some "tip", 3⟩, ⟨none, 3⟩]), (5, .primitive .u8), (6, .list 5 none),
    (7, .enum "Status" [⟨4, "Idle", []⟩, ⟨2, "Busy", [⟨none, 4⟩, ⟨none, 6⟩]⟩])]⟩

def busyStatus : Value :=
  .variant "Status::Busy" 2
    [.composite
      [("tip", .variant someName 1 [.unsigned 1]), ("1", .variant someName 1 [.null])],
      .string "0x0709"]

/-- The number one takes two bytes here, and one when it is written again. -/
theorem encode_of_decode_long_form :
    statusRegistry.DistinctFieldNames ∧ statusRegistry.NoOptionLookalike ∧
      decode statusRegistry 7 [2, 1, 1, 5, 0, 1, 0, 8, 7, 9, 255] = .ok (busyStatus, 10) ∧
      ∃ written, encode statusRegistry 7 busyStatus = .ok written ∧ written.length ≤ 10 ∧
        (∀ suffix,
          decode statusRegistry 7 (written ++ suffix) = .ok (busyStatus, written.length)) ∧
        (written.length = 10 → written = [2, 1, 1, 5, 0, 1, 0, 8, 7, 9]) ∧
        Recompacts [2, 1, 1, 5, 0, 1, 0, 8, 7, 9] written := by
  have hnames : statusRegistry.DistinctFieldNames := by decide
  have hoption : statusRegistry.NoOptionLookalike := by decide
  have hdecode : decode statusRegistry 7 [2, 1, 1, 5, 0, 1, 0, 8, 7, 9, 255] =
      .ok (busyStatus, 10) := rfl
  exact ⟨hnames, hoption, hdecode, encode_of_decode hnames hoption hdecode⟩

/-- Bytes that were written are read as one value whatever follows them, and this value
is written as the same bytes. -/
theorem decode_of_encode (hindices : registry.DistinctVariantIndices)
    (hnames : registry.DistinctFieldNames) (hoption : registry.NoOptionLookalike)
    {value : Value} {written : Bytes} (h : encode registry id value = .ok written) :
    ∃ settled,
      (∀ suffix, decode registry id (written ++ suffix) = .ok (settled, written.length)) ∧
      encode registry id settled = .ok written := by
  obtain ⟨settled, hreads, hagain⟩ := settles_within hindices maxDepth id h
  exact ⟨settled, decode_of_reads hreads, hagain ⟨hnames, hoption⟩⟩

/-- A status as it may be typed in: fields in any order beside others, options without their
wrapper, bytes as integers. -/
def typedStatus : Value :=
  .variant "busy" 2
    [.composite [("1", .null), ("note", .bool true), ("tip", .signed 1)],
      .sequence [.signed 7, .unsigned 9]]

theorem decode_of_encode_loose_form :
    statusRegistry.DistinctVariantIndices ∧ statusRegistry.DistinctFieldNames ∧
      statusRegistry.NoOptionLookalike ∧
      encode statusRegistry 7 typedStatus = .ok [2, 1, 1, 4, 0, 8, 7, 9] ∧
      ∃ settled,
        (∀ suffix, decode statusRegistry 7 ([2, 1, 1, 4, 0, 8, 7, 9] ++ suffix) =
          .ok (settled, 8)) ∧
        encode statusRegistry 7 settled = .ok [2, 1, 1, 4, 0, 8, 7, 9] := by
  have hindices : statusRegistry.DistinctVariantIndices := by decide
  have hnames : statusRegistry.DistinctFieldNames := by decide
  have hoption : statusRegistry.NoOptionLookalike := by decide
  have hencode : encode statusRegistry 7 typedStatus = .ok [2, 1, 1, 4, 0, 8, 7, 9] := rfl
  exact ⟨hindices, hnames, hoption, hencode,
    decode_of_encode hindices hnames hoption hencode⟩

end ChainClient.Codec
