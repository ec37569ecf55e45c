import ChainClient.Proofs.Codec.Compact

/-! Compact integers in place: read off an input that moves on, and put at the end of a
buffer, by shifts in words as wide as each mode.  This agrees with reading and writing byte
strings as a whole, and where it fails it leaves the input and the buffer as they were. -/

namespace ChainClient.Codec

/-- A computation on a byte string that it changes where it stands.  What it has changed
stays changed also if it fails later on. -/
abbrev InPlace (β : Type) := ExceptT CodecError (StateM Bytes) β

def InPlace.runOn (action : InPlace β) (bytes : Bytes) : Except CodecError β × Bytes :=
  StateT.run (ExceptT.run action) bytes

/-- What is left of an input after a reading: all of it, if nothing could be read. -/
def settled (input : Bytes) : Except CodecError (β × Bytes) → Except CodecError β × Bytes
  | .ok (value, rest) => (.ok value, rest)
  | .error error => (.error error, input)

/-- A buffer after what was written is put at its end:
nothing, if it could not be written. -/
def appended (out : Bytes) : Except CodecError Bytes → Except CodecError Unit × Bytes
  | .ok written => (.ok (), out ++ written)
  | .error error => (.error error, out)

/-! Runs. -/

@[simp] theorem runOn_pure (value : α) (bytes : Bytes) :
    (pure value : InPlace α).runOn bytes = (.ok value, bytes) := rfl

@[simp] theorem runOn_throw (error : CodecError) (bytes : Bytes) :
    (throw error : InPlace α).runOn bytes = (.error error, bytes) := rfl

@[simp] theorem runOn_modify (change : Bytes → Bytes) (bytes : Bytes) :
    (modify change : InPlace Unit).runOn bytes = (.ok (), change bytes) := rfl

@[simp] theorem runOn_set_bind (other : Bytes) (next : PUnit → InPlace β) (bytes : Bytes) :
    (set other >>= next).runOn bytes = (next ⟨⟩).runOn other := rfl

@[simp] theorem runOn_get_bind (next : Bytes → InPlace β) (bytes : Bytes) :
    (get >>= next).runOn bytes = (next bytes).runOn bytes := rfl

theorem runOn_bind (action : InPlace α) (next : α → InPlace β) (bytes : Bytes) :
    (action >>= next).runOn bytes =
      match action.runOn bytes with
      | (.ok value, rest) => (next value).runOn rest
      | (.error error, rest) => (.error error, rest) := by
  change StateT.run (ExceptT.run action >>= ExceptT.bindCont next) bytes = _
  rw [StateT.run_bind]
  change (match action.runOn bytes with
    | (outcome, rest) => StateT.run (ExceptT.bindCont next outcome) rest) = _
  rcases action.runOn bytes with ⟨outcome, rest⟩
  cases outcome <;> rfl

/-! Reading. -/

/-- Moves an input on by `count` bytes, which are given back. -/
def splitOff (count : Nat) : InPlace Bytes := do
  let input ← get
  if input.length < count then throw (.unexpectedEnd count input.length)
  else do
    set (input.drop count)
    return input.take count

theorem splitOff_runOn (count : Nat) (input : Bytes) :
    (splitOff count).runOn input = settled input (take count input) := by
  rw [splitOff, runOn_get_bind, take, split?_eq]
  by_cases hshort : input.length < count
  · rw [if_pos hshort, if_neg (Nat.not_le.mpr hshort), runOn_throw]
    rfl
  · rw [if_neg hshort, if_pos (Nat.not_lt.mp hshort), runOn_set_bind, runOn_pure]
    rfl

namespace CompactMode

def ofMark? : Nat → Option CompactMode
  | 0 => some one
  | 1 => some two
  | 2 => some four
  | _ => none

theorem ofMark?_map_width (first : UInt8) :
    (ofMark? (first &&& 3).toNat).map width = compactWidth? first := by
  have hlow : (first &&& 3).toNat = first.toNat % 4 := by
    rw [UInt8.toNat_and]
    exact Nat.and_two_pow_sub_one_eq_mod first.toNat 2
  rw [compactWidth?, hlow]
  have hmod : first.toNat % 4 < 4 := Nat.mod_lt _ (by decide)
  generalize first.toNat % 4 = low at hmod
  revert low
  decide

/-- A number in a word as wide as the mode. -/
def word (mode : CompactMode) (n : Nat) : BitVec (8 * mode.width) :=
  BitVec.ofNat _ n

/-- The word of a number that makes room for the mark. -/
def packed (mode : CompactMode) (n : Nat) : BitVec (8 * mode.width) :=
  mode.word n <<< 2 ||| mode.word mode.mark

theorem two_pow_eq (mode : CompactMode) : 2 ^ (8 * mode.width) = 4 * mode.bound := by
  rw [mode.four_mul_bound, Nat.pow_mul]

theorem toNat_word {mode : CompactMode} {n : Nat} (h : n < 4 * mode.bound) :
    (mode.word n).toNat = n := by
  rw [word, BitVec.toNat_ofNat, two_pow_eq, Nat.mod_eq_of_lt h]

/-- Shifting loses no bit of a number that the mode holds, and the mark fills the room. -/
theorem toNat_packed {mode : CompactMode} {n : Nat} (h : n < mode.bound) :
    (mode.packed n).toNat = 4 * n + mode.mark := by
  have hmark := mode.mark_lt
  have hshift : (mode.word n <<< 2).toNat = 2 ^ 2 * n := by
    rw [BitVec.toNat_shiftLeft, toNat_word (by omega), Nat.shiftLeft_eq, Nat.mul_comm,
      two_pow_eq, Nat.mod_eq_of_lt (by omega)]
  rw [packed, BitVec.toNat_or, hshift, toNat_word (by omega)]
  exact (Nat.two_pow_add_eq_or_of_lt (by omega) n).symm

theorem toNat_word_shift {mode : CompactMode} {raw : Bytes} (h : raw.length = mode.width) :
    (mode.word raw.toNatLE >>> 2).toNat = raw.toNatLE / 4 := by
  have hlt : raw.toNatLE < 4 * mode.bound := by
    rw [mode.four_mul_bound, ← h]
    exact raw.toNatLE_lt
  rw [BitVec.toNat_ushiftRight, toNat_word hlt, Nat.shiftRight_eq_div_pow]

end CompactMode

def readCompact : InPlace Nat := do
  match ← get with
  | [] => throw (.unexpectedEnd 1 0)
  | first :: _ =>
      match CompactMode.ofMark? (first &&& 3).toNat with
      | none => throw .unsupportedCompactMode
      | some mode => do
          let raw ← splitOff mode.width
          return (mode.word raw.toNatLE >>> 2).toNat

theorem readCompact_runOn (input : Bytes) :
    readCompact.runOn input = settled input (decodeCompact input) := by
  rw [readCompact, runOn_get_bind]
  cases input with
  | nil => rfl
  | cons first others =>
      have hwidth := CompactMode.ofMark?_map_width first
      rw [decodeCompact, takeByte_cons, ok_bind]
      cases hmode : CompactMode.ofMark? (first &&& 3).toNat with
      | none =>
          rw [hmode] at hwidth
          simp only [hmode, ← hwidth, Option.map_none]
          rfl
      | some mode =>
          rw [hmode] at hwidth
          simp only [hmode, ← hwidth, Option.map_some]
          rw [runOn_bind, splitOff_runOn]
          cases htake : take mode.width (first :: others) with
          | error error => rfl
          | ok parts =>
              obtain ⟨raw, rest⟩ := parts
              have hlength := (take_eq_ok.mp htake).2
              simp only [settled, runOn_pure, CompactMode.toNat_word_shift hlength, ok_bind]

/-! Writing. -/

def appendForm (mode : CompactMode) (n : Nat) : InPlace Unit :=
  modify (· ++ Bytes.ofNatLE mode.width (mode.packed n).toNat)

theorem appendForm_runOn {mode : CompactMode} {n : Nat} (h : n < mode.bound) (out : Bytes) :
    (appendForm mode n).runOn out = (.ok (), out ++ mode.form n) := by
  rw [appendForm, runOn_modify, CompactMode.toNat_packed h]
  rfl

def appendCompact (n : Nat) : InPlace Unit :=
  if n < 2 ^ 6 then appendForm .one n
  else if n < 2 ^ 14 then appendForm .two n
  else if n < compactLimit then appendForm .four n
  else throw (.compactOutOfRange n)

theorem appendCompact_runOn (n : Nat) (out : Bytes) :
    (appendCompact n).runOn out = appended out (encodeCompact n) := by
  rw [appendCompact, encodeCompact]
  split
  case isTrue hone => exact appendForm_runOn hone out
  case isFalse =>
    split
    case isTrue htwo => exact appendForm_runOn htwo out
    case isFalse =>
      split
      case isTrue hfour => exact appendForm_runOn hfour out
      case isFalse => rfl

/-! Lengths. -/

variable {input rest : Bytes} {n : Nat}

theorem CompactMode.width_mem (mode : CompactMode) : mode.width ∈ [1, 2, 4] := by
  cases mode <;> decide

theorem taken_of_decodeCompact (h : decodeCompact input = .ok (n, rest)) :
    ∃ taken written, input = taken ++ rest ∧ n < 2 ^ 30 ∧ taken.length ∈ [1, 2, 4] ∧
      encodeCompact n = .ok written ∧ written.length ≤ taken.length := by
  obtain ⟨mode, hbound, rfl⟩ := decodeCompact_eq_ok.mp h
  have hlimit : n < compactLimit := Nat.lt_of_lt_of_le hbound mode.bound_le_limit
  obtain ⟨shortest, hshortest⟩ := CompactMode.exists_shortest hlimit
  refine ⟨mode.form n, shortest.form n, rfl, hlimit, ?_,
    encodeCompact_of_shortest hshortest, ?_⟩
  · rw [CompactMode.length_form]
    exact mode.width_mem
  · rw [CompactMode.length_form, CompactMode.length_form]
    exact hshortest.least mode hbound

/-- No form that is read as the number is shorter than the one that is written. -/
theorem length_le_of_decodeCompact {written other : Bytes}
    (hwritten : encodeCompact n = .ok written)
    (h : decodeCompact (other ++ rest) = .ok (n, rest)) :
    written.length ≤ other.length := by
  obtain ⟨mode, hbound, hother⟩ := decodeCompact_eq_ok.mp h
  obtain ⟨shortest, hshortest, rfl⟩ := encodeCompact_eq_ok.mp hwritten
  rw [List.append_cancel_right hother, CompactMode.length_form, CompactMode.length_form]
  exact hshortest.least mode hbound

theorem exists_encodeCompact (h : n < 2 ^ 30) :
    ∃ written, encodeCompact n = .ok written ∧ written.length ∈ [1, 2, 4] := by
  obtain ⟨shortest, hshortest⟩ := CompactMode.exists_shortest h
  refine ⟨shortest.form n, encodeCompact_of_shortest hshortest, ?_⟩
  rw [CompactMode.length_form]
  exact shortest.width_mem

/-- A number below the limit is written in the shortest of the forms that are read as it,
and read back from there; nothing is taken or put where a form or a number is refused. -/
theorem compact_exact_in_place :
    (∀ input : Bytes,
      (∃ n rest taken written, decodeCompact input = .ok (n, rest) ∧
        readCompact.runOn input = (.ok n, rest) ∧
        input = taken ++ rest ∧ n < 2 ^ 30 ∧ taken.length ∈ [1, 2, 4] ∧
        encodeCompact n = .ok written ∧ written.length ≤ taken.length) ∨
      ∃ error, decodeCompact input = .error error ∧
        readCompact.runOn input = (.error error, input)) ∧
    (∀ n, n < 2 ^ 30 → ∃ written, encodeCompact n = .ok written ∧
      written.length ∈ [1, 2, 4] ∧
      (∀ other rest, decodeCompact (other ++ rest) = .ok (n, rest) →
        written.length ≤ other.length) ∧
      (∀ suffix, decodeCompact (written ++ suffix) = .ok (n, suffix) ∧
        readCompact.runOn (written ++ suffix) = (.ok n, suffix)) ∧
      ∀ out, (appendCompact n).runOn out = (.ok (), out ++ written)) ∧
    ∀ n, 2 ^ 30 ≤ n → encodeCompact n = .error (.compactOutOfRange n) ∧
      ∀ out, (appendCompact n).runOn out = (.error (.compactOutOfRange n), out) := by
  refine ⟨fun input => ?_, fun n hn => ?_, fun n hn => ?_⟩
  · rw [readCompact_runOn]
    cases h : decodeCompact input with
    | ok result =>
        obtain ⟨n, rest⟩ := result
        obtain ⟨taken, written, hparts⟩ := taken_of_decodeCompact h
        exact .inl ⟨n, rest, taken, written, rfl, rfl, hparts⟩
    | error error => exact .inr ⟨error, rfl, rfl⟩
  · obtain ⟨written, hwritten, hlength⟩ := exists_encodeCompact hn
    have hreads := encodeCompact_reads hwritten
    refine ⟨written, hwritten, hlength,
      fun other rest => length_le_of_decodeCompact hwritten,
      fun suffix => ⟨hreads suffix, ?_⟩, fun out => ?_⟩
    · rw [readCompact_runOn, hreads suffix]
      rfl
    · rw [appendCompact_runOn, hwritten]
      rfl
  · have hrefused := encodeCompact_of_limit_le hn
    refine ⟨hrefused, fun out => ?_⟩
    rw [appendCompact_runOn, hrefused]
    rfl

theorem compact_exact_in_place_limit :
    (1073741823 < 2 ^ 30 ∧ ∃ written, encodeCompact 1073741823 = .ok written ∧
      written.length ∈ [1, 2, 4] ∧
        readCompact.runOn (written ++ [7]) = (.ok 1073741823, [7]) ∧
      (appendCompact 1073741823).runOn [9] = (.ok (), [9] ++ written)) ∧
    2 ^ 30 ≤ 1073741824 ∧
      (appendCompact 1073741824).runOn [9] =
        (.error (.compactOutOfRange 1073741824), [9]) := by
  obtain ⟨-, hbelow, hbeyond⟩ := compact_exact_in_place
  have hlast : 1073741823 < 2 ^ 30 := by decide
  have hlimit : 2 ^ 30 ≤ 1073741824 := by decide
  obtain ⟨written, hwritten, hlength, -, hreads, happends⟩ := hbelow 1073741823 hlast
  exact ⟨⟨hlast, written, hwritten, hlength, (hreads [7]).2, happends [9]⟩, hlimit,
    (hbeyond 1073741824 hlimit).2 [9]⟩

end ChainClient.Codec
