import ChainClient.Address.Base58
import Mathlib.Data.List.TakeWhile
import Mathlib.Data.Nat.Digits.Lemmas

/-! Bytes are read back from their base 58 text, leading zeros and all. -/

namespace ChainClient.Base58

theorem ofDigits_eq (base : Nat) (ds : List Nat) :
    ofDigits base ds = Nat.ofDigits base ds.reverse := by
  induction ds using List.reverseRecOn with
  | nil => rfl
  | append_singleton ds d ih =>
      rw [ofDigits] at ih ⊢
      rw [List.foldl_append, ih, List.reverse_append, List.foldl_cons, List.foldl_nil]
      simp [Nat.ofDigits_cons, Nat.add_comm]

theorem digits_eq {base : Nat} (hbase : 1 < base) (n : Nat) :
    digits base n = (Nat.digits base n).reverse := by
  induction n using Nat.strongRecOn with
  | ind n ih =>
      rw [digits]
      split
      case isTrue hzero =>
        have hn : n = 0 := by omega
        simp [hn]
      case isFalse hpos =>
        have hn : 0 < n := by omega
        rw [ih (n / base) (Nat.div_lt_self hn hbase), Nat.digits_def' hbase hn,
          List.reverse_cons]

theorem ofDigits_digits {base : Nat} (hbase : 1 < base) (n : Nat) :
    ofDigits base (digits base n) = n := by
  rw [ofDigits_eq, digits_eq hbase, List.reverse_reverse, Nat.ofDigits_digits]

theorem digits_lt {base : Nat} (hbase : 1 < base) (n : Nat) :
    ∀ d ∈ digits base n, d < base := by
  intro d hd
  rw [digits_eq hbase, List.mem_reverse] at hd
  exact Nat.digits_lt_base hbase hd

theorem ofDigits_dropWhile (base : Nat) (ds : List Nat) :
    ofDigits base (ds.dropWhile (· = 0)) = ofDigits base ds := by
  induction ds with
  | nil => rfl
  | cons d ds ih =>
      by_cases hd : d = 0
      · subst hd
        simpa [ofDigits] using ih
      · rw [List.dropWhile_cons_of_neg (by simpa using hd)]

/-- Digits are those of the number they stand for, but for zeros in front. -/
theorem digits_ofDigits {base : Nat} (hbase : 1 < base) {ds : List Nat}
    (hds : ∀ d ∈ ds, d < base) : digits base (ofDigits base ds) = ds.dropWhile (· = 0) := by
  rw [← ofDigits_dropWhile, digits_eq hbase, ofDigits_eq, Nat.digits_ofDigits base hbase,
    List.reverse_reverse]
  · intro d hd
    exact hds d ((List.dropWhile_subset _) (List.mem_reverse.mp hd))
  · intro hne
    rw [List.getLast_reverse]
    simpa using List.head_dropWhile_not (fun d => decide (d = 0)) (l := ds)
      (by simpa using hne)

/-- A number has no zeros in front. -/
theorem takeWhile_digits {base : Nat} (hbase : 1 < base) (n : Nat) :
    (digits base n).takeWhile (· = 0) = [] := by
  have hdrop : digits base n = (digits base n).dropWhile (· = 0) := by
    conv_lhs => rw [← ofDigits_digits hbase n]
    exact digits_ofDigits hbase (digits_lt hbase n)
  have hsplit := List.takeWhile_append_dropWhile (p := fun d => decide (d = 0))
    (l := digits base n)
  rw [← hdrop] at hsplit
  exact List.append_left_eq_self.mp hsplit

/-! Text. -/

def letter (digit : Nat) : Char := alphabet.getD digit '1'

theorem value?_letter {digit : Nat} (h : digit < 58) :
    value? (letter digit) = some digit := by
  revert h
  revert digit
  decide

theorem letter_mem {digit : Nat} (h : digit < 58) : letter digit ∈ alphabet := by
  revert h
  revert digit
  decide

theorem mapM_value?_letter {ds : List Nat} (h : ∀ d ∈ ds, d < 58) :
    (ds.map letter).mapM value? = some ds := by
  induction ds with
  | nil => rfl
  | cons d ds ih =>
      obtain ⟨hd, hds⟩ := List.forall_mem_cons.mp h
      rw [List.map_cons, List.mapM_cons, value?_letter hd, ih hds]
      rfl

/-- The digits that bytes are written in: a zero for each zero in front, and those of
the number that the bytes are. -/
def digitsOf (bytes : Bytes) : List Nat :=
  List.replicate (bytes.takeWhile (· = 0)).length 0 ++
    digits 58 (ofDigits 256 (bytes.map UInt8.toNat))

theorem digitsOf_lt (bytes : Bytes) : ∀ d ∈ digitsOf bytes, d < 58 := by
  intro d hd
  rcases List.mem_append.mp hd with hzero | hdigit
  · rw [List.eq_of_mem_replicate hzero]
    decide
  · exact digits_lt (by decide) _ d hdigit

theorem toList_encode (bytes : Bytes) :
    (encode bytes).toList = (digitsOf bytes).map letter := by
  rw [encode, String.toList_ofList, digitsOf, List.map_append, List.map_replicate]
  rfl

theorem mem_alphabet_of_encode {bytes : Bytes} {c : Char} (h : c ∈ (encode bytes).toList) :
    c ∈ alphabet := by
  rw [toList_encode] at h
  obtain ⟨digit, hdigit, rfl⟩ := List.mem_map.mp h
  exact letter_mem (digitsOf_lt bytes digit hdigit)

theorem takeWhile_digitsOf (bytes : Bytes) :
    (digitsOf bytes).takeWhile (· = 0) =
      List.replicate (bytes.takeWhile (· = 0)).length 0 := by
  rw [digitsOf, List.takeWhile_append_of_pos, takeWhile_digits (by decide), List.append_nil]
  intro d hd
  simp [List.eq_of_mem_replicate hd]

theorem ofDigits_digitsOf (bytes : Bytes) :
    ofDigits 58 (digitsOf bytes) = ofDigits 256 (bytes.map UInt8.toNat) := by
  have hzeros : ∀ count ds,
      ofDigits 58 (List.replicate count 0 ++ ds) = ofDigits 58 ds := by
    intro count ds
    induction count with
    | zero => rfl
    | succ count ih => simpa [ofDigits, List.replicate_succ] using ih
  rw [digitsOf, hzeros, ofDigits_digits (by decide)]

theorem bytes_of_digits (bytes : Bytes) :
    (digits 256 (ofDigits 256 (bytes.map UInt8.toNat))).map UInt8.ofNat =
      bytes.dropWhile (· = 0) := by
  have hbytes : ∀ d ∈ bytes.map UInt8.toNat, d < 256 := by
    intro d hd
    obtain ⟨byte, _, rfl⟩ := List.mem_map.mp hd
    exact byte.toNat_lt
  have hzero : (fun d => decide (d = 0)) ∘ UInt8.toNat = fun byte => decide (byte = 0) := by
    funext byte
    simp [← UInt8.toNat_inj]
  have hsame : UInt8.ofNat ∘ UInt8.toNat = id := funext fun _ => UInt8.ofNat_toNat
  rw [digits_ofDigits (by decide) hbytes, List.dropWhile_map, hzero, List.map_map, hsame,
    List.map_id]

/-- Bytes are read back from their text. -/
@[simp] theorem decode?_encode (bytes : Bytes) : decode? (encode bytes) = some bytes := by
  have hvalues := mapM_value?_letter (digitsOf_lt bytes)
  have hzeros : bytes.takeWhile (· = 0) =
      List.replicate (bytes.takeWhile (· = 0)).length 0 := by
    apply List.eq_replicate_of_mem
    intro byte hbyte
    simpa using List.mem_takeWhile_imp hbyte
  simp only [decode?, toList_encode, hvalues, Option.bind_eq_bind, Option.bind_some,
    takeWhile_digitsOf, List.length_replicate, ofDigits_digitsOf, bytes_of_digits]
  rw [← hzeros, List.takeWhile_append_dropWhile]

/-! What is read of a text. -/

theorem of_value? {c : Char} {digit : Nat} (h : value? c = some digit) :
    c ∈ alphabet ∧ digit < 58 := by
  obtain ⟨hlt, hc, -⟩ := List.findIdx?_eq_some_iff_getElem.mp h
  obtain rfl : alphabet[digit] = c := by simpa using hc
  exact ⟨List.getElem_mem hlt, hlt⟩

theorem of_mapM_value? {text : List Char} {values : List Nat}
    (h : text.mapM value? = some values) :
    (∀ c ∈ text, c ∈ alphabet) ∧ (∀ digit ∈ values, digit < 58) ∧
      values.length = text.length := by
  induction text generalizing values with
  | nil =>
      obtain rfl := Option.some.inj h
      exact ⟨nofun, nofun, rfl⟩
  | cons c text ih =>
      rw [List.mapM_cons, Option.bind_eq_bind, Option.bind_eq_some_iff] at h
      obtain ⟨digit, hdigit, h⟩ := h
      rw [Option.bind_eq_bind, Option.bind_eq_some_iff] at h
      obtain ⟨digits, hdigits, h⟩ := h
      obtain rfl := Option.some.inj h
      obtain ⟨hc, hlt⟩ := of_value? hdigit
      obtain ⟨htext, hvalues, hlength⟩ := ih hdigits
      exact ⟨List.forall_mem_cons.mpr ⟨hc, htext⟩, List.forall_mem_cons.mpr ⟨hlt, hvalues⟩,
        congrArg Nat.succ hlength⟩

/-- A digit in base 58 is less than one in base 256, so a number has no more of these. -/
theorem length_digits_ofDigits {ds : List Nat} (hds : ∀ d ∈ ds, d < 58) :
    (digits 256 (ofDigits 58 ds)).length ≤ ds.length := by
  rw [digits_eq (by decide), List.length_reverse, Nat.digits_length_le_iff (by decide),
    ofDigits_eq, ← List.length_reverse]
  calc Nat.ofDigits 58 ds.reverse
      < 58 ^ ds.reverse.length :=
        Nat.ofDigits_lt_base_pow_length (by decide) fun d hd =>
          hds d (List.mem_reverse.mp hd)
    _ ≤ 256 ^ ds.reverse.length := Nat.pow_le_pow_left (by decide) _

/-- A text holds at most as many bytes as it has letters. -/
theorem length_of_decode? {text : String} {bytes : Bytes} (h : decode? text = some bytes) :
    bytes.length ≤ text.toList.length := by
  rw [decode?, Option.bind_eq_bind, Option.bind_eq_some_iff] at h
  obtain ⟨values, hvalues, h⟩ := h
  obtain rfl := Option.some.inj h
  obtain ⟨-, hlt, hlength⟩ := of_mapM_value? hvalues
  have hsplit := congrArg List.length
    (List.takeWhile_append_dropWhile (p := fun d => decide (d = 0)) (l := values))
  have hshorter : ∀ d ∈ values.dropWhile (fun d => decide (d = 0)), d < 58 :=
    fun d hd => hlt d (List.dropWhile_subset _ hd)
  have hnumber := length_digits_ofDigits hshorter
  rw [ofDigits_dropWhile] at hnumber
  rw [List.length_append] at hsplit
  rw [List.length_append, List.length_replicate, List.length_map, ← hlength]
  omega

theorem mem_alphabet_of_decode? {text : String} {bytes : Bytes}
    (h : decode? text = some bytes) : ∀ c ∈ text.toList, c ∈ alphabet := by
  rw [decode?, Option.bind_eq_bind, Option.bind_eq_some_iff] at h
  obtain ⟨values, hvalues, -⟩ := h
  exact (of_mapM_value? hvalues).1

end ChainClient.Base58
