import ChainClient.Proofs.Json.Containers
import ChainClient.Proofs.Storage.KeyInput
import ChainClient.Proofs.Text.Numeral

/-! Bytes, integers and mere text as map keys. -/

namespace ChainClient.KeyInput

/-! What the readings that come first leave alone. -/

theorem account?_of_short {text : List Char} (h : text.length < 35) :
    account? text = none := by
  apply Option.eq_none_iff_forall_ne_some.mpr
  intro value hvalue
  obtain ⟨key, haddress, -⟩ := account?_eq_some.mp hvalue
  have hlength := Ss58.length_of_addresses haddress
  rw [String.toList_ofList] at hlength
  omega

theorem account?_of_not_mem {text : List Char} {c : Char} (hmem : c ∈ text)
    (hc : c ∉ Base58.alphabet) : account? text = none := by
  apply Option.eq_none_iff_forall_ne_some.mpr
  intro value hvalue
  obtain ⟨key, haddress, -⟩ := account?_eq_some.mp hvalue
  apply hc
  apply Ss58.mem_alphabet_of_addresses haddress
  rwa [String.toList_ofList]

section Digits

variable {text : List Char} (hdigits : ∀ c ∈ text, c.isDigit = true)

include hdigits

theorem structured?_of_digits : structured? text = none := by
  apply structured?_of_head?
  intro c hc
  have hdigit := hdigits c (List.mem_of_mem_head? hc)
  constructor
  · rintro rfl
    cases hdigit
  · rintro rfl
    cases hdigit

theorem bytes?_of_digits : bytes? text = none := by
  apply bytes?_of_unmarked
  rintro digits rfl
  cases hdigits 'x' (by simp)

end Digits

/-! The text of each scalar. -/

theorem not_blank_of_spells {text : List Char} {bytes : Bytes} (h : Hex.Spells text bytes) :
    ∀ c ∈ text, Text.isBlank c = false := by
  have hall : ∀ code < 128, ∀ value < 16, (Char.ofNat code).toLower = Hex.digit value →
      Text.isBlank (Char.ofNat code) = false := by
    decide +kernel
  intro c hc
  have hlower : c.toLower ∈ Hex.digits bytes := h ▸ List.mem_map_of_mem hc
  obtain ⟨value, hvalue, hdigit⟩ := Hex.mem_digits hlower
  have hblank := hall c.toNat (Hex.lt_of_spells h c hc) value hvalue
  rw [Char.ofNat_toNat] at hblank
  exact hblank hdigit

theorem toList_toString_neg {n : Int} (h : n < 0) :
    (toString n).toList = '-' :: Nat.toDigits 10 n.natAbs := by
  obtain ⟨m, rfl⟩ := Int.eq_negSucc_of_lt_zero h
  change ("-" ++ (m + 1).repr).toList = _
  rw [String.toList_append, Nat.toList_repr]
  rfl

theorem trimmed_bytes {digits : String} {bytes : Bytes}
    (h : Hex.Spells digits.toList bytes) : Text.Trimmed ("0x" ++ digits).toList := by
  apply Text.trimmed_of_not_blank
  rw [String.toList_append, List.forall_mem_append]
  exact ⟨by simp [Text.isBlank], not_blank_of_spells h⟩

theorem trimmed_natural (n : Nat) : Text.Trimmed (toString n).toList := by
  apply Text.trimmed_of_not_blank
  intro c hc
  apply Text.not_blank_of_digit
  exact Text.isDigit_of_mem_toDigits (Nat.toList_repr (n := n) ▸ hc)

theorem trimmed_negative {n : Int} (h : n < 0) : Text.Trimmed (toString n).toList := by
  apply Text.trimmed_of_not_blank
  rw [toList_toString_neg h]
  exact List.forall_mem_cons.mpr ⟨rfl, fun c hc =>
    Text.not_blank_of_digit (Text.isDigit_of_mem_toDigits hc)⟩

section Read

variable {input : String}

theorem parse_bytes {digits : List Char} {bytes : Bytes}
    (htext : trimmed input = '0' :: 'x' :: digits) (hdigits : Hex.Spells digits bytes) :
    parse input = .ofBytes bytes := by
  have hstructured : structured? (trimmed input) = none := by
    rw [htext]
    rfl
  have hbytes : bytes? (trimmed input) = some (.ofBytes bytes) :=
    bytes?_eq_some.mpr ⟨digits, bytes, htext, hdigits, rfl⟩
  rw [trimmed] at hstructured hbytes
  simp [parse, hstructured, hbytes]

theorem parse_natural {n : Nat} (hlt : n < 2 ^ 128)
    (htext : trimmed input = Nat.toDigits 10 n)
    (hlength : (Nat.toDigits 10 n).length < 35) : parse input = .unsigned n := by
  have hdigits : ∀ c ∈ trimmed input, c.isDigit = true := by
    rw [htext]
    exact fun c => Text.isDigit_of_mem_toDigits
  have hstructured := structured?_of_digits hdigits
  have hbytes := bytes?_of_digits hdigits
  -- Most digits are letters of addresses as well, so it is the length
  -- that tells them apart.
  have haccount : account? (trimmed input) = none := account?_of_short (by rwa [htext])
  have hunsigned : unsigned? (trimmed input) = some (.unsigned n) := by
    rw [unsigned?, htext, Text.parseNatural_toDigits hlt]
    rfl
  rw [trimmed] at hstructured hbytes haccount hunsigned
  simp [parse, hstructured, hbytes, haccount, hunsigned]

theorem parse_negative {n : Int} (hlow : -2 ^ 127 ≤ n) (hneg : n < 0)
    (htext : trimmed input = '-' :: Nat.toDigits 10 n.natAbs) :
    parse input = .signed n := by
  have hstructured : structured? (trimmed input) = none := by
    rw [htext]
    rfl
  have hbytes : bytes? (trimmed input) = none := by
    apply bytes?_of_unmarked
    intro digits hmarked
    cases htext.symm.trans hmarked
  have haccount : account? (trimmed input) = none := by
    rw [htext]
    exact account?_of_not_mem List.mem_cons_self (by decide)
  have hunsigned : unsigned? (trimmed input) = none := by
    rw [htext]
    rfl
  have hsigned : signed? (trimmed input) = some (.signed n) := by
    have hbound : n.natAbs ≤ 2 ^ 127 := by omega
    have hself : -(n.natAbs : Int) = n := by omega
    rw [signed?, htext, Text.parseInteger?_neg hbound, hself]
    rfl
  rw [trimmed] at hstructured hbytes haccount hunsigned hsigned
  simp [parse, hstructured, hbytes, haccount, hunsigned, hsigned]

end Read

/-! Mere text. -/

/-- A text in one of the forms that are read as something else. -/
inductive Reserved (text : String) : Prop
  | container {json : Json} (hjson : Json.parse? text = some json)
    (hcontainer : json.IsContainer)
  | bytes {digits : String} {bytes : Bytes} (htext : text = "0x" ++ digits)
      (hdigits : Hex.Spells digits.toList bytes)
  | account {key : Bytes} (haddress : Ss58.Addresses text key)
  | integer {n : Int} (hdecimal : Text.Decimal text.toList n) (hlow : -2 ^ 127 ≤ n)
      (hhigh : n < 2 ^ 128)
  | bool (b : Bool) (htext : text = toString b)

section Reserved

variable {text : List Char} {value : Value}

theorem reserved_of_structured? (h : structured? text = some value) :
    Reserved (String.ofList text) := by
  unfold structured? at h
  split at h
  case h_1 rest =>
    obtain ⟨json, hjson, -⟩ := Option.map_eq_some_iff.mp h
    exact .container hjson (Json.isContainer_of_parse? (.inl rfl) hjson)
  case h_2 rest =>
    obtain ⟨json, hjson, -⟩ := Option.map_eq_some_iff.mp h
    exact .container hjson (Json.isContainer_of_parse? (.inr rfl) hjson)
  case h_3 => cases h

theorem reserved_of_bytes? (h : bytes? text = some value) :
    Reserved (String.ofList text) := by
  obtain ⟨digits, bytes, rfl, hdigits, -⟩ := bytes?_eq_some.mp h
  have htext : String.ofList ('0' :: 'x' :: digits) = "0x" ++ String.ofList digits := by
    rw [← String.toList_inj]
    simp
  exact .bytes htext (by rwa [String.toList_ofList])

theorem reserved_of_account? (h : account? text = some value) :
    Reserved (String.ofList text) := by
  obtain ⟨key, haddress, -⟩ := account?_eq_some.mp h
  exact .account haddress

theorem reserved_of_unsigned? (h : unsigned? text = some value) :
    Reserved (String.ofList text) := by
  obtain ⟨n, hn, -⟩ := Option.map_eq_some_iff.mp h
  obtain ⟨hdecimal, hlt⟩ := Text.decimal_of_parseNatural (by decide) (ok_of_toOption hn)
  rw [← String.toList_ofList (l := text)] at hdecimal
  exact .integer hdecimal (by omega) (by omega)

theorem reserved_of_signed? (h : signed? text = some value) :
    Reserved (String.ofList text) := by
  obtain ⟨n, hn, -⟩ := Option.map_eq_some_iff.mp h
  obtain ⟨hdecimal, hlow, hhigh⟩ := Text.decimal_of_parseInteger? (by decide) hn
  rw [← String.toList_ofList (l := text)] at hdecimal
  exact .integer hdecimal (by omega) (by omega)

theorem reserved_of_bool? (h : bool? text = some value) :
    Reserved (String.ofList text) := by
  unfold bool? at h
  split at h
  case isTrue htrue => exact .bool true (by rw [htrue]; rfl)
  case isFalse =>
    split at h
    case isTrue hfalse => exact .bool false (by rw [hfalse]; rfl)
    case isFalse => cases h

end Reserved

theorem parse_text {input : String} (h : ¬ Reserved (String.ofList (trimmed input))) :
    parse input = .string (String.ofList (trimmed input)) := by
  have hnone : ∀ {reading : List Char → Option Value},
      (∀ {value}, reading (trimmed input) = some value →
        Reserved (String.ofList (trimmed input))) → reading (trimmed input) = none :=
    fun hreading => Option.eq_none_iff_forall_ne_some.mpr fun _ hvalue =>
      h (hreading hvalue)
  have hstructured := hnone reserved_of_structured?
  have hbytes := hnone reserved_of_bytes?
  have haccount := hnone reserved_of_account?
  have hunsigned := hnone reserved_of_unsigned?
  have hsigned := hnone reserved_of_signed?
  have hbool := hnone reserved_of_bool?
  rw [trimmed] at hstructured hbytes haccount hunsigned hsigned hbool ⊢
  simp [parse, hstructured, hbytes, haccount, hunsigned, hsigned, hbool]

/-- Between blanks, the digits of bytes are read as these bytes, a natural number
too short for an address and a negative number as themselves, and a text of none of
the reserved forms as the text. -/
theorem parse_scalar {before after : String}
    (hbefore : ∀ c ∈ before.toList, Text.isBlank c = true)
    (hafter : ∀ c ∈ after.toList, Text.isBlank c = true) :
    (∀ (digits : String) bytes, Hex.Spells digits.toList bytes →
      parse (before ++ ("0x" ++ digits) ++ after) = .ofBytes bytes) ∧
    (∀ n : Nat, n < 2 ^ 128 → (toString n).length < 35 →
      parse (before ++ toString n ++ after) = .unsigned n) ∧
    (∀ n : Int, -2 ^ 127 ≤ n → n < 0 → parse (before ++ toString n ++ after) = .signed n) ∧
    ∀ text : String, Text.Trimmed text.toList → ¬ Reserved text →
      parse (before ++ text ++ after) = .string text := by
  refine ⟨?_, ?_, ?_, ?_⟩
  · intro digits bytes hdigits
    apply parse_bytes ?_ hdigits
    rw [trimmed_of_blanks hbefore hafter (trimmed_bytes hdigits)]
    simp
  · intro n hlt hlength
    have htext : (toString n).toList = Nat.toDigits 10 n := Nat.toList_repr
    apply parse_natural hlt
    · rw [trimmed_of_blanks hbefore hafter (trimmed_natural n), htext]
    · rwa [← htext, String.length_toList]
  · intro n hlow hneg
    apply parse_negative hlow hneg
    rw [trimmed_of_blanks hbefore hafter (trimmed_negative hneg), toList_toString_neg hneg]
  · intro text hends hreserved
    have htrimmed := trimmed_of_blanks hbefore hafter hends
    have hself : String.ofList (trimmed (before ++ text ++ after)) = text := by
      rw [htrimmed, String.ofList_toList]
    rw [parse_text (by rwa [hself]), hself]

/-- A text that only starts like an array. -/
theorem not_reserved_oops : ¬ Reserved "[oops" := by
  intro h
  cases h with
  | container hjson _ =>
      have hnone : Json.parse? "[oops" = none := by decide +kernel
      cases hnone.symm.trans hjson
  | bytes htext _ =>
      have hhead := congrArg (fun text : String => text.toList.head?) htext
      simp at hhead
  | account haddress => exact absurd (Ss58.length_of_addresses haddress) (by decide)
  | integer hdecimal _ _ =>
      cases hdecimal with
      | unsigned _ hdigits => cases hdigits '[' (by decide)
  | bool b htext =>
      cases b with
      | false => exact absurd htext (by decide)
      | true => exact absurd htext (by decide)

theorem parse_scalar_small :
    parse (" \n" ++ ("0x" ++ "aB") ++ "\t") = .ofBytes [0xab] ∧
      parse (" \n" ++ toString 17 ++ "\t") = .unsigned 17 ∧
      parse (" \n" ++ toString (-3 : Int) ++ "\t") = .signed (-3) ∧
      parse (" \n" ++ "[oops" ++ "\t") = .string "[oops" := by
  have hbefore : ∀ c ∈ " \n".toList, Text.isBlank c = true :=
    List.all_eq_true.mp (by decide)
  have hafter : ∀ c ∈ "\t".toList, Text.isBlank c = true := List.all_eq_true.mp (by decide)
  have hdigits : Hex.Spells "aB".toList [0xab] := by
    rw [Hex.Spells]
    decide
  have hvisible : ∀ c ∈ "[oops".toList, Text.isBlank c = false := by simp [Text.isBlank]
  have hends := Text.trimmed_of_not_blank hvisible
  obtain ⟨hbytes, hnatural, hnegative, htext⟩ := parse_scalar hbefore hafter
  exact ⟨hbytes "aB" [0xab] hdigits, hnatural 17 (by decide) (by decide),
    hnegative (-3) (by decide) (by decide), htext "[oops" hends not_reserved_oops⟩

end ChainClient.KeyInput
