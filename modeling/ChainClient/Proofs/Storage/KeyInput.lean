import ChainClient.Account
import ChainClient.Proofs.Address.Ss58
import ChainClient.Proofs.Text.Blank
import ChainClient.Proofs.Text.Hex
import ChainClient.Storage.KeyInput

/-! Addresses as map keys. -/

namespace ChainClient.KeyInput

/-- What there is to read of an input. -/
def trimmed (input : String) : List Char := Text.trim input.toList

/-- An input is read as an address, being neither JSON nor hexadecimal text. -/
structure ReadsAccount (input : String) : Prop where
  not_structured : structured? (trimmed input) = none
  not_bytes : bytes? (trimmed input) = none
  account : (account? (trimmed input)).isSome = true

theorem account?_eq_some {text : List Char} {value : Value} :
    account? text = some value ↔
      ∃ key, Ss58.Addresses (String.ofList text) key ∧ value = .ofBytes key := by
  simp only [account?, Option.map_eq_some_iff, Ss58.decode?_eq_some]
  exact exists_congr fun key => and_congr_right fun _ => eq_comm

theorem parse_of_account {input : String} {value : Value}
    (hstructured : structured? (trimmed input) = none)
    (hbytes : bytes? (trimmed input) = none)
    (haccount : account? (trimmed input) = some value) : parse input = value := by
  rw [trimmed] at hstructured hbytes haccount
  simp [parse, hstructured, hbytes, haccount]

theorem parse_of_readsAccount {input : String} (h : ReadsAccount input) :
    ∃ key, Ss58.Addresses (String.ofList (trimmed input)) key ∧
      parse input = .ofBytes key := by
  obtain ⟨value, hvalue⟩ := Option.isSome_iff_exists.mp h.account
  obtain ⟨key, hkey, rfl⟩ := account?_eq_some.mp hvalue
  exact ⟨key, hkey, parse_of_account h.not_structured h.not_bytes hvalue⟩

theorem structured?_of_head? {text : List Char}
    (h : ∀ c ∈ text.head?, c ≠ '[' ∧ c ≠ '\x7b') : structured? text = none := by
  unfold structured?
  split
  case h_1 => exact absurd rfl (h '[' rfl).1
  case h_2 => exact absurd rfl (h '\x7b' rfl).2
  case h_3 => rfl

theorem bytes?_eq_some {text : List Char} {value : Value} :
    bytes? text = some value ↔
      ∃ digits bytes, text = '0' :: 'x' :: digits ∧ Hex.Spells digits bytes ∧
        value = .ofBytes bytes := by
  simp only [bytes?, Option.map_eq_some_iff, Hex.decode0x?_eq_some, String.toList_ofList]
  constructor
  · rintro ⟨bytes, ⟨digits, htext, hdigits⟩, rfl⟩
    exact ⟨digits, bytes, htext, hdigits, rfl⟩
  · rintro ⟨digits, bytes, htext, hdigits, rfl⟩
    exact ⟨bytes, ⟨digits, htext, hdigits⟩, rfl⟩

theorem bytes?_of_unmarked {text : List Char} (h : ∀ digits, text ≠ '0' :: 'x' :: digits) :
    bytes? text = none := by
  apply Option.eq_none_iff_forall_ne_some.mpr
  intro value hvalue
  obtain ⟨digits, bytes, htext, -⟩ := bytes?_eq_some.mp hvalue
  exact h digits htext

/-! The letters of an address keep it clear of the readings that come before. -/

theorem apart_from_alphabet {c : Char} (h : c ∈ Base58.alphabet) :
    Text.isBlank c = false ∧ c ≠ '[' ∧ c ≠ '\x7b' ∧ c ≠ '0' := by
  have hall : Base58.alphabet.all
      (fun c => !Text.isBlank c && c != '[' && c != '\x7b' && c != '0') = true := by
    decide
  simpa [and_assoc] using List.all_eq_true.mp hall c h

section Alphabet

variable {text : List Char} (h : ∀ c ∈ text, c ∈ Base58.alphabet)

include h

theorem not_blank_of_alphabet : ∀ c ∈ text, Text.isBlank c = false :=
  fun c hc => (apart_from_alphabet (h c hc)).1

theorem structured?_of_alphabet : structured? text = none := by
  apply structured?_of_head?
  intro c hc
  obtain ⟨-, hbracket, hbrace, -⟩ := apart_from_alphabet (h c (List.mem_of_mem_head? hc))
  exact ⟨hbracket, hbrace⟩

theorem bytes?_of_alphabet : bytes? text = none := by
  apply bytes?_of_unmarked
  rintro digits rfl
  exact absurd rfl (apart_from_alphabet (h '0' List.mem_cons_self)).2.2.2

end Alphabet

theorem trimmed_of_blanks {before text after : String}
    (hbefore : ∀ c ∈ before.toList, Text.isBlank c = true)
    (hafter : ∀ c ∈ after.toList, Text.isBlank c = true)
    (htext : Text.Trimmed text.toList) :
    trimmed (before ++ text ++ after) = text.toList := by
  rw [trimmed, String.toList_append, String.toList_append]
  exact Text.trim_of_blanks hbefore hafter htext

theorem trimmed_address (account : Account) (format : Nat) {before after : String}
    (hbefore : ∀ c ∈ before.toList, Text.isBlank c = true)
    (hafter : ∀ c ∈ after.toList, Text.isBlank c = true) :
    trimmed (before ++ account.address format ++ after) =
      (account.address format).toList := by
  apply trimmed_of_blanks hbefore hafter
  exact Text.trimmed_of_not_blank
    (not_blank_of_alphabet fun _ => Base58.mem_alphabet_of_encode)

theorem account?_address (account : Account) {format : Nat}
    (h : format % 2 ^ 14 ∈ Ss58.registered) :
    account? (account.address format).toList =
      some (.ofBytes account.publicKey.toList) := by
  refine account?_eq_some.mpr ⟨account.publicKey.toList, ?_, rfl⟩
  rw [String.ofList_toList]
  exact Ss58.addresses_encode h account.publicKey

/-- An account's address in a registered format, with any blanks around it, is read as its
public key; and what is read as an address at all is read as the key between the prefix and
the checksum of what the text says in base 58. -/
theorem parse_address :
    (∀ (account : Account) (format : Nat) (before after : String),
      format % 2 ^ 14 ∈ Ss58.registered →
      (∀ c ∈ before.toList, Text.isBlank c = true) →
      (∀ c ∈ after.toList, Text.isBlank c = true) →
      parse (before ++ account.address format ++ after) =
        .ofBytes account.publicKey.toList) ∧
    ∀ input, ReadsAccount input →
      ∃ key, Ss58.Addresses (String.ofList (trimmed input)) key ∧
        parse input = .ofBytes key := by
  refine ⟨?_, fun input => parse_of_readsAccount⟩
  intro account format before after hformat hbefore hafter
  have halphabet : ∀ c ∈ (account.address format).toList, c ∈ Base58.alphabet :=
    fun c => Base58.mem_alphabet_of_encode
  have htrimmed := trimmed_address account format hbefore hafter
  have hstructured := structured?_of_alphabet halphabet
  have hbytes := bytes?_of_alphabet halphabet
  have haccount := account?_address account hformat
  rw [← htrimmed] at hstructured hbytes haccount
  exact parse_of_account hstructured hbytes haccount

def alice : Account :=
  ⟨#v[0xd4, 0x35, 0x93, 0xc7, 0x15, 0xfd, 0xd3, 0x1c, 0x61, 0x14, 0x1a, 0xbd, 0x04,
    0xa9, 0x9f, 0xd6, 0x82, 0x2c, 0x85, 0x58, 0x85, 0x4c, 0xcd, 0xe3, 0x9a, 0x56, 0x84,
    0xe7, 0xa5, 0x6d, 0xa2, 0x7d]⟩

def aliceText : String := "5GrwvaEF5zXb26Fz9rcQpDWS57CtERHpNehXCPcNoHGKutQY"

/-- A format of two bytes with bits beyond the fourteen, and the usual one. -/
theorem parse_address_alice :
    17668 % 2 ^ 14 ∈ Ss58.registered ∧ (∀ c ∈ " \n".toList, Text.isBlank c = true) ∧
      (∀ c ∈ "\t".toList, Text.isBlank c = true) ∧
      parse (" \n" ++ alice.address 17668 ++ "\t") = .ofBytes alice.publicKey.toList ∧
      ReadsAccount aliceText ∧
      ∃ key, Ss58.Addresses (String.ofList (trimmed aliceText)) key ∧
        parse aliceText = .ofBytes key := by
  have hformat : 17668 % 2 ^ 14 ∈ Ss58.registered := by decide
  have hbefore : ∀ c ∈ " \n".toList, Text.isBlank c = true :=
    List.all_eq_true.mp (by decide)
  have hafter : ∀ c ∈ "\t".toList, Text.isBlank c = true := List.all_eq_true.mp (by decide)
  have hreads : ReadsAccount aliceText := ⟨by decide, by decide, by decide +kernel⟩
  exact ⟨hformat, hbefore, hafter,
    parse_address.1 alice 17668 " \n" "\t" hformat hbefore hafter, hreads,
    parse_address.2 aliceText hreads⟩

end ChainClient.KeyInput
