import ChainClient.Power

/-! Byte strings, and natural numbers written in them with the least byte first. -/

namespace ChainClient

abbrev Bytes := List UInt8

namespace Bytes

def ofNatLE : (width : Nat) → Nat → Bytes
  | 0, _ => []
  | width + 1, n => UInt8.ofNat n :: ofNatLE width (n / 256)

def toNatLE : Bytes → Nat
  | [] => 0
  | byte :: rest => byte.toNat + 256 * toNatLE rest

@[simp] theorem ofNatLE_zero (n : Nat) : ofNatLE 0 n = [] := rfl

@[simp] theorem ofNatLE_succ (width n : Nat) :
    ofNatLE (width + 1) n = UInt8.ofNat n :: ofNatLE width (n / 256) := rfl

@[simp] theorem toNatLE_nil : toNatLE [] = 0 := rfl

@[simp] theorem toNatLE_cons (byte : UInt8) (rest : Bytes) :
    toNatLE (byte :: rest) = byte.toNat + 256 * toNatLE rest := rfl

@[simp] theorem length_ofNatLE (width n : Nat) : (ofNatLE width n).length = width := by
  induction width generalizing n with
  | zero => rfl
  | succ width ih => simp [ih]

theorem toNatLE_lt (bytes : Bytes) : bytes.toNatLE < 256 ^ bytes.length := by
  induction bytes with
  | nil => simp
  | cons byte rest ih =>
      have hbyte := byte.toNat_lt
      simp only [toNatLE_cons, List.length_cons, Nat.pow_succ]
      omega

theorem toNatLE_ofNatLE (width n : Nat) : (ofNatLE width n).toNatLE = n % 256 ^ width := by
  induction width generalizing n with
  | zero => simp [Nat.mod_one]
  | succ width ih =>
      have hsplit : n % 256 ^ (width + 1) = n % 256 + 256 * (n / 256 % 256 ^ width) := by
        rw [Nat.pow_succ', Nat.mod_mul (x := n) (a := 256)]
      simp only [ofNatLE_succ, toNatLE_cons, ih, UInt8.toNat_ofNat', hsplit]

theorem ofNatLE_toNatLE (bytes : Bytes) : ofNatLE bytes.length bytes.toNatLE = bytes := by
  induction bytes with
  | nil => rfl
  | cons byte rest ih =>
      have hbyte := byte.toNat_lt
      have hdiv : (byte.toNat + 256 * toNatLE rest) / 256 = toNatLE rest := by omega
      have hmod : UInt8.ofNat (byte.toNat + 256 * toNatLE rest) = byte := by
        apply UInt8.toNat_inj.mp
        simp only [UInt8.toNat_ofNat']
        omega
      simp only [List.length_cons, toNatLE_cons, ofNatLE_succ, hdiv, hmod, ih]

/-! Text is carried as UTF-8. -/

def ofString (text : String) : Bytes :=
  text.toByteArray.data.toList

def toString? (bytes : Bytes) : Option String :=
  String.fromUTF8? ⟨bytes.toArray⟩

end Bytes

end ChainClient
