import ChainClient.Proofs.Codec.Parts

/-! How far into its input reading gets, whatever value comes of it. -/

namespace ChainClient

/-- The codec gives up: it does not carry the type, or the types nest too deep for it. -/
def CodecError.IsLimit : CodecError → Prop
  | .unsupportedType .. | .recursionLimit _ => True
  | _ => False

namespace Codec

/-- What a reader leaves of its input. -/
def remainder (read : Reader β) (input : Bytes) : Except CodecError Bytes :=
  Prod.snd <$> read input

theorem remainder_eq_ok {read : Reader β} {input rest : Bytes} :
    remainder read input = .ok rest ↔ ∃ value, read input = .ok (value, rest) := by
  simp only [remainder, map_eq_ok, Prod.exists, exists_eq_right]

theorem remainder_of_error {read : Reader β} {input : Bytes} {error : CodecError}
    (h : read input = .error error) : remainder read input = .error error := by
  rw [remainder, h]
  rfl

theorem read_of_remainder_error {read : Reader β} {input : Bytes} {error : CodecError}
    (h : remainder read input = .error error) : read input = .error error := by
  unfold remainder at h
  cases hread : read input with
  | error other =>
      rw [hread] at h
      cases h
      rfl
  | ok outcome =>
      rw [hread] at h
      cases h

/-! One value after another. -/

theorem remainder_each_nil (read : TypeId → Reader Value) (input : Bytes) :
    remainder (decodeEach read []) input = .ok input := rfl

theorem remainder_each_cons (read : TypeId → Reader Value) (id : TypeId) (ids : List TypeId)
    (input : Bytes) :
    remainder (decodeEach read (id :: ids)) input =
      remainder (read id) input >>= remainder (decodeEach read ids) := by
  unfold remainder
  rw [decodeEach]
  cases hfirst : read id input with
  | error error => rfl
  | ok first =>
      simp only [ok_bind, map_ok]
      cases decodeEach read ids first.2 <;> rfl

theorem decodeEach_map {α β : Type} (read : β → Reader Value) (f : α → β) (items : List α) :
    decodeEach read (items.map f) = decodeEach (fun item => read (f item)) items := by
  induction items with
  | nil => rfl
  | cons item items ih =>
      funext input
      simp only [List.map_cons, decodeEach, ih]

theorem decodeRepeated_eq_replicate (read : TypeId → Reader Value) (length : Nat)
    (id : TypeId) :
    decodeRepeated (read id) length = decodeEach read (List.replicate length id) := by
  have hmap : (List.replicate length ()).map (fun _ => id) =
      List.replicate length id := by simp
  rw [decodeRepeated_eq, ← hmap, decodeEach_map]

/-! What is left by the types that have parts. -/

variable {registry : TypeRegistry} {budget : Nat} {id : TypeId}

theorem remainder_tuple {parts : List TypeId} (hid : registry.get? id = some (.tuple parts))
    (input : Bytes) :
    remainder (decodeWithin registry (budget + 1) id) input =
      remainder (decodeEach (decodeWithin registry budget) parts) input := by
  simp only [remainder, decodeWithin, resolve, hid, ok_bind]
  cases decodeEach (decodeWithin registry budget) parts input <;> rfl

theorem remainder_struct {fields : List Field}
    (hid : registry.get? id = some (.struct fields)) (input : Bytes) :
    remainder (decodeWithin registry (budget + 1) id) input =
      remainder (decodeEach (decodeWithin registry budget) (fields.map (·.type)))
        input := by
  rw [decodeEach_map]
  simp only [remainder, decodeWithin, resolve, hid, ok_bind]
  cases decodeEach (fun field : Field => decodeWithin registry budget field.type)
    fields input <;>
    rfl

theorem remainder_list {element : TypeId} {length? : Option Nat}
    (hid : registry.get? id = some (.list element length?))
    (hbyte : registry.isByte element = false) {input middle : Bytes} {length : Nat}
    (hlength : listLength length? input = .ok (length, middle)) :
    remainder (decodeWithin registry (budget + 1) id) input =
      remainder (decodeEach (decodeWithin registry budget) (List.replicate length element))
        middle := by
  rw [← decodeRepeated_eq_replicate]
  simp only [remainder, decodeWithin, resolve, hid, ok_bind, hbyte,
    Bool.false_eq_true, if_false, hlength]
  cases decodeRepeated (decodeWithin registry budget element) length middle <;> rfl

end Codec

end ChainClient
