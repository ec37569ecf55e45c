import ChainClient.Extrinsic.Basic
import ChainClient.Proofs.Codec.Compact
import ChainClient.Proofs.Outcome

/-! What the signer of a transaction is asked for, and what a node can tell from
the bytes that it gets.  Both see the call and the extra bytes, and only the
signer sees the additional ones. -/

namespace ChainClient

namespace Codec

theorem split?_append {raw : Bytes} {count : Nat} (h : raw.length = count) (rest : Bytes) :
    split? count (raw ++ rest) = some (raw, rest) := by
  subst h
  simp [split?_eq]

end Codec

/-- The parts of a signed transaction, as they are told apart by their places. -/
structure Received where
  signer : Bytes
  signature : Bytes
  /-- What was signed and sent: the extra bytes, and after them the call. -/
  content : Bytes
  deriving DecidableEq

namespace Received

def ofBody? (body : Bytes) : Option Received := do
  let (marks, rest) ← Codec.split? 2 body
  let (signer, rest) ← Codec.split? 32 rest
  let (mark, rest) ← Codec.split? 1 rest
  let (signature, content) ← Codec.split? 64 rest
  if marks = [0x84, 0x00] ∧ mark = [0x01] then some ⟨signer, signature, content⟩ else none

/-- Reads the length, and then a body of this length. -/
def ofBytes? (wire : Bytes) : Option Received := do
  let (length, body) ← (Codec.decodeCompact wire).toOption
  if length = body.length then ofBody? body else none

end Received

namespace Extrinsic

variable (extrinsic : Extrinsic)

@[simp] theorem length_body :
    extrinsic.body.length = 99 + extrinsic.extra.length + extrinsic.call.length := by
  simp [body]
  omega

/-- The signature stands between what comes before it and what comes after it, and
neither of these depends on it. -/
theorem body_eq :
    extrinsic.body =
      ([0x84, 0x00] ++ extrinsic.signer.toList ++ [0x01]) ++ extrinsic.signature.toList ++
        (extrinsic.extra ++ extrinsic.call) := by
  simp [body, signedVersion, accountMark, signatureMark]

theorem ofBody?_body :
    Received.ofBody? extrinsic.body =
      some ⟨extrinsic.signer.toList, extrinsic.signature.toList,
        extrinsic.extra ++ extrinsic.call⟩ := by
  have hmarks : ([0x84, 0x00] : Bytes).length = 2 := rfl
  have hsigner : extrinsic.signer.toList.length = 32 := by simp
  have hmark : ([0x01] : Bytes).length = 1 := rfl
  have hsignature : extrinsic.signature.toList.length = 64 := by simp
  rw [body_eq]
  simp only [List.append_assoc, Received.ofBody?, bind, Option.bind,
    Codec.split?_append hmarks, Codec.split?_append hsigner, Codec.split?_append hmark,
    Codec.split?_append hsignature, and_self, if_true]

theorem toBytes_eq_ok {wire : Bytes} :
    extrinsic.toBytes = .ok wire ↔
      ∃ length, Codec.encodeCompact extrinsic.body.length = .ok length ∧
        length ++ extrinsic.body = wire := by
  rw [toBytes, bind_eq_ok]
  simp only [pure, Except.pure, Except.ok.injEq]

theorem toBytes_of_limit_le (h : Codec.compactLimit ≤ extrinsic.body.length) :
    extrinsic.toBytes = .error (.compactOutOfRange extrinsic.body.length) := by
  rw [toBytes, Codec.encodeCompact_of_limit_le h]
  rfl

/-- Only a body that is too long for its length to be written is refused. -/
theorem toBytes_eq_error {error : CodecError} :
    extrinsic.toBytes = .error error ↔
      Codec.compactLimit ≤ extrinsic.body.length ∧
        error = .compactOutOfRange extrinsic.body.length := by
  constructor
  · intro h
    by_cases hlimit : extrinsic.body.length < Codec.compactLimit
    · obtain ⟨mode, hshortest⟩ := Codec.CompactMode.exists_shortest hlimit
      have hwire := (toBytes_eq_ok extrinsic).mpr
        ⟨_, Codec.encodeCompact_of_shortest hshortest, rfl⟩
      rw [hwire] at h
      cases h
    · have hlarge := Nat.le_of_not_lt hlimit
      rw [toBytes_of_limit_le extrinsic hlarge] at h
      exact ⟨hlarge, (Except.error.inj h).symm⟩
  · rintro ⟨hlarge, rfl⟩
    exact toBytes_of_limit_le extrinsic hlarge

theorem decodeCompact_of_toBytes {wire : Bytes} (h : extrinsic.toBytes = .ok wire) :
    Codec.decodeCompact wire = .ok (extrinsic.body.length, extrinsic.body) := by
  obtain ⟨length, hlength, rfl⟩ := (toBytes_eq_ok extrinsic).mp h
  exact Codec.encodeCompact_reads hlength extrinsic.body

/-- Transactions that differ in the signature alone do so on the wire. -/
theorem toBytes_of_signature {wire : Bytes} (h : extrinsic.toBytes = .ok wire) :
    ∃ before after, ∀ signature,
      { extrinsic with signature }.toBytes = .ok (before ++ signature.toList ++ after) := by
  obtain ⟨length, hlength, -⟩ := (toBytes_eq_ok extrinsic).mp h
  refine ⟨length ++ ([0x84, 0x00] ++ extrinsic.signer.toList ++ [0x01]),
    extrinsic.extra ++ extrinsic.call, fun signature => ?_⟩
  rw [toBytes_eq_ok]
  refine ⟨length, ?_, ?_⟩
  · rw [length_body] at hlength ⊢
    exact hlength
  · rw [body_eq]
    simp only [List.append_assoc]

/-! Signing. -/

variable (signer : Signer) (hasher : Hasher) (call : Bytes) (data : ExtensionData)

/-- Whoever signs is asked once, and keeps what they keep of one answer. -/
theorem signBy_run {Kept : Type} (ask : Bytes → StateM Kept (Vector UInt8 64))
    (kept : Kept) :
    (signBy signer.publicKey ask hasher call data).run kept =
      ((ask (signedMessage hasher (signingPayload call data))).run kept).map
        (fun signature => ⟨call, data.extra, signer.publicKey, signature⟩) id := rfl

theorem sign_eq :
    sign signer hasher call data =
      ⟨call, data.extra, signer.publicKey,
        signer.sign (signedMessage hasher (signingPayload call data))⟩ := rfl

theorem signBy_recorded (asked : List Bytes) :
    (signBy signer.publicKey signer.recorded hasher call data).run asked =
      (sign signer hasher call data,
        asked ++ [signedMessage hasher (signingPayload call data)]) := by
  rw [signBy_run, sign_eq]
  rfl

/-- A payload of up to 256 bytes is signed as it is, and its hash
in the place of a longer one. -/
theorem signedMessage_eq {payload : Bytes}
    (h : payload = call ++ data.extra ++ data.additional) :
    signedMessage hasher (signingPayload call data) =
      if payload.length ≤ 256 then payload else (hasher.blake2_256 payload).toList := by
  rw [signingPayload, ← h, signedMessage, maxPayloadLength]
  by_cases hlength : payload.length ≤ 256
  · rw [if_pos hlength, if_neg (by omega)]
  · rw [if_neg hlength, if_pos (by omega)]

/-- What is signed of a call, and what of it is sent. -/
structure SignedAndSent : Prop where
  /-- One signature is asked for. -/
  asked : ∀ payload, payload = call ++ data.extra ++ data.additional →
    (signBy signer.publicKey signer.recorded hasher call data).run [] =
      (sign signer hasher call data,
        [if payload.length ≤ 256 then payload else (hasher.blake2_256 payload).toList])
  /-- The answer is the signature. -/
  answered : ∀ payload, payload = call ++ data.extra ++ data.additional →
    (sign signer hasher call data).signature =
      signer.sign
        (if payload.length ≤ 256 then payload else (hasher.blake2_256 payload).toList)
  /-- The same holds of whoever draws signatures at random, or keeps a record of them. -/
  drawn : ∀ (Kept : Type) (ask : Bytes → StateM Kept (Vector UInt8 64)) (kept : Kept),
    ∀ payload, payload = call ++ data.extra ++ data.additional →
      (signBy signer.publicKey ask hasher call data).run kept =
        ((ask (if payload.length ≤ 256 then payload
            else (hasher.blake2_256 payload).toList)).run kept).map
          (fun signature => ⟨call, data.extra, signer.publicKey, signature⟩) id
  refused : ∀ error, (sign signer hasher call data).toBytes = .error error ↔
    2 ^ 30 ≤ 99 + data.extra.length + call.length ∧
      error = .compactOutOfRange (99 + data.extra.length + call.length)
  sent : ∀ wire, (sign signer hasher call data).toBytes = .ok wire →
    ∃ body, Codec.decodeCompact wire = .ok (body.length, body) ∧
      body = [0x84, 0x00] ++ signer.publicKey.toList ++ [0x01] ++
        (sign signer hasher call data).signature.toList ++ data.extra ++ call
  received : ∀ wire, (sign signer hasher call data).toBytes = .ok wire →
    Received.ofBytes? wire =
      some ⟨signer.publicKey.toList, (sign signer hasher call data).signature.toList,
        data.extra ++ call⟩
  /-- The additional bytes show in the signature and nowhere else. -/
  unsent : ∀ wire, (sign signer hasher call data).toBytes = .ok wire →
    ∃ before after, ∀ additional,
      (sign signer hasher call ⟨data.extra, additional⟩).toBytes =
        .ok (before ++
          (sign signer hasher call ⟨data.extra, additional⟩).signature.toList ++ after)

theorem signedAndSent : SignedAndSent signer hasher call data where
  asked payload hpayload := by
    rw [signBy_recorded, signedMessage_eq hasher call data hpayload, List.nil_append]
  answered payload hpayload := by
    rw [sign_eq, signedMessage_eq hasher call data hpayload]
  drawn Kept ask kept payload hpayload := by
    rw [signBy_run, signedMessage_eq hasher call data hpayload]
  refused error := by
    rw [toBytes_eq_error, length_body]
    rfl
  sent wire hwire := by
    refine ⟨_, decodeCompact_of_toBytes _ hwire, ?_⟩
    rw [body_eq]
    simp only [List.append_assoc]
    rfl
  received wire hwire := by
    simp only [Received.ofBytes?, decodeCompact_of_toBytes _ hwire, Except.toOption, bind,
      Option.bind, if_true, ofBody?_body]
    rfl
  unsent wire hwire := by
    obtain ⟨before, after, hsignature⟩ := toBytes_of_signature _ hwire
    exact ⟨before, after, fun additional => hsignature _⟩

/-! A call of five bytes with three extra bytes, and as many additional bytes as make the
payload 256 bytes long, or one more. -/

/-- Signs with the first byte of the message. -/
def firstByteSigner : Signer where
  publicKey := Vector.replicate 32 0xaa
  sign message := Vector.replicate 64 (message.headD 0)
  address _ := ""

/-- Its digests of 32 bytes repeat the last byte of the message. -/
def lastByteHasher : Hasher :=
  { Hasher.standard with
    blake2_256 := fun message => Vector.replicate 32 (message.getLastD 0) }

def fiveByteCall : Bytes := [4, 0, 1, 2, 3]

def padded (count : Nat) : ExtensionData := ⟨[0x00, 0x14, 0x00], List.replicate count 0x99⟩

/-- The transaction as it is sent, all bytes of the signature being one. -/
def wireSignedWith (byte : UInt8) : Bytes :=
  [0xad, 0x01, 0x84, 0x00] ++ List.replicate 32 0xaa ++ [0x01] ++ List.replicate 64 byte ++
    [0x00, 0x14, 0x00] ++ fiveByteCall

/-- The shorter payload is signed as it is, and begins as the call does.  Of the longer one
the digest is signed, which has its last byte. -/
theorem signedAndSent_at_length_limit :
    (sign firstByteSigner lastByteHasher fiveByteCall (padded 248)).toBytes =
        .ok (wireSignedWith 4) ∧
      (sign firstByteSigner lastByteHasher fiveByteCall (padded 249)).toBytes =
        .ok (wireSignedWith 0x99) ∧
      SignedAndSent firstByteSigner lastByteHasher fiveByteCall (padded 248) ∧
      SignedAndSent firstByteSigner lastByteHasher fiveByteCall (padded 249) :=
  ⟨ok_of_toOption (by decide +kernel), ok_of_toOption (by decide +kernel),
    signedAndSent firstByteSigner lastByteHasher fiveByteCall (padded 248),
    signedAndSent firstByteSigner lastByteHasher fiveByteCall (padded 249)⟩

end Extrinsic

end ChainClient
