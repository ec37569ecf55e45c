import ChainClient.Proofs.Codec.RoundTrip
import ChainClient.Proofs.Extrinsic.Contributions

/-! The signed extensions of a transaction, as the runtime reads them: a value of each
declared type, one after another, and nothing after the last. -/

namespace ChainClient

open Codec

/-- The input is a value of each type in turn, each where the one before it stopped. -/
def TypeRegistry.ReadsBack (registry : TypeRegistry) : List TypeId → Bytes → Prop
  | [], input => input = []
  | id :: ids, input =>
      ∃ value count, decode registry id input = .ok (value, count) ∧
        registry.ReadsBack ids (input.drop count)

/-- The bytes are read as one value whatever follows them. -/
def TypeRegistry.Delimits (registry : TypeRegistry) (id : TypeId)
    (written : Bytes) : Prop :=
  ∃ value, Reads (decodeWithin registry maxDepth id) written value

variable {registry : TypeRegistry} {id : TypeId} {ids : List TypeId} {written input : Bytes}

theorem readsBack_cons (h : registry.Delimits id written)
    (hothers : registry.ReadsBack ids input) :
    registry.ReadsBack (id :: ids) (written ++ input) := by
  obtain ⟨value, hreads⟩ := h
  refine ⟨value, written.length, decode_of_reads hreads input, ?_⟩
  rwa [List.drop_left]

theorem delimits_unit (hid : registry.get? id = some (.tuple [])) :
    registry.Delimits id [] :=
  ⟨.sequence [], tuple_reads hid (each_reads_nil _)⟩

namespace SignedExtension

/-- What an extension contributes nothing to is declared as the empty tuple. -/
def DeclaresUnits (registry : TypeRegistry) (extension : SignedExtension) : Prop :=
  match extension.kind? with
  | some .checkSpecVersion | some .checkTxVersion | some .checkGenesis =>
      registry.get? extension.type = some (.tuple [])
  | some .checkNonce | some .chargeTransactionPayment =>
      registry.get? extension.additional = some (.tuple [])
  | some .checkMortality | none => True

instance (registry : TypeRegistry) (extension : SignedExtension) :
    Decidable (extension.DeclaresUnits registry) := by
  unfold DeclaresUnits
  split <;> infer_instance

variable {chain : ChainState} {extension : SignedExtension} {data : ExtensionData}

theorem delimits_of_encode? (hindices : registry.DistinctVariantIndices)
    {value? : Option Value} (hunit : value? = none → registry.get? id = some (.tuple []))
    (h : extension.encode? registry id value? = .ok written) :
    registry.Delimits id written := by
  cases value? with
  | none =>
      cases h
      exact delimits_unit (hunit rfl)
  | some value =>
      obtain ⟨settled, hreads, -⟩ :=
        settles_within hindices maxDepth id (mapError_eq_ok.mp h)
      exact ⟨settled, hreads⟩

theorem units_of_filled {values : ExtensionValues}
    (hunits : extension.DeclaresUnits registry)
    (hfilled : extension.FilledBy chain values) :
    (values.extra? = none → registry.get? extension.type = some (.tuple [])) ∧
      (values.additional? = none →
        registry.get? extension.additional = some (.tuple [])) := by
  obtain ⟨kind, hkind, hvalues⟩ := hfilled
  unfold DeclaresUnits at hunits
  rw [hkind] at hunits
  cases kind with
  | checkSpecVersion | checkTxVersion | checkGenesis =>
      cases hvalues
      exact ⟨fun _ => hunits, nofun⟩
  | checkMortality =>
      cases hvalues
      exact ⟨nofun, nofun⟩
  | checkNonce =>
      obtain ⟨nonce, -, rfl⟩ := Option.map_eq_some_iff.mp hvalues
      exact ⟨nofun, fun _ => hunits⟩
  | chargeTransactionPayment =>
      cases hvalues
      exact ⟨nofun, fun _ => hunits⟩

theorem delimits_contribution (hindices : registry.DistinctVariantIndices)
    (hunits : extension.DeclaresUnits registry)
    (h : extension.contribution registry chain = .ok data) :
    registry.Delimits extension.type data.extra ∧
      registry.Delimits extension.additional data.additional := by
  obtain ⟨values, hfilled⟩ := filled_of_contribution h
  obtain ⟨hextraUnit, hadditionalUnit⟩ := units_of_filled hunits hfilled
  rw [contribution_of_filled hfilled] at h
  obtain ⟨extra, hextra, h⟩ := bind_eq_ok.mp h
  obtain ⟨additional, hadditional, h⟩ := bind_eq_ok.mp h
  cases h
  exact ⟨delimits_of_encode? hindices hextraUnit hextra,
    delimits_of_encode? hindices hadditionalUnit hadditional⟩

end SignedExtension

/-- What the extensions contribute is read back type by type, to the last byte. -/
theorem readsBack_of_buildExtensions (hindices : registry.DistinctVariantIndices)
    {chain : ChainState} {extensions : List SignedExtension} {data : ExtensionData}
    (hunits : ∀ extension ∈ extensions, extension.DeclaresUnits registry)
    (h : buildExtensions registry chain extensions = .ok data) :
    registry.ReadsBack (extensions.map (·.type)) data.extra ∧
      registry.ReadsBack (extensions.map (·.additional)) data.additional := by
  induction extensions generalizing data with
  | nil =>
      cases h
      exact ⟨rfl, rfl⟩
  | cons extension extensions ih =>
      obtain ⟨first, hfirst, h⟩ := bind_eq_ok.mp h
      obtain ⟨others, hothers, h⟩ := bind_eq_ok.mp h
      cases h
      rw [List.forall_mem_cons] at hunits
      obtain ⟨hextra, hadditional⟩ :=
        SignedExtension.delimits_contribution hindices hunits.1 hfirst
      obtain ⟨hextras, hadditionals⟩ := ih hunits.2 hothers
      exact ⟨readsBack_cons hextra hextras, readsBack_cons hadditional hadditionals⟩

/-- Unsigned integers, compact or not, hashes, eras, and the empty tuple. -/
def paymentRegistry : TypeRegistry :=
  ⟨[(0, .primitive (.unsigned 32)), (1, .tuple []), (2, .compact 0), (3, .primitive .u8),
    (4, .list 3 (some 32)),
    (5, .enum "Era" [⟨0, "Immortal", []⟩, ⟨1, "Mortal1", [⟨none, 3⟩]⟩])]⟩

def paymentExtensions : List SignedExtension :=
  [⟨"CheckNonce", 2, 1⟩, ⟨"CheckSpecVersion", 1, 0⟩, ⟨"CheckMortality", 5, 4⟩,
    ⟨"ChargeTransactionPayment", 2, 1⟩, ⟨"CheckGenesis", 1, 4⟩]

def paymentState : ChainState where
  specVersion := 9
  transactionVersion := 2
  genesis := ⟨Vector.replicate 32 7⟩
  nonce? := some 300

def paymentData : ExtensionData where
  extra := [0xb1, 0x04, 0, 0]
  additional := [9, 0, 0, 0] ++ List.replicate 64 7

theorem readsBack_of_buildExtensions_payment :
    paymentRegistry.DistinctVariantIndices ∧
      (∀ extension ∈ paymentExtensions, extension.DeclaresUnits paymentRegistry) ∧
      buildExtensions paymentRegistry paymentState paymentExtensions = .ok paymentData ∧
      paymentRegistry.ReadsBack [2, 1, 5, 2, 1] [0xb1, 0x04, 0, 0] ∧
      paymentRegistry.ReadsBack [1, 0, 4, 1, 4] ([9, 0, 0, 0] ++ List.replicate 64 7) := by
  have hindices : paymentRegistry.DistinctVariantIndices := by decide
  have hunits : ∀ extension ∈ paymentExtensions,
      extension.DeclaresUnits paymentRegistry := by
    decide
  have hbuild : buildExtensions paymentRegistry paymentState paymentExtensions =
      .ok paymentData := ok_of_toOption (by decide +kernel)
  exact ⟨hindices, hunits, hbuild, readsBack_of_buildExtensions hindices hunits hbuild⟩

end ChainClient
