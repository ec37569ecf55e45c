import ChainClient.Extrinsic.Extension
import ChainClient.Proofs.Outcome

/-! What the signed extensions contribute: each by itself, and
all of them one after another. -/

namespace ChainClient

/-! One extension.  It is filled in with at most one value of its type and at
most one of its additional type. -/

structure ExtensionValues where
  extra? : Option Value
  additional? : Option Value

/-- What an extension is filled in with, unless the nonce that it needs is missing. -/
def ExtensionKind.values? (chain : ChainState) : ExtensionKind → Option ExtensionValues
  | .checkSpecVersion => some ⟨none, some (.unsigned chain.specVersion)⟩
  | .checkTxVersion => some ⟨none, some (.unsigned chain.transactionVersion)⟩
  | .checkGenesis => some ⟨none, some chain.genesis.toValue⟩
  | .checkMortality => some ⟨some immortalEra, some chain.genesis.toValue⟩
  | .checkNonce => chain.nonce?.map fun nonce => ⟨some (.unsigned nonce), none⟩
  | .chargeTransactionPayment => some ⟨some (.unsigned 0), none⟩

theorem ExtensionKind.values?_isSome {chain : ChainState} {kind : ExtensionKind} :
    (kind.values? chain).isSome ↔ (kind = .checkNonce → chain.nonce?.isSome) := by
  cases kind <;> simp [values?]

namespace SignedExtension

variable {registry : TypeRegistry} {chain : ChainState} {extension : SignedExtension}
  {values : ExtensionValues}

def FilledBy (extension : SignedExtension) (chain : ChainState) (values : ExtensionValues) :
    Prop :=
  ∃ kind, extension.kind? = some kind ∧ kind.values? chain = some values

/-- The extension is filled in with this value, written as this type. -/
def Writes (extension : SignedExtension) (chain : ChainState) (type : TypeId)
    (value : Value) : Prop :=
  ∃ values, extension.FilledBy chain values ∧
    ((type = extension.type ∧ values.extra? = some value) ∨
      (type = extension.additional ∧ values.additional? = some value))

def encode? (registry : TypeRegistry) (extension : SignedExtension) (type : TypeId) :
    Option Value → Except ExtrinsicError Bytes
  | some value => extension.encode registry type value
  | none => .ok []

theorem contribution_of_filled (h : extension.FilledBy chain values) :
    extension.contribution registry chain = do
      let extra ← extension.encode? registry extension.type values.extra?
      let additional ← extension.encode? registry extension.additional values.additional?
      return ⟨extra, additional⟩ := by
  obtain ⟨kind, hkind, hvalues⟩ := h
  simp only [contribution, hkind]
  cases kind with
  | checkNonce =>
      obtain ⟨nonce, hnonce, rfl⟩ := Option.map_eq_some_iff.mp hvalues
      simp only [contributionOf, hnonce]
      rfl
  | _ =>
      cases hvalues
      rfl

theorem filled_of_contribution {data : ExtensionData}
    (h : extension.contribution registry chain = .ok data) :
    ∃ values, extension.FilledBy chain values := by
  unfold contribution at h
  split at h
  case h_2 => cases h
  case h_1 kind hkind =>
    cases hvalues : kind.values? chain with
    | some values => exact ⟨values, kind, hkind, hvalues⟩
    | none =>
        cases kind with
        | checkNonce =>
            have hnonce : chain.nonce? = none := Option.map_eq_none_iff.mp hvalues
            simp only [contributionOf, hnonce] at h
            cases h
        | _ => cases hvalues

theorem encode?_eq_error {type : TypeId} {value? : Option Value} {error : ExtrinsicError}
    (h : extension.encode? registry type value? = .error error) :
    ∃ value cause, value? = some value ∧ Codec.encode registry type value = .error cause ∧
      error = .extension extension.name cause := by
  cases value? with
  | none => cases h
  | some value =>
      obtain ⟨cause, hcause, rfl⟩ := mapError_eq_error.mp h
      exact ⟨value, cause, rfl, hcause, rfl⟩

theorem cause_of_contribution (hfilled : extension.FilledBy chain values)
    {error : ExtrinsicError} (h : extension.contribution registry chain = .error error) :
    ∃ type value cause, extension.Writes chain type value ∧
      Codec.encode registry type value = .error cause ∧
      error = .extension extension.name cause := by
  rw [contribution_of_filled hfilled] at h
  cases hextra : extension.encode? registry extension.type values.extra? with
  | error other =>
      rw [hextra] at h
      cases h
      obtain ⟨value, cause, hvalue, hcause, rfl⟩ := encode?_eq_error hextra
      exact ⟨_, value, cause, ⟨values, hfilled, .inl ⟨rfl, hvalue⟩⟩, hcause, rfl⟩
  | ok extra =>
      rw [hextra, ok_bind] at h
      cases hadditional :
        extension.encode? registry extension.additional values.additional? with
      | error other =>
          rw [hadditional] at h
          cases h
          obtain ⟨value, cause, hvalue, hcause, rfl⟩ := encode?_eq_error hadditional
          exact ⟨_, value, cause, ⟨values, hfilled, .inr ⟨rfl, hvalue⟩⟩, hcause, rfl⟩
      | ok additional =>
          rw [hadditional] at h
          cases h

/-- The two gates before a transaction is built let through
exactly what can be filled in. -/
theorem gates_iff {extensions : List SignedExtension} :
    signingCapable extensions = true ∧
        (requiresNonce extensions = true → chain.nonce?.isSome = true) ↔
      ∀ extension ∈ extensions, ∃ values, extension.FilledBy chain values := by
  simp only [signingCapable, requiresNonce, List.all_eq_true, List.any_eq_true,
    decide_eq_true_eq]
  constructor
  · rintro ⟨hcapable, hnonce⟩ extension hmem
    obtain ⟨kind, hkind⟩ := Option.isSome_iff_exists.mp (hcapable extension hmem)
    have hvalues : (kind.values? chain).isSome := by
      apply ExtensionKind.values?_isSome.mpr
      intro hcheck
      exact hnonce ⟨extension, hmem, hcheck ▸ hkind⟩
    obtain ⟨values, hvalues⟩ := Option.isSome_iff_exists.mp hvalues
    exact ⟨values, kind, hkind, hvalues⟩
  · intro h
    constructor
    · intro extension hmem
      obtain ⟨values, kind, hkind, -⟩ := h extension hmem
      rw [hkind]
      rfl
    · rintro ⟨extension, hmem, hcheck⟩
      obtain ⟨values, kind, hkind, hvalues⟩ := h extension hmem
      apply ExtensionKind.values?_isSome.mp (Option.isSome_of_mem hvalues)
      exact Option.some.inj (hkind.symm.trans hcheck)

end SignedExtension

/-! All extensions. -/

variable {registry : TypeRegistry} {chain : ChainState} {extensions : List SignedExtension}

theorem buildExtensions_single (registry : TypeRegistry) (chain : ChainState)
    (extension : SignedExtension) :
    buildExtensions registry chain [extension] = extension.contribution registry chain := by
  simp only [buildExtensions, ok_bind]
  cases extension.contribution registry chain with
  | error error => rfl
  | ok part => simp [ExtensionData.append, ExtensionData.empty, pure, Except.pure]

theorem buildExtensions_append (registry : TypeRegistry) (chain : ChainState)
    (extensions others : List SignedExtension) :
    buildExtensions registry chain (extensions ++ others) = do
      let first ← buildExtensions registry chain extensions
      let second ← buildExtensions registry chain others
      return first.append second := by
  induction extensions with
  | nil =>
      simp only [List.nil_append, buildExtensions, ok_bind]
      cases buildExtensions registry chain others <;> rfl
  | cons extension extensions ih =>
      simp only [List.cons_append, buildExtensions, ih]
      cases extension.contribution registry chain with
      | error error => rfl
      | ok part =>
          cases buildExtensions registry chain extensions with
          | error error => rfl
          | ok first =>
              cases buildExtensions registry chain others with
              | error error => rfl
              | ok second =>
                  simp only [ok_bind, pure, Except.pure, ExtensionData.append,
                    List.append_assoc]

theorem buildExtensions_eq (registry : TypeRegistry) (chain : ChainState)
    (extensions : List SignedExtension) :
    buildExtensions registry chain extensions =
      List.foldr ExtensionData.append .empty <$>
        extensions.mapM (SignedExtension.contribution registry chain) := by
  induction extensions with
  | nil => rfl
  | cons extension extensions ih =>
      rw [buildExtensions, List.mapM_cons, ih]
      cases extension.contribution registry chain with
      | error error => rfl
      | ok part =>
          cases extensions.mapM (SignedExtension.contribution registry chain) <;> rfl

theorem contributions_of_buildExtensions {data : ExtensionData}
    (h : buildExtensions registry chain extensions = .ok data) :
    ∀ extension ∈ extensions, ∃ part, extension.contribution registry chain = .ok part := by
  rw [buildExtensions_eq] at h
  obtain ⟨parts, hparts, -⟩ := map_eq_ok.mp h
  exact ok_of_mem_mapM hparts

theorem failure_of_buildExtensions {error : ExtrinsicError}
    (h : buildExtensions registry chain extensions = .error error) :
    ∃ extension ∈ extensions, extension.contribution registry chain = .error error := by
  rw [buildExtensions_eq] at h
  exact error_of_mapM (map_eq_error.mp h)

/-- The contributions stand one after another in declaration order, and the first that fails
fails them all.  They can be made only of extensions that pass the two gates, and of these
only the codec can keep them from being made. -/
theorem buildExtensions_in_order (registry : TypeRegistry) (chain : ChainState)
    (extensions others : List SignedExtension) :
    (∀ extension, buildExtensions registry chain [extension] =
      extension.contribution registry chain) ∧
    (∀ first second, buildExtensions registry chain extensions = .ok first →
      buildExtensions registry chain others = .ok second →
        buildExtensions registry chain (extensions ++ others) =
          .ok ⟨first.extra ++ second.extra, first.additional ++ second.additional⟩) ∧
    (∀ error, buildExtensions registry chain extensions = .error error →
      buildExtensions registry chain (extensions ++ others) = .error error) ∧
    (∀ first error, buildExtensions registry chain extensions = .ok first →
      buildExtensions registry chain others = .error error →
        buildExtensions registry chain (extensions ++ others) = .error error) ∧
    (∀ data, buildExtensions registry chain extensions = .ok data →
      signingCapable extensions = true ∧
        (requiresNonce extensions = true → ∃ nonce, chain.nonce? = some nonce)) ∧
    (signingCapable extensions = true →
      requiresNonce extensions = false ∨ (∃ nonce, chain.nonce? = some nonce) →
        ∀ error, buildExtensions registry chain extensions = .error error →
          ∃ extension ∈ extensions, ∃ type value cause, extension.Writes chain type value ∧
            Codec.encode registry type value = .error cause ∧
            error = .extension extension.name cause) := by
  refine ⟨buildExtensions_single registry chain, ?_, ?_, ?_, ?_, ?_⟩
  · intro first second hfirst hsecond
    rw [buildExtensions_append, hfirst, hsecond]
    rfl
  · intro error herror
    rw [buildExtensions_append, herror]
    rfl
  · intro first error hfirst herror
    rw [buildExtensions_append, hfirst, herror]
    rfl
  · intro data hdata
    rw [← Option.isSome_iff_exists]
    apply SignedExtension.gates_iff.mpr
    intro extension hmem
    obtain ⟨part, hpart⟩ := contributions_of_buildExtensions hdata extension hmem
    exact SignedExtension.filled_of_contribution hpart
  · intro hcapable hnonce error herror
    have hgiven : requiresNonce extensions = true → chain.nonce?.isSome = true := by
      intro hrequired
      apply Option.isSome_iff_exists.mpr
      exact hnonce.resolve_left (by simp [hrequired])
    obtain ⟨extension, hmem, hfails⟩ := failure_of_buildExtensions herror
    obtain ⟨values, hvalues⟩ :=
      SignedExtension.gates_iff.mp ⟨hcapable, hgiven⟩ extension hmem
    exact ⟨extension, hmem, SignedExtension.cause_of_contribution hvalues hfails⟩

/-- Unsigned integers, compact or not, and the empty tuple. -/
def versionRegistry : TypeRegistry :=
  ⟨[(0, .primitive (.unsigned 32)), (1, .tuple []), (2, .compact 0)]⟩

def versionExtensions : List SignedExtension :=
  [⟨"CheckTxVersion", 1, 0⟩, ⟨"CheckNonce", 2, 1⟩]

/-- The genesis hash is no integer. -/
def misdeclaredExtensions : List SignedExtension :=
  [⟨"CheckSpecVersion", 1, 0⟩, ⟨"CheckGenesis", 1, 0⟩]

def versionState : ChainState where
  specVersion := 9
  transactionVersion := 2
  genesis := ⟨Vector.replicate 32 7⟩
  nonce? := some 300

theorem buildExtensions_in_order_versions :
    buildExtensions versionRegistry versionState versionExtensions =
      .ok ⟨[0xb1, 0x04], [2, 0, 0, 0]⟩ ∧
    buildExtensions versionRegistry versionState (versionExtensions ++ versionExtensions) =
      .ok ⟨[0xb1, 0x04, 0xb1, 0x04], [2, 0, 0, 0, 2, 0, 0, 0]⟩ ∧
    buildExtensions versionRegistry versionState misdeclaredExtensions =
      .error (.extension "CheckGenesis" (.encodingMismatch 0 "u32" "string")) ∧
    buildExtensions versionRegistry versionState
      (versionExtensions ++ misdeclaredExtensions) =
      .error (.extension "CheckGenesis" (.encodingMismatch 0 "u32" "string")) ∧
    buildExtensions versionRegistry versionState
      (misdeclaredExtensions ++ versionExtensions) =
      .error (.extension "CheckGenesis" (.encodingMismatch 0 "u32" "string")) ∧
    requiresNonce versionExtensions = true ∧
    (∃ nonce, versionState.nonce? = some nonce) ∧
    signingCapable misdeclaredExtensions = true ∧
    requiresNonce misdeclaredExtensions = false ∧
    ∃ extension ∈ misdeclaredExtensions, ∃ type value cause,
      extension.Writes versionState type value ∧
        Codec.encode versionRegistry type value = .error cause ∧
        ExtrinsicError.extension "CheckGenesis" (.encodingMismatch 0 "u32" "string") =
          .extension extension.name cause := by
  have hversions : buildExtensions versionRegistry versionState versionExtensions =
      .ok ⟨[0xb1, 0x04], [2, 0, 0, 0]⟩ := rfl
  have hmisdeclared : buildExtensions versionRegistry versionState misdeclaredExtensions =
      .error (.extension "CheckGenesis" (.encodingMismatch 0 "u32" "string")) := rfl
  have hrequired : requiresNonce versionExtensions = true := by decide
  have hcapable : signingCapable misdeclaredExtensions = true := by decide
  have hnonceless : requiresNonce misdeclaredExtensions = false := by decide
  obtain ⟨-, htwice, -⟩ :=
    buildExtensions_in_order versionRegistry versionState versionExtensions
      versionExtensions
  obtain ⟨-, -, -, hsecond, hgates, -⟩ :=
    buildExtensions_in_order versionRegistry versionState versionExtensions
      misdeclaredExtensions
  obtain ⟨-, -, hfirst, -, -, hcause⟩ :=
    buildExtensions_in_order versionRegistry versionState misdeclaredExtensions
      versionExtensions
  exact ⟨hversions, htwice _ _ hversions hversions, hmisdeclared,
    hsecond _ _ hversions hmisdeclared, hfirst _ hmisdeclared, hrequired,
    (hgates _ hversions).2 hrequired, hcapable, hnonceless,
    hcause hcapable (.inl hnonceless) _ hmisdeclared⟩

end ChainClient
