import BoingObserver.Js.Value

/-!
# The payload catalog

`tx-payload-catalog.ts`: the payload variants of the SDK and how a tagged key
names one.  A key of the catalog is found as it stands or in another letter case,
in PascalCase or snake_case; a key every object inherits is found too, and names
no variant (`TxPayloadKind.inherited`).
-/

namespace BoingObserver.Payload

open Js

/-- The keys of `PayloadVariant`. -/
inductive PayloadVariant
  | transfer
  | contractCall
  | contractDeploy
  | contractDeployWithPurpose
  | contractDeployWithPurposeAndMetadata
  | bond
  | unbond
  | claimUnbond
  | qaPoolVote
  | batch
  | validatorRegister
  | validatorDeregister
  | validatorUnjail
  | nameCommit
  | nameRegister
  | nameRenew
  | nameTransfer
  | nameSetTarget
  | nameSetPrimary
  | nameRelease
  | contractCallWithValue
  | putBlob
  | blobAnnounce
  | renewMediaBlobPin
  | payBlobSample
  | registerBlobSampleOffer
  | settleBlobSampleMatch
  | cancelBlobSampleOffer
  | challengeBlobSampleServe
  | respondBlobSampleServe
  | submitSlashAppeal
  | resolveSlashAppeal
  | resolveSlashAppealAttested
  | resolveSlashAppealBlsAggregate
  | grantBlobDownload
  | revokeBlobDownload
  deriving DecidableEq

/-- A display kind; `inherited` is what an inherited property of the catalog stands for. -/
inductive TxPayloadKind
  | known (variant : PayloadVariant)
  | inherited
  | unknown
  deriving DecidableEq

def PayloadVariant.name : PayloadVariant → Text
  | .transfer => "Transfer"
  | .contractCall => "ContractCall"
  | .contractDeploy => "ContractDeploy"
  | .contractDeployWithPurpose => "ContractDeployWithPurpose"
  | .contractDeployWithPurposeAndMetadata => "ContractDeployWithPurposeAndMetadata"
  | .bond => "Bond"
  | .unbond => "Unbond"
  | .claimUnbond => "ClaimUnbond"
  | .qaPoolVote => "QaPoolVote"
  | .batch => "Batch"
  | .validatorRegister => "ValidatorRegister"
  | .validatorDeregister => "ValidatorDeregister"
  | .validatorUnjail => "ValidatorUnjail"
  | .nameCommit => "NameCommit"
  | .nameRegister => "NameRegister"
  | .nameRenew => "NameRenew"
  | .nameTransfer => "NameTransfer"
  | .nameSetTarget => "NameSetTarget"
  | .nameSetPrimary => "NameSetPrimary"
  | .nameRelease => "NameRelease"
  | .contractCallWithValue => "ContractCallWithValue"
  | .putBlob => "PutBlob"
  | .blobAnnounce => "BlobAnnounce"
  | .renewMediaBlobPin => "RenewMediaBlobPin"
  | .payBlobSample => "PayBlobSample"
  | .registerBlobSampleOffer => "RegisterBlobSampleOffer"
  | .settleBlobSampleMatch => "SettleBlobSampleMatch"
  | .cancelBlobSampleOffer => "CancelBlobSampleOffer"
  | .challengeBlobSampleServe => "ChallengeBlobSampleServe"
  | .respondBlobSampleServe => "RespondBlobSampleServe"
  | .submitSlashAppeal => "SubmitSlashAppeal"
  | .resolveSlashAppeal => "ResolveSlashAppeal"
  | .resolveSlashAppealAttested => "ResolveSlashAppealAttested"
  | .resolveSlashAppealBlsAggregate => "ResolveSlashAppealBlsAggregate"
  | .grantBlobDownload => "GrantBlobDownload"
  | .revokeBlobDownload => "RevokeBlobDownload"

def commonVariants : List PayloadVariant :=
  [.transfer, .contractCall, .contractDeploy, .contractDeployWithPurpose,
    .contractDeployWithPurposeAndMetadata, .bond, .unbond, .claimUnbond, .qaPoolVote, .batch,
    .validatorRegister, .validatorDeregister, .validatorUnjail, .nameCommit, .nameRegister,
    .nameRenew, .nameTransfer, .nameSetTarget]

def laterVariants : List PayloadVariant :=
  [.nameSetPrimary, .nameRelease, .contractCallWithValue, .putBlob, .blobAnnounce,
    .renewMediaBlobPin, .payBlobSample, .registerBlobSampleOffer, .settleBlobSampleMatch,
    .cancelBlobSampleOffer, .challengeBlobSampleServe, .respondBlobSampleServe,
    .submitSlashAppeal, .resolveSlashAppeal, .resolveSlashAppealAttested,
    .resolveSlashAppealBlsAggregate, .grantBlobDownload, .revokeBlobDownload]

/-- `Object.entries(PayloadVariant)` -/
def payloadVariants : List (Text × PayloadVariant) :=
  (commonVariants ++ laterVariants).map fun v => (v.name, v)

/-- `ContractCallWithValue` folds into `ContractCall`. -/
def displayKindForVariant (name : PayloadVariant) : PayloadVariant :=
  if name = .contractCallWithValue then .contractCall else name

/-- `snakeCase(pascal)`, with the letter before the rest: a `_` goes before a capital that follows
a small letter or a digit, and before the last of several capitals that a small letter follows. -/
def snakeFrom (before : Option Char) : Text → Text
  | [] => []
  | c :: s =>
    let small := before.any fun b => b.isLower || b.isDigit
    let last := before.any Char.isUpper && s.head?.any Char.isLower
    if c.isUpper ∧ (small ∨ last) then '_' :: c :: snakeFrom (some c) s
    else c :: snakeFrom (some c) s

def snakeCase (pascal : Text) : Text := toLowerCase (snakeFrom none pascal)

/-- Tagged JSON keys (PascalCase and snake_case) with their display kinds. -/
def taggedPayloadKindByKey : List (Text × PayloadVariant) :=
  payloadVariants.flatMap (fun e =>
      [(e.1, displayKindForVariant e.2), (snakeCase e.1, displayKindForVariant e.2)]) ++
    [(("claim_unbond" : Text), PayloadVariant.claimUnbond), ("qa_pool_vote", .qaPoolVote)]

def resolveTaggedPayloadKind (key : Text) : Option TxPayloadKind :=
  match recordGet taggedPayloadKindByKey key with
  | .own kind => some (.known kind)
  | .inherited => some .inherited
  | .absent =>
    (taggedPayloadKindByKey.find? fun e => toLowerCase e.1 = toLowerCase key).map fun e =>
      .known e.2

/-- **Every variant is found by its name**, in PascalCase and in snake_case, as its display kind. -/
theorem resolve_payloadVariants : ∀ e ∈ payloadVariants,
    resolveTaggedPayloadKind e.1 = some (.known (displayKindForVariant e.2)) ∧
      resolveTaggedPayloadKind (snakeCase e.1) = some (.known (displayKindForVariant e.2)) := by
  decide +kernel

/-- The fields of transfers, calls and batches, and the field `kind`, are no tags. -/
theorem field_not_tag : ∀ k ∈ (["to", "contract", "calldata", "calls", "kind"] : List Text),
    resolveTaggedPayloadKind k = none := by
  decide +kernel

end BoingObserver.Payload
