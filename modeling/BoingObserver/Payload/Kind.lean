import BoingObserver.Payload.Catalog
import Mathlib.Data.List.Sort

/-!
# Payload kinds

`unwrapTaggedPayload` and `getTxPayloadKind` of `tx-payload.ts`: an externally
tagged payload is unwrapped by its one key; a flat one is recognised by the
fields it has.
-/

namespace BoingObserver.Payload

open Js

abbrev Fields : Type := List (Text × Value)

/-- `k in p` for a key that no prototype has. -/
def Fields.has (p : Fields) (k : Text) : Bool := (p.lookup k).isSome

/-- `p[k]` for a key that no prototype has. -/
def Fields.get (p : Fields) (k : Text) : Value := (p.lookup k).getD .undefined

/-- The inner record of a payload (after unwrapping a one-key tagged payload) and the tag. -/
def unwrapTaggedPayload (payload : Value) : Fields × Option TxPayloadKind :=
  match payload with
  | .string s => ([], resolveTaggedPayloadKind s)
  | .object [(key, val)] =>
    match resolveTaggedPayloadKind key, val with
    | none, _ => ([(key, val)], none)
    | some kind, .object inner => (inner, some kind)
    | some kind, _ => ([], some kind)
  | .object p => (p, none)
  | _ => ([], none)

def getTxPayloadInner (payload : Value) : Fields := (unwrapTaggedPayload payload).1

/-- `Object.keys(p).sort().join(",")` -/
def sortedKeys (p : Fields) : Text :=
  (((p.map Prod.fst).insertionSort fun a b => textLe a b).intersperse [',']).flatten

/-- The name registry payloads; release and primary need a tag or a `kind`. -/
def nameKindFlat (p : Fields) : Option PayloadVariant :=
  let has := p.has
  if has "name" && has "salt" && has "target" && has "years" then some .nameRegister
  else if has "name" && has "years" && !has "salt" && !has "target" && !has "new_owner" then
    some .nameRenew
  else if has "name" && has "new_owner" then some .nameTransfer
  else if has "name" && has "target" && !has "salt" && !has "years" then some .nameSetTarget
  else if has "commitment" && !has "name" && !has "to" && !has "amount" then some .nameCommit
  else if has "node_id" || has "nodeId" then
    if has "node_signature" || has "nodeSignature" then some .validatorRegister
    else some .validatorDeregister
  else none

/-- Payloads with an `amount` and no `to`. -/
def stakeKindFlat (p : Fields) : Option PayloadVariant :=
  let has := p.has
  if has "amount" && p.length ≤ 2 && !has "to" then
    if sortedKeys p = "amount" ∨ sortedKeys p = "amount,unbond" ∨ sortedKeys p = "unbond,amount"
    then some .unbond else some .bond
  else if has "amount" && !has "to" && !has "contract" then some .unbond
  else if has "amount" && !has "to" then some .bond
  else if (has "subject" || has "subject_hex") && has "vote" then some .qaPoolVote
  else
    match p.get "kind" with
    | .string s => if s = "claim_unbond" ∨ s = "ClaimUnbond" then some .claimUnbond else none
    | _ => none

def isText : Value → Bool
  | .string _ => true
  | _ => false

def isNumber : Value → Bool
  | .number _ => true
  | _ => false

def blobKindFlat (p : Fields) : Option PayloadVariant :=
  let has := p.has
  let blob : Option PayloadVariant :=
    if has "blob_id" || has "blobId" then
      if has "extend_blocks" || has "extendBlocks" then some .renewMediaBlobPin
      else if has "ask_fee" || has "askFee" then some .registerBlobSampleOffer
      else if has "siblings" then some .respondBlobSampleServe
      else if has "challenger" then some .respondBlobSampleServe
      else if has "provider" && (has "chunk_count" || has "chunkCount") then
        if has "chunk_hash" || has "chunkHash" then some .respondBlobSampleServe
        else some .settleBlobSampleMatch
      else if has "grantee" || isText (p.get "grantee") then some .grantBlobDownload
      else if (has "size" || isNumber (p.get "size")) && (has "retention" || has "content_type")
      then some .blobAnnounce
      else if has "chunk_index" || has "chunkIndex" then some .payBlobSample
      else none
    else none
  let appeal : Option PayloadVariant :=
    if has "slash_id" || has "slashId" then some .submitSlashAppeal
    else if has "appeal_id" || has "appealId" then
      if has "aggregate_signature" || has "aggregateSignature" then
        some .resolveSlashAppealBlsAggregate
      else if has "ballot_signature" || has "ballotSignature" then
        some .resolveSlashAppealAttested
      else some .resolveSlashAppeal
    else none
  if has "data" && (has "retention" || has "content_type") then some .putBlob
  else blob.or appeal

/-- Deploys, calls, batches and transfers, which come before any `kind` field. -/
def callKindFlat (p : Fields) : Option PayloadVariant :=
  let has := p.has
  if has "bytecode" then
    if !has "purpose_category" then some .contractDeploy
    else if has "asset_name" || has "asset_symbol" then some .contractDeployWithPurposeAndMetadata
    else some .contractDeployWithPurpose
  else if has "contract" then some .contractCall
  else if (p.get "calls").asArray?.isSome then some .batch
  else if has "to" && has "amount" then some .transfer
  else none

def getTxPayloadKindFlat (p : Fields) : TxPayloadKind :=
  let fromKind :=
    match p.get "kind" with
    | .string (c :: s) => resolveTaggedPayloadKind (c :: s)
    | _ => none
  match callKindFlat p, fromKind with
  | some kind, _ => .known kind
  | none, some kind => kind
  | none, none =>
    match (nameKindFlat p).or ((stakeKindFlat p).or (blobKindFlat p)) with
    | some kind => .known kind
    | none => .unknown

def getTxPayloadKind (payload : Value) : TxPayloadKind :=
  if payload.isNullish then .unknown
  else
    match unwrapTaggedPayload payload with
    | (_, some kind) => kind
    | (inner, none) => getTxPayloadKindFlat inner

def isContractDeployPayloadKind (kind : TxPayloadKind) : Bool :=
  kind = .known .contractDeploy || kind = .known .contractDeployWithPurpose ||
    kind = .known .contractDeployWithPurposeAndMetadata

example : getTxPayloadKind (.object [("Bond", .object [("amount", .string "5")])]) =
    .known .bond := by decide

end BoingObserver.Payload
