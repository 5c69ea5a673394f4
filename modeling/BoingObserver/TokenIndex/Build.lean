import BoingObserver.Deploy.Address
import BoingObserver.Deploy.Receipt
import BoingObserver.Js.Map
import BoingObserver.Media.Resolve
import BoingObserver.Sightings

/-!
# The token index

`build-token-index.ts`: the contracts deployed in a range of blocks and the tokens that the
DEX registered there, merged by address into the entries of the index.
-/

namespace BoingObserver.TokenIndex

open Js Rpc Payload Deploy Media Sightings

/-! ## Entries -/

inductive TokenIndexAssetKind
  | fungible
  | nft
  | other
  deriving DecidableEq

inductive Source
  | deploy
  | dex
  deriving DecidableEq

def Source.text : Source → Text
  | .deploy => "deploy"
  | .dex => "dex"

/-- `Number.MAX_SAFE_INTEGER` -/
def maxSafeInteger : ℕ := 2 ^ 53 - 1

structure MutableEntry where
  address : Text
  kind : TokenIndexAssetKind
  sources : List Source
  assetName : Option Text
  assetSymbol : Option Text
  purposeCategory : Option Text
  deployer : Option Text
  firstSeenBlock : ℕ
  deployTxId : Option Text
  descriptionHash : Option Text

def inferAssetKind (purpose : Option Text) : TokenIndexAssetKind :=
  let p := toLowerCase (purpose.getD [])
  if includes p "nft" || includes p "collection" then .nft
  else if includes p "fungible" || includes p "token" then .fungible
  else .other

def normalizeTxId (raw : Option Text) : Option Text :=
  match raw with
  | some (c :: s) => orNull (normalizeHex64 (strip0x (c :: s)))
  | _ => none

/-- `descriptionHashToHex64` of `token-metadata-lookup.ts`. -/
def descriptionHashToHex64 (nt : NumberText) (value : Value) : Option Text :=
  let dh := normalizeHexData nt value
  if dh.bytes ≠ 32 then none
  else
    let hex := toLowerCase (strip0x dh.prefixed)
    if hex = [] ∨ hex.all (· = '0') then none else some hex

def isTruthy : Option Text → Bool
  | some (_ :: _) => true
  | _ => false

/-- `if (v && !field) field = v` -/
def fill (field v : Option Text) : Option Text := if isTruthy v && !isTruthy field then v else field

abbrev Entries : Type := Map Text MutableEntry

def ensureEntry (map : Entries) (address : Text) : MutableEntry :=
  (map.get address).getD
    { address, kind := .other, sources := [], assetName := none, assetSymbol := none
      purposeCategory := none, deployer := none, firstSeenBlock := maxSafeInteger
      deployTxId := none, descriptionHash := none }

structure DeployRow where
  address : Text
  blockHeight : ℕ
  txId : Option Text
  deployer : Option Text
  purposeCategory : Option Text
  assetName : Option Text
  assetSymbol : Option Text
  descriptionHash : Option Text

def applyDeployRow (map : Entries) (row : DeployRow) : Entries :=
  let e := ensureEntry map row.address
  let k := inferAssetKind row.purposeCategory
  let earlier : Bool := row.blockHeight < e.firstSeenBlock
  map.set row.address
    { e with
      sources := addSource .deploy e.sources
      kind :=
        if k ≠ .other then k
        else if e.kind = .other ∧ (isTruthy row.assetName || isTruthy row.assetSymbol) then .fungible
        else e.kind
      firstSeenBlock := if earlier then row.blockHeight else e.firstSeenBlock
      deployTxId := if earlier then row.txId else e.deployTxId
      purposeCategory := fill e.purposeCategory row.purposeCategory
      assetName := fill e.assetName row.assetName
      assetSymbol := fill e.assetSymbol row.assetSymbol
      deployer := fill e.deployer row.deployer
      descriptionHash := fill e.descriptionHash row.descriptionHash }

/-- The address a token id of the DEX stands for; empty if it is none. -/
def tokenAddress (tokenHexWith0x : Text) : Text := normalizeHex64 (strip0x tokenHexWith0x)

structure Bundle where
  height : ℕ
  transactions : List Value
  receipts : Option (List Value)

/-- A `register_pair` event of the DEX. -/
structure DexRow where
  tokenAHex : Text
  tokenBHex : Text
  blockHeight : ℕ

/-- `receipt && receipt.success === false` -/
def failed (receipt : Value) : Bool :=
  match receipt.get "success" with
  | .bool success => !success
  | _ => false

section

variable (nt : NumberText) (sdk : Sdk)

/-- The address of a deployed contract: from the receipt, or as it is predicted. -/
def deployedAddress (tx receipt : Value) : Option Text :=
  (tryParseCreatedAccountIdFromDeployReturnData nt (receiptReturnDataHex receipt)).or
    (tryPredictDeployedContractAddressFromDeployTx nt sdk tx)

def deployRow (bundle : Bundle) (p : Value × ℕ) : Option DeployRow :=
  let (tx, i) := p
  let receipt := (((bundle.receipts.getD [])[i]?).getD .undefined).orElse .null
  if failed receipt then none
  else
    match deployedAddress nt sdk tx receipt with
    | some (c :: addr) =>
      let inner := getTxPayloadInner (tx.get "payload")
      some {
        address := c :: addr
        blockHeight := bundle.height
        txId := normalizeTxId (receipt.get "tx_id").asString?
        deployer := orNull (hexForLink nt (tx.get "sender"))
        purposeCategory := (inner.get "purpose_category").asString?
        assetName := (inner.get "asset_name").asString?
        assetSymbol := (inner.get "asset_symbol").asString?
        descriptionHash := descriptionHashToHex64 nt (inner.get "description_hash") }
    | _ => none

def isDeployTx (tx : Value) : Bool := isContractDeployPayloadKind (getTxPayloadKind (tx.get "payload"))

structure Scanned where
  map : Entries
  deployTxSeen : ℕ
  deployIndexed : ℕ

def Scanned.visitTx (bundle : Bundle) (s : Scanned) (p : Value × ℕ) : Scanned :=
  if !isDeployTx p.1 then s
  else
    match deployRow nt sdk bundle p with
    | none => { s with deployTxSeen := s.deployTxSeen + 1 }
    | some row => ⟨applyDeployRow s.map row, s.deployTxSeen + 1, s.deployIndexed + 1⟩

def Scanned.visit (s : Scanned) (bundle : Bundle) : Scanned :=
  bundle.transactions.zipIdx.foldl (Scanned.visitTx nt sdk bundle) s

end

structure TokenIndexJsonEntry where
  address : Text
  kind : TokenIndexAssetKind
  sources : List Source
  assetName : Option Text
  assetSymbol : Option Text
  purposeCategory : Option Text
  deployer : Option Text
  firstSeenBlock : ℕ
  deployTxId : Option Text
  descriptionHash : Option Text
  imageUrl : Option Text

structure Fetched where
  headHeight : Value
  chainId : Value
  /-- `resolveNativeDexFactoryForExplorer` -/
  factory : Option Text
  bundles : List Bundle
  /-- The `register_pair` events, which are asked for when there is a factory. -/
  registerLogs : Option (List DexRow)

def Fetched.dexRows (f : Fetched) : Option (List DexRow) :=
  if isTruthy f.factory then f.registerLogs else none

/-- What the asset's metadata shows: parsed from the entry, or looked up by its hash. -/
structure Images where
  parse : Text → Option Value
  /-- `resolveOffchainTokenMetadata(hash)?.imageUrl` -/
  offchain : Text → Option Text

def imageUrl (images : Images) (e : MutableEntry) : Option Text :=
  let parsed := resolveImageUrlFromSources images.parse [e.assetName, e.assetSymbol]
  if !isTruthy parsed && isTruthy e.descriptionHash then e.descriptionHash.bind images.offchain
  else parsed

section

variable (nt : NumberText) (sdk : Sdk) (images : Images)

end

end BoingObserver.TokenIndex
