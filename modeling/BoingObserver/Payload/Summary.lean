import BoingObserver.NativeUnit.Format
import BoingObserver.Payload.Kind
import BoingObserver.Rpc.Hex

/-!
# Payload summaries

`batchSteps` and `getTxPayloadSummary` of `tx-payload.ts`, with the labels of
`tx-payload-catalog.ts`, `asset-kind-label.ts` and `extract-media-url.ts` they use:
one line about a payload.

* `batchCallValueTotal_eq_none_iff`: a batch sends nothing iff no call of it has a
  value.
-/

namespace BoingObserver.Payload

open Js Rpc NativeUnit

/-! ## Batches -/

section

variable (nt : NumberText)

/-- Native BOING a contract call sends, unless it is none or zero. -/
def contractCallValue (inner : Fields) : Option Text :=
  let s :=
    match inner.get "value" with
    | .number x => nt.text x
    | .string s => s
    | _ => []
  if IsDigits s ∧ ¬ s.all (· = '0') then some s else none

inductive BatchStep
  | transfer (to' : Value) (amount : Text)
  | contractCall (contract calldata : Value) (value : Option Text)
  | unknown

def batchStep (c : Value) : BatchStep :=
  let (s, taggedKind) := unwrapTaggedPayload c
  match taggedKind.getD (getTxPayloadKindFlat s) with
  | .known .transfer =>
    .transfer (s.get "to") (nt.stringOf ((s.get "amount").orElse (.string [])))
  | .known .contractCall =>
    .contractCall (s.get "contract") (s.get "calldata") (contractCallValue nt s)
  | _ => .unknown

/-- Steps of a `Batch` payload. -/
def batchSteps (inner : Fields) : List BatchStep :=
  (((inner.get "calls").asArray?).getD []).map (batchStep nt)

end

def BatchStep.sent : BatchStep → ℕ
  | .contractCall _ _ (some value) => numeral 10 value
  | _ => 0

/-- Total native BOING the batch's contract calls send (ledger units), if any. -/
def batchCallValueTotal (steps : List BatchStep) : Option Text :=
  let t := (steps.map BatchStep.sent).sum
  if 0 < t then some (decimal t) else none

section

variable {nt : NumberText}

theorem contractCallValue_pos {inner : Fields} {value : Text}
    (h : contractCallValue nt inner = some value) : 0 < numeral 10 value := by
  simp only [contractCallValue, Option.ite_none_right_eq_some] at h
  obtain ⟨hv, hs⟩ := h
  obtain rfl := Option.some.inj hs
  exact numeral_pos hv.1.2 hv.2

theorem sent_pos {c : Value} {contract calldata : Value} {value : Text}
    (h : batchStep nt c = .contractCall contract calldata (some value)) :
    0 < (batchStep nt c).sent := by
  rw [h, BatchStep.sent]
  simp only [batchStep] at h
  split at h
  · cases h
  · exact contractCallValue_pos (BatchStep.contractCall.inj h).2.2
  · cases h

/-- **A batch sends nothing** iff no call of it has a value. -/
theorem batchCallValueTotal_eq_none_iff (inner : Fields) :
    batchCallValueTotal (batchSteps nt inner) = none ↔
      ∀ contract calldata value,
        BatchStep.contractCall contract calldata (some value) ∉ batchSteps nt inner := by
  have hsum : ((batchSteps nt inner).map BatchStep.sent).sum = 0 ↔
      ∀ s ∈ batchSteps nt inner, s.sent = 0 := by
    rw [List.sum_eq_zero_iff_forall_eq_nat]
    exact List.forall_mem_map
  have htotal : batchCallValueTotal (batchSteps nt inner) = none ↔
      ∀ s ∈ batchSteps nt inner, s.sent = 0 := by
    rw [← hsum, batchCallValueTotal]
    split
    next hpos => exact iff_of_false (Option.some_ne_none _) hpos.ne'
    next hzero => exact iff_of_true rfl (by omega)
  rw [htotal]
  constructor
  · intro h contract calldata value hmem
    obtain ⟨c, -, hc⟩ := List.mem_map.mp hmem
    have hpos := sent_pos hc
    rw [hc, h _ hmem] at hpos
    exact absurd hpos (lt_irrefl 0)
  · intro h s hs
    match s with
    | .transfer _ _ => rfl
    | .contractCall _ _ none => rfl
    | .contractCall _ _ (some _) => exact absurd hs (h _ _ _)
    | .unknown => rfl

end

/-! ## Labels -/

/-- `PAYLOAD_VARIANT_LABELS` -/
def PayloadVariant.label : PayloadVariant → Text
  | .transfer => "Transfer"
  | .contractCall => "Contract call"
  | .contractDeploy => "Contract deploy"
  | .contractDeployWithPurpose => "Contract deploy (purpose)"
  | .contractDeployWithPurposeAndMetadata => "Contract deploy (metadata)"
  | .bond => "Bond"
  | .unbond => "Unbond"
  | .claimUnbond => "Claim unbond"
  | .qaPoolVote => "QA pool vote"
  | .batch => "Batch"
  | .validatorRegister => "Validator register"
  | .validatorDeregister => "Validator deregister"
  | .validatorUnjail => "Validator unjail"
  | .nameCommit => "Name commit"
  | .nameRegister => "Name register"
  | .nameRenew => "Name renew"
  | .nameTransfer => "Name transfer"
  | .nameSetTarget => "Name set target"
  | .nameSetPrimary => "Name set primary"
  | .nameRelease => "Name release"
  | .contractCallWithValue => "Contract call (with value)"
  | .putBlob => "Put media blob"
  | .blobAnnounce => "Blob announce"
  | .renewMediaBlobPin => "Renew media blob pin"
  | .payBlobSample => "Pay blob sample"
  | .registerBlobSampleOffer => "Register blob sample offer"
  | .settleBlobSampleMatch => "Settle blob sample match"
  | .cancelBlobSampleOffer => "Cancel blob sample offer"
  | .challengeBlobSampleServe => "Challenge blob sample serve"
  | .respondBlobSampleServe => "Respond blob sample serve"
  | .submitSlashAppeal => "Submit slash appeal"
  | .resolveSlashAppeal => "Resolve slash appeal"
  | .resolveSlashAppealAttested => "Resolve slash appeal (attested)"
  | .resolveSlashAppealBlsAggregate => "Resolve slash appeal (BLS aggregate)"
  | .grantBlobDownload => "Grant blob download"
  | .revokeBlobDownload => "Revoke blob download"

/-- Display label for a deploy's `purpose_category`. -/
def formatPurposeLabel (cat : Text) : Text :=
  let c := trim cat
  let lower := toLowerCase c
  if c = [] ∨ lower = "other" then "other"
  else if lower = "nft" ∨ lower = "nft_collection" then "nft collection"
  else if lower = "dapp" then "dApp"
  else lower

def maxUrl : ℕ := 2048

/-- The text starts with the scheme, in any letter case, and goes on without white space. -/
def isUrlOf (scheme t : Text) : Bool :=
  let rest := t.drop scheme.length
  toLowerCase (t.take scheme.length) = scheme && rest ≠ [] && !rest.any isSpace

/-- `/^data:image\/[a-z0-9.+-]+[;,]/i` -/
def isDataImage (t : Text) : Bool :=
  let isMimeChar := fun c : Char =>
    ('a' ≤ c && c ≤ 'z') || ('A' ≤ c && c ≤ 'Z') || c.isDigit || c = '.' || c = '+' || c = '-'
  let rest := t.drop 11
  let after := rest.dropWhile isMimeChar
  toLowerCase (t.take 11) = "data:image/" && rest.head?.any isMimeChar &&
    (after.head? = some ';' || after.head? = some ',')

/-- True when the whole field is a media URI, not a human name that happens to mention a URL. -/
def isStandaloneMediaUrl (text : Text) : Bool :=
  let t := trim text
  t ≠ [] && utf16Length t ≤ maxUrl &&
    (isUrlOf "ipfs://" t || isUrlOf "http://" t || isUrlOf "https://" t || isDataImage t)

/-- An object, by `JSON.parse` as `parse`. -/
def tryParseJsonObject (parse : Text → Option Value) (text : Text) : Option Fields :=
  let t := trim text
  if t.head? ≠ some '\x7b' then none
  else
    match parse t with
    | some (.object fields) => some fields
    | _ => none

/-- The first field that is a text with something in it, trimmed. -/
def readStringField (o : Fields) (keys : List Text) : Option Text :=
  keys.findSome? fun key =>
    match o.get key with
    | .string s => if trim s = [] then none else some (trim s)
    | _ => none

def nameKeys : List Text := ["name", "title", "collection"]

def symbolKeys : List Text := ["symbol", "ticker"]

section

variable (parse : Text → Option Value)

/-- A field that a person would read as a name. -/
def humanizeMetadataField (raw : Option Text) : Option Text :=
  let t := trim (raw.getD [])
  if t = [] then none
  else
    match tryParseJsonObject parse t with
    | some json => (readStringField json nameKeys).filter fun name => !isStandaloneMediaUrl name
    | none => if isStandaloneMediaUrl t then none else some t

structure AssetDisplayMetadata where
  displayName : Option Text
  displaySymbol : Option Text

/-- The names in deploy `asset_name` and `asset_symbol` (plain text, image URL, or inline JSON). -/
def parseAssetDisplayMetadata (assetName assetSymbol : Option Text) : AssetDisplayMetadata :=
  let jsons := [assetName, assetSymbol].filterMap fun raw => raw.bind (tryParseJsonObject parse)
  let field := fun keys => jsons.findSome? fun json =>
    (readStringField json keys).filter fun s => !isStandaloneMediaUrl s
  let displayName := (field nameKeys).or (humanizeMetadataField parse assetName)
  let symbol := (humanizeMetadataField parse assetSymbol).filter fun s => some s ≠ displayName
  { displayName, displaySymbol := (field symbolKeys).or symbol }

def formatAssetDisplayLabel (metadata : AssetDisplayMetadata) (fallback : Text) : Text :=
  match metadata.displayName, metadata.displaySymbol with
  | some name, some symbol => name ++ " · " ++ symbol
  | some name, none => name
  | none, some symbol => symbol
  | none, none => fallback

def deployAssetLabel (inner : Fields) : Text :=
  formatAssetDisplayLabel (parseAssetDisplayMetadata parse (inner.get "asset_name").asString?
    (inner.get "asset_symbol").asString?) []

end

/-! ## Summaries -/

/-- What the summaries use of the platform. -/
structure Platform where
  numberText : NumberText
  /-- `JSON.parse(text)`; `none` is a throw. -/
  parse : Text → Option Value
  /-- The text of what a payload's tag inherits from `Object.prototype`. -/
  inheritedText : Value → Text

/-- `s.endsWith(".boing") ? s : s + ".boing"`, for the text of a name. -/
def formatBoingName (nt : NumberText) (name : Value) : Text :=
  let s := trim (nt.stringOf (name.orElse (.string [])))
  if s = [] then "—" else if (".boing" : Text).isSuffixOf s then s else s ++ ".boing"

def formatShortAddr (nt : NumberText) (value : Value) : Text :=
  let s := toSafeHexString nt value
  let h := if s.take 2 = "0x" then s.drop 2 else s
  if 12 < h.length then h.take 6 ++ "…" ++ sliceEnd h 4 else if h = [] then "—" else h

section

variable (platform : Platform) (registry : Registry)

/-- `String(v ?? "")` -/
def fieldText (v : Value) : Text := platform.numberText.stringOf (v.orElse (.string []))

def boingText (height : Option Number) (network : Option Text) (raw : Value) : Text :=
  (compactBoingAt platform.numberText registry (.string (fieldText platform raw)) height
    network).short ++ " BOING"

/-- ` · sends …`, if a value is sent. -/
def sendsText (boing : Value → Text) (v : Option Text) : Text :=
  match v with
  | some v => " · sends " ++ boing (.string v)
  | none => ""

def nameSummary (p : Fields) : PayloadVariant → Option Text
  | .nameCommit => some ("name commit · " ++ addr "commitment")
  | .nameRegister => some ("register " ++ name ++ " · " ++ years ++ "y → " ++ addr "target")
  | .nameRenew => some ("renew " ++ name ++ " · " ++ years ++ "y")
  | .nameTransfer => some ("transfer " ++ name ++ " → " ++ addr "new_owner")
  | .nameSetTarget => some ("retarget " ++ name ++ " → " ++ addr "target")
  | .nameSetPrimary =>
    some (if cleared then "clear primary name" else "set primary " ++ name)
  | .nameRelease => some ("release " ++ name)
  | _ => none
where
  addr (key : Text) : Text := formatShortAddr platform.numberText (p.get key)
  name : Text := formatBoingName platform.numberText (p.get "name")
  years : Text := fieldText platform (p.get "years")
  cleared : Bool :=
    match p.get "name" with
    | .string s => s = []
    | v => v.isNullish

def blobSummary (p : Fields) : PayloadVariant → Option Text
  | .putBlob => some "put media blob"
  | .blobAnnounce => some ("blob announce · " ++ blobId)
  | .renewMediaBlobPin => some ("renew blob pin · " ++ blobId)
  | .submitSlashAppeal => some ("slash appeal · id " ++ either "slash_id" "slashId")
  | kind =>
    if kind ∈ [.payBlobSample, .registerBlobSampleOffer, .settleBlobSampleMatch,
        .cancelBlobSampleOffer, .challengeBlobSampleServe, .respondBlobSampleServe] then
      some (toLowerCase kind.label ++ " · " ++ blobId)
    else if kind ∈ [.grantBlobDownload, .revokeBlobDownload] then
      some (toLowerCase kind.label ++ " · " ++ blobId ++ " → " ++
        formatShortAddr platform.numberText (p.get "grantee"))
    else if kind ∈ [.resolveSlashAppeal, .resolveSlashAppealAttested,
        .resolveSlashAppealBlsAggregate] then
      some (toLowerCase kind.label ++ " · id " ++ either "appeal_id" "appealId")
    else none
where
  blobId : Text := formatShortAddr platform.numberText ((p.get "blob_id").orElse (p.get "blobId"))
  either (key key' : Text) : Text := fieldText platform ((p.get key).orElse (p.get key'))

def callSummary (boing : Value → Text) (p : Fields) : PayloadVariant → Text
  | .transfer => "to " ++ addr (p.get "to") ++ " · " ++ boing (p.get "amount")
  | .bond => boing (p.get "amount") ++ " stake"
  | .unbond => "unbond " ++ boing (p.get "amount")
  | .contractCall =>
    "contract " ++ addr (p.get "contract") ++ sendsText boing (contractCallValue nt p)
  | .batch =>
    let steps := batchSteps nt p
    "batch · " ++ decimal steps.length ++ " step" ++ (if steps.length = 1 then "" else "s") ++
      sendsText boing (batchCallValueTotal steps)
  | .contractDeploy => "deploy contract"
  | .contractDeployWithPurpose => "deploy contract · " ++ purpose
  | .contractDeployWithPurposeAndMetadata =>
    let name := deployAssetLabel platform.parse p
    "deploy · " ++ purpose ++ (if name = [] then [] else (" · " : Text) ++ name)
  | .claimUnbond => "claim unbond"
  | .qaPoolVote =>
    "QA vote · " ++ fieldText platform (p.get "vote") ++ " · " ++
      addr ((p.get "subject").orElse (p.get "subject_hex"))
  | .validatorRegister => "validator register · node " ++ node
  | .validatorDeregister => "validator deregister · node " ++ node
  | .validatorUnjail => "validator unjail · node " ++ node
  | kind => kind.label
where
  nt : NumberText := platform.numberText
  addr (v : Value) : Text := formatShortAddr platform.numberText v
  node : Text := addr ((p.get "node_id").orElse (p.get "nodeId"))
  purpose : Text :=
    formatPurposeLabel (nt.stringOf ((p.get "purpose_category").orElse (.string "other")))

/-- One-line payload summary, for a payload of the block at a height. -/
def getTxPayloadSummary (payload : Value) (height : Option Number) (network : Option Text) :
    Text :=
  let p := getTxPayloadInner payload
  match getTxPayloadKind payload with
  | .unknown => "—"
  | .inherited => platform.inheritedText payload
  | .known kind =>
    ((nameSummary platform p kind).or (blobSummary platform p kind)).getD
      (callSummary platform (boingText platform registry height network) p kind)

end

end BoingObserver.Payload
