import BoingObserver.Bytecode.Selectors
import BoingObserver.Contract.Match
import BoingObserver.NativeUnit.Config
import BoingObserver.Published.Resolve

/-!
# What a contract is

`identifyContract` of `contract-identify.ts`: by its address, by its bytecode, or by
the selectors its bytecode dispatches on.  The addresses and templates of the SDK are
a parameter (`SdkContracts`).

* `partitioned_described`: functions that describe selectors, and the selectors they
  leave over, share the decoded selectors out between them.
* `identifyContract_partition`: so does every identity, with or without a published
  interface.
-/

namespace BoingObserver.Contract

open Js Rpc Bytecode NativeUnit Published

/-! ## Known contracts -/

structure Known where
  interfaceId : Text
  label : Text

structure SdkContracts where
  nativeCpPool : Text
  nativeDexFactory : Text
  nativeDexLedgerRouterV1 : Text
  nativeDexLedgerRouterV2 : Text
  nativeDexLedgerRouterV3 : Text
  nativeDexMultihopSwapRouter : Text
  nativeAmmLpVault : Text
  nativeLpShareToken : Text
  builderAttestationRegistry : Text
  boingTokenBytecodeHex : ℕ → Text
  boingPoolBytecodeHex : ℕ → Text
  referenceFungibleTemplateBytecode : Text
  referenceFungibleTemplateV2Bytecode : Text
  referenceNftCollectionTemplateBytecode : Text
  custodyRouterBytecode : Text
  linkedNftTokenRegistryBytecode : Text
  builderAttestationRegistryBytecode : Text

def linkedNftTokenRegistry : Text :=
  "0xf704485ad29f56bb6516ac822fcf9ca8fcb6c4266e22c9ed7f9c6908668655dd"

def linkedNftTokenRegistryV1 : Text :=
  "0xebf9f0190f415852f90d0e60343126201248ab96273fdbf8acc5fe5fa03c3dd8"

section

variable (sdk : SdkContracts)

def literalTestnetContracts : List (Text × Known) :=
  [("6676f971ade3982406efa3e2cdb0477923f8f2a15624c4b6ad3a432817a75e93",
      ⟨"fungible-v2", "USDC (canonical testnet token, reference fungible v2)"⟩),
   ("6fce9d3e3f13df9fc17e3fd947148a4e6ce6966538b7dd9bf2a891d3b9699c6b",
      ⟨"fungible-v2", "tBOING (canonical testnet token, reference fungible v2)"⟩),
   ("2ad75c2e11b1e93761f4f8df39502deecbe7148324e5a80a951798142b2c5b61",
      ⟨"pool-custody", "USDC / tBOING pool (native CP pool v9)"⟩),
   ("806b2462b28f2f5772bbf5ae2628ad3a333bd2c5fa341144e0400ef5c2f1e4c6",
      ⟨"custody-router", "Custody router v1 (canonical)"⟩),
   ("236a851dd50faaa268e2e1b7ba95cfb9993773abf63a4c0d949183d8302e65c7",
      ⟨"lp-vault-v2", "LP vault v2 (canonical, USDC / tBOING pool)"⟩)]

def constantTestnetContracts : List (Text × Known) :=
  [(sdk.nativeCpPool, ⟨"pool-ledger", "Canonical native CP pool (ledger)"⟩),
   (sdk.nativeDexFactory, ⟨"dex-factory", "Native DEX factory (canonical)"⟩),
   (sdk.nativeDexLedgerRouterV1, ⟨"ledger-router", "Ledger router v1 (canonical)"⟩),
   (sdk.nativeDexLedgerRouterV2, ⟨"ledger-router", "Ledger router v2 (canonical)"⟩),
   (sdk.nativeDexLedgerRouterV3, ⟨"ledger-router", "Ledger router v3 (canonical)"⟩),
   (sdk.nativeDexMultihopSwapRouter, ⟨"multihop-router", "Multihop swap router (canonical)"⟩),
   (sdk.nativeAmmLpVault, ⟨"lp-vault-v1", "Native AMM LP vault v1 (canonical)"⟩),
   (sdk.nativeLpShareToken, ⟨"lp-share-token", "LP share token (canonical)"⟩),
   (linkedNftTokenRegistry,
      ⟨"linked-nft-registry-v2", "Linked NFT / token registry v2 (canonical)"⟩),
   (linkedNftTokenRegistryV1,
      ⟨"linked-nft-registry", "Linked NFT / token registry v1 (superseded by v2)"⟩),
   (sdk.builderAttestationRegistry,
      ⟨"builder-attestation", "Builder attestation registry (canonical)"⟩)]

/-- Canonical public-testnet deployments; of two with one address the later counts. -/
def canonicalTestnetContracts : List (Text × Known) :=
  (literalTestnetContracts ++
    (constantTestnetContracts sdk).map fun e => (h64 (.string e.1), e.2)).reverse

def templates : List (Text × Known) :=
  [(sdk.boingTokenBytecodeHex 2,
      ⟨"fungible-v2", "Reference fungible token v2 (canonical template)"⟩),
   (sdk.referenceFungibleTemplateV2Bytecode,
      ⟨"fungible-v2", "Reference fungible token v2 (canonical template)"⟩),
   (sdk.boingTokenBytecodeHex 1,
      ⟨"fungible-v1", "Reference fungible token v1 (canonical template)"⟩),
   (sdk.referenceFungibleTemplateBytecode,
      ⟨"fungible-v1", "Reference fungible token v1 (canonical template)"⟩),
   (sdk.referenceNftCollectionTemplateBytecode,
      ⟨"nft", "Reference NFT collection (canonical template)"⟩)] ++
  [9, 8].map (fun v => (sdk.boingPoolBytecodeHex v,
    ⟨"pool-custody", "Native CP pool v" ++ decimal v ++ " (canonical template)"⟩)) ++
  [7, 6, 5, 4, 3, 2, 1].map (fun v => (sdk.boingPoolBytecodeHex v,
    ⟨"pool-ledger", "Native CP pool v" ++ decimal v ++ " (canonical template)"⟩)) ++
  [(sdk.custodyRouterBytecode, ⟨"custody-router", "Custody router v1 (canonical template)"⟩),
   (sdk.linkedNftTokenRegistryBytecode,
      ⟨"linked-nft-registry", "Linked NFT / token registry v1 (canonical template)"⟩),
   (sdk.builderAttestationRegistryBytecode,
      ⟨"builder-attestation", "Builder attestation registry (canonical template)"⟩)]

/-- A template is added under its bytecode, unless it is empty or there already. -/
def addTemplate (m : Map Text Known) (e : Text × Known) : Map Text Known :=
  let key := h64 (.string e.1)
  if key ≠ [] ∧ m.get key = none then m.set key e.2 else m

def knownBytecodeMap : Map Text Known := (templates sdk).foldl addTemplate Map.empty

/-! ## Bytecode -/

inductive Via
  | rpc
  | history

structure ContractCodeInfo where
  bytecodeHex : Text
  deployer : Option Text
  height : Option Number
  txIndex : Option Number
  codeHash : Option Text
  via : Option Via

/-- What an identity says of the code. -/
structure CodeSummary where
  deployer : Option Text
  height : Option Number
  txIndex : Option Number
  codeHash : Option Text
  via : Via
  sizeBytes : ℕ

def ContractCodeInfo.summary (code : ContractCodeInfo) : CodeSummary where
  deployer := code.deployer
  height := code.height
  txIndex := code.txIndex
  codeHash := code.codeHash
  via := code.via.getD .history
  sizeBytes := (h64 (.string code.bytecodeHex)).length / 2

/-- The bytes of a hex text; `none` is a throw. -/
def hexToBytesLoose (hex : Text) : Option (List UInt8) :=
  let h := strip0x (trim hex)
  if h.length % 2 ≠ 0 ∨ ¬ h.all isAnyHexDigit then none
  else some ((chunks 2 h).map fun byte => UInt8.ofNat (numeral 16 byte))

/-- The selectors that some bytecode dispatches on; none when it cannot be parsed. -/
def decodedFrom (code : Option ContractCodeInfo) : List ℕ :=
  ((code.bind fun c => hexToBytesLoose c.bytecodeHex).map decodeDispatchSelectors).getD []

/-- The template that some bytecode is. -/
def knownByCode (code : Option ContractCodeInfo) : Option Known :=
  code.bind fun c => (hexToBytesLoose c.bytecodeHex).bind fun _ =>
    (knownBytecodeMap sdk).get (h64 (.string c.bytecodeHex))

def parseNotes (code : Option ContractCodeInfo) : List Text :=
  match code with
  | some c =>
    if (hexToBytesLoose c.bytecodeHex).isNone then ["Deploy bytecode could not be parsed."] else []
  | none => []

/-! ## The identity -/

structure Naming where
  source : Source
  interfaceId : Option Text
  label : Option Text
  notes : List Text

def namedBySelectors (decoded : List ℕ) : Naming :=
  match (if decoded.length > 0 then matchInterfaceBySelectors decoded else none) with
  | some (id, isExact) =>
    let name : Text := ((contractInterfaces.lookup id).map (·.name)).getD []
    { source := .selectors
      interfaceId := some id
      label := some (name ++ (if isExact then "" else " (closest match)" : Text))
      notes := ["Matched by the selectors its bytecode dispatches on; parameter names come from the matching template."] }
  | none => ⟨.none, none, none, []⟩

/-- By address on the testnet, else by bytecode, else by selectors.  An inherited property of the
address table is canonical too, and has neither interface nor label. -/
def nameContract (network : NetworkId) (address : Text) (code : Option ContractCodeInfo) : Naming :=
  match (if network = .testnet then recordGet (canonicalTestnetContracts sdk) address
    else .absent) with
  | .own known => ⟨.canonical, some known.interfaceId, some known.label, []⟩
  | .inherited => ⟨.canonical, none, none, []⟩
  | .absent =>
    match knownByCode sdk code with
    | some known => ⟨.bytecode, some known.interfaceId, some known.label, []⟩
    | none => namedBySelectors (decodedFrom code)

def interfaceOf (naming : Naming) : Option ContractInterface :=
  naming.interfaceId.bind fun id =>
    match recordGet contractInterfaces id with
    | .own iface => some iface
    | _ => none

/-- Only the functions whose selectors the bytecode dispatches on, when it was decoded. -/
def shownFunctions (functions : List ContractFunction) (decoded : List ℕ) : List ContractFunction :=
  if decoded.length > 0 then functions.filter fun f => f.selector ∈ decoded else functions

def leftOver (functions : List ContractFunction) (decoded : List ℕ) : List ℕ :=
  decoded.filter fun s => s ∉ functions.map ContractFunction.selector

def identifyContract (network : NetworkId) (address64 : Text) (code : Option ContractCodeInfo) :
    IdentifiedContract CodeSummary :=
  let address := h64 (.string address64)
  let naming := nameContract sdk network address code
  let iface := interfaceOf naming
  let functions := (iface.map (·.functions)).getD []
  let decoded := decodedFrom code
  { address
    source := naming.source
    interfaceId := iface.map (·.id)
    label := naming.label
    summary := iface.map (·.summary)
    docsUrl := iface.bind (·.docsUrl)
    functions := shownFunctions functions decoded
    decodedSelectors := decoded
    unknownSelectors := leftOver functions decoded
    code := code.map (·.summary)
    notes := parseNotes code ++ naming.notes }

end

/-! ## The partition -/

/-- Every decoded selector is that of a listed function or unknown, never both; and every unknown
selector was decoded. -/
structure Partitioned {Code : Type} (id : IdentifiedContract Code) : Prop where
  described_or_unknown : ∀ s ∈ id.decodedSelectors,
    s ∈ id.functions.map ContractFunction.selector ∨ s ∈ id.unknownSelectors
  not_both : ∀ s ∈ id.decodedSelectors,
    ¬ (s ∈ id.functions.map ContractFunction.selector ∧ s ∈ id.unknownSelectors)
  unknown_decoded : ∀ s ∈ id.unknownSelectors, s ∈ id.decodedSelectors

def IsApplied (pub : Option PublishedInterface) : Prop :=
  ∃ p, pub = some p ∧ p.verified = true ∧ p.doc.isSome = true

section

variable {functions : List ContractFunction} {decoded : List ℕ} {s : ℕ}

theorem mem_leftOver : s ∈ leftOver functions decoded ↔
    s ∈ decoded ∧ s ∉ functions.map ContractFunction.selector := by
  rw [leftOver, List.mem_filter, decide_eq_true_eq]

theorem mem_shownFunctions (hs : s ∈ decoded) :
    s ∈ (shownFunctions functions decoded).map ContractFunction.selector ↔
      s ∈ functions.map ContractFunction.selector := by
  rw [shownFunctions, if_pos (List.length_pos_of_mem hs), List.mem_map, List.mem_map]
  constructor
  · rintro ⟨f, hf, rfl⟩
    exact ⟨f, List.mem_of_mem_filter hf, rfl⟩
  · rintro ⟨f, hf, rfl⟩
    exact ⟨f, List.mem_filter.mpr ⟨hf, decide_eq_true hs⟩, rfl⟩

theorem mem_decoded_of_shown (hne : decoded ≠ []) :
    ∀ f ∈ shownFunctions functions decoded, f.selector ∈ decoded := by
  intro f hf
  rw [shownFunctions, if_pos (List.length_pos_iff.mpr hne)] at hf
  exact of_decide_eq_true (List.mem_filter.mp hf).2

/-- **Functions that describe the decoded selectors, and what they leave over, share them out.** -/
theorem partitioned_described (functions : List ContractFunction) {Code : Type}
    {id : IdentifiedContract Code}
    (hshown : ∀ s ∈ id.decodedSelectors, s ∈ id.functions.map ContractFunction.selector ↔
      s ∈ functions.map ContractFunction.selector)
    (hunknown : id.unknownSelectors = leftOver functions id.decodedSelectors) :
    Partitioned id := by
  refine ⟨?_, ?_, ?_⟩
  · intro s hs
    rw [hshown s hs, hunknown, mem_leftOver]
    by_cases hd : s ∈ functions.map ContractFunction.selector
    · exact Or.inl hd
    · exact Or.inr ⟨hs, hd⟩
  · intro s hs hboth
    rw [hshown s hs, hunknown, mem_leftOver] at hboth
    exact hboth.2.2 hboth.1
  · intro s hs
    rw [hunknown] at hs
    exact (mem_leftOver.mp hs).1

end

section

variable (sdk : SdkContracts) (network : NetworkId) (address64 : Text)
  (code : Option ContractCodeInfo)

theorem partitioned_identifyContract : Partitioned (identifyContract sdk network address64 code) :=
  partitioned_described _ (fun _ hs => mem_shownFunctions hs) rfl

theorem partitioned_apply {Code : Type} {id : IdentifiedContract Code} (h : Partitioned id)
    (pub : Option PublishedInterface) : Partitioned (applyPublishedInterface id pub) := by
  cases pub with
  | none => exact h
  | some p =>
    cases hverified : p.verified with
    | false =>
      rw [applyPublishedInterface, hverified]
      exact ⟨h.described_or_unknown, h.not_both, h.unknown_decoded⟩
    | true =>
      cases hdoc : p.doc with
      | none =>
        rw [applyPublishedInterface, hverified, hdoc]
        exact ⟨h.described_or_unknown, h.not_both, h.unknown_decoded⟩
      | some doc =>
        rw [applyPublishedInterface, hverified, hdoc]
        exact partitioned_described doc.functions (fun _ _ => Iff.rfl) rfl

/-- A published interface leaves the decoded selectors, and the functions unless it is applied. -/
theorem apply_keeps {Code : Type} (id : IdentifiedContract Code) (pub : Option PublishedInterface) :
    (applyPublishedInterface id pub).decodedSelectors = id.decodedSelectors ∧
      (¬ IsApplied pub → (applyPublishedInterface id pub).functions = id.functions) := by
  cases pub with
  | none => exact ⟨rfl, fun _ => rfl⟩
  | some p =>
    cases hverified : p.verified with
    | false =>
      rw [applyPublishedInterface, hverified]
      exact ⟨rfl, fun _ => rfl⟩
    | true =>
      cases hdoc : p.doc with
      | none =>
        rw [applyPublishedInterface, hverified, hdoc]
        exact ⟨rfl, fun _ => rfl⟩
      | some doc =>
        rw [applyPublishedInterface, hverified, hdoc]
        exact ⟨rfl, fun hnot => absurd ⟨p, rfl, hverified, by rw [hdoc]; rfl⟩ hnot⟩

/-- **Identification partitions the decoded selectors**, with or without a published interface; and
unless one is applied, every function of a decoded contract has a decoded selector. -/
theorem identifyContract_partition (pub : Option PublishedInterface) :
    Partitioned (identifyContract sdk network address64 code) ∧
      Partitioned (applyPublishedInterface (identifyContract sdk network address64 code) pub) ∧
      (identifyContract sdk network address64 code).decodedSelectors = decodedFrom code ∧
      (applyPublishedInterface (identifyContract sdk network address64 code) pub).decodedSelectors =
        decodedFrom code ∧
      (decodedFrom code ≠ [] →
        (∀ f ∈ (identifyContract sdk network address64 code).functions,
            f.selector ∈ decodedFrom code) ∧
          (¬ IsApplied pub →
            ∀ f ∈ (applyPublishedInterface (identifyContract sdk network address64 code) pub).functions,
              f.selector ∈ decodedFrom code)) := by
  have hparts := partitioned_identifyContract sdk network address64 code
  obtain ⟨hdecoded, hfunctions⟩ := apply_keeps (identifyContract sdk network address64 code) pub
  refine ⟨hparts, partitioned_apply hparts pub, rfl, hdecoded, ?_⟩
  intro hne
  have hshown : ∀ f ∈ (identifyContract sdk network address64 code).functions,
      f.selector ∈ decodedFrom code := mem_decoded_of_shown hne
  refine ⟨hshown, fun hnot => ?_⟩
  rw [hfunctions hnot]
  exact hshown

end

end BoingObserver.Contract
