import BoingObserver.Contract.Identify
import BoingObserver.Deploy.Lookup
import BoingObserver.Handler
import BoingObserver.Tasks

/-!
# Resolving a contract

`resolveContractCode` of `contract-code-lookup.ts` and what `resolveContractInterface` of
`contract-interface-resolve.ts` does when its cache has nothing: the code and its deployer, the
interface that the deployer published, and the identity that follows from them.

* `published_of_gives`: names are taken from a published document only if it was verified against
  the deployer that was found in the same load.
-/

namespace BoingObserver.Contract

open Js Rpc NativeUnit Published Oracle Tasks
open Deploy (lookupContractCode)

/-! ## The node -/

inductive ResolveQuery
  | contractCode (address64 : Text)
  | history (q : Deploy.Query)
  | published (q : Published.Query)

/-- Answers; of the history also those that throw when they are read, as a page that is `null`. -/
def ResolveAnswer : ResolveQuery → Type
  | .contractCode _ => Except JsError Value
  | .history q => Except JsError (Deploy.Answer q)
  | .published q => Published.Answer q

/-- What the code is computed with: the engine's numbers and bytes, and the SDK. -/
structure ResolvePlatform where
  numberText : NumberText
  deploys : Deploy.Sdk
  contracts : SdkContracts
  engine : Engine
  /-- `CANONICAL_BOING_TESTNET_NATIVE_DEX_DEPLOYER_HEX` -/
  dexDeployer : Text

/-! ## The code -/

/-- The result of `fetchContractCodeRpc`. -/
inductive DirectCode
  | unsupported
  | absent
  | found (bytecodeHex codeHash : Text)

def readContractCode : Except JsError Value → DirectCode
  | .error _ => .unsupported
  | .ok r =>
    match h64 (r.get "bytecode") with
    | [] => .absent
    | bytecodeHex => .found bytecodeHex (h64 (r.get "code_hash"))

/-- `fetchContractCodeRpc` -/
def fetchContractCodeRpc (address64 : Text) : Prog ResolveAnswer DirectCode := do
  let r ← Prog.query (ResolveQuery.contractCode (h64 (.string address64)))
  return readContractCode r

structure ResolvedCode where
  calledAsContract : Bool
  callCount : ℕ
  code : Option ContractCodeInfo
  historyUnsupported : Bool

/-- `{ ...hist.code, via: "history" }` -/
def historyCode (code : Deploy.ContractCodeInfo) : ContractCodeInfo where
  bytecodeHex := code.bytecodeHex
  deployer := some code.deployer
  height := some (.finite code.height)
  txIndex := some (.ofNat code.txIndex)
  codeHash := none
  via := some .history

/-- The stored code, with the deploy that the history has. -/
def directCode (bytecodeHex codeHash : Text) (deploy : Option Deploy.ContractCodeInfo) :
    ContractCodeInfo where
  bytecodeHex := bytecodeHex
  deployer := deploy.map (·.deployer)
  height := deploy.map fun d => .finite d.height
  txIndex := deploy.map fun d => .ofNat d.txIndex
  codeHash := some codeHash
  via := some .rpc

def joinCode (direct : DirectCode) (hist : Deploy.ContractCodeLookup) : ResolvedCode where
  calledAsContract := hist.calledAsContract
  callCount := hist.callCount
  code :=
    match direct with
    | .unsupported => hist.code.map historyCode
    | .absent => none
    | .found bytecodeHex codeHash => some (directCode bytecodeHex codeHash hist.code)
  historyUnsupported := hist.historyUnsupported

section

variable (P : ResolvePlatform)

def askHistory (q : Deploy.Query) : Async ResolveAnswer JsError (Deploy.Answer q) := do
  let r ← Async.ask (ResolveQuery.history q)
  Async.ofExcept r

/-- `{ calledAsContract: false, callCount: 0, code: null }` -/
def noHistory : Deploy.ContractCodeLookup where
  calledAsContract := false
  callCount := 0
  code := none

/-- `resolveContractCode`; the two parts, which are awaited together, ask one after the other. -/
def resolveContractCode (address64 : Text) (opts : Deploy.LookupOpts) :
    Prog ResolveAnswer ResolvedCode := do
  let direct ← fetchContractCodeRpc address64
  let hist ← ((lookupContractCode P.numberText P.deploys address64 opts).handleThrowing
    askHistory).run
  return joinCode direct (hist.toOption.getD noHistory)

/-! ## The interface -/

structure ContractInterfaceResponse where
  identity : IdentifiedContract CodeSummary
  calledAsContract : Bool
  callCount : ℕ
  historyUnsupported : Bool

def lookupOpts (network : NetworkId) : Deploy.LookupOpts :=
  { extraDeployers := if network = .testnet then [P.dexDeployer] else [] }

/-- `{ knownDeployer: lookup.code?.deployer ?? null }` -/
def knownDeployerOf (code : ResolvedCode) : ResolveOpts :=
  { knownDeployer := code.code.bind (·.deployer) }

/-- The interface published for a contract, on the testnet; a failure is none. -/
def publishedFor (network : NetworkId) (address64 : Text) (code : ResolvedCode) :
    Prog ResolveAnswer (Option PublishedInterface) :=
  if network = .testnet then do
    let r ← (resolvePublishedInterface P.engine address64 (knownDeployerOf code)).run.handle
      fun q => Prog.query (ResolveQuery.published q)
    return r.toOption.join
  else return none

def respond (network : NetworkId) (address64 : Text) (code : ResolvedCode)
    (published : Option PublishedInterface) : ContractInterfaceResponse where
  identity :=
    applyPublishedInterface (identifyContract P.contracts network address64 code.code) published
  calledAsContract := code.calledAsContract
  callCount := code.callCount
  historyUnsupported := code.historyUnsupported

/-- What `resolveContractInterface` does when its cache has nothing. -/
def loadContractInterface (network : NetworkId) (address64 : Text) :
    Prog ResolveAnswer ContractInterfaceResponse := do
  let code ← resolveContractCode P address64 (lookupOpts P network)
  let published ← publishedFor P network address64 code
  return respond P network address64 code published

end

/-! ## Published names -/

/-- An interface that was verified, for the deployer found before, from the answers of a load. -/
structure VerifiedIn (P : ResolvePlatform) (network : NetworkId) (address64 : Text)
    (t : Trace ResolveAnswer) (published : PublishedInterface) (code : ResolvedCode) : Prop where
  verified : published.verified = true
  found : ∃ t₁ t₂, t = t₁ ++ t₂.map (Prog.rename ResolveQuery.published) ∧
    Gives (resolveContractCode P address64 (lookupOpts P network)) t₁ code ∧
    ∃ env, Async.exec env (resolvePublishedInterface P.engine address64 (knownDeployerOf code)) [] =
      (.ok (some published), t₂)

variable {P : ResolvePlatform} {network : NetworkId} {address64 : Text}

theorem source_namedBySelectors (decoded : List ℕ) :
    (namedBySelectors decoded).source ≠ .published := by
  rw [namedBySelectors]
  split
  · simp
  · simp

theorem source_identifyContract (sdk : SdkContracts) (code : Option ContractCodeInfo) :
    (identifyContract sdk network address64 code).source ≠ .published := by
  change (nameContract sdk network (h64 (.string address64)) code).source ≠ .published
  rw [nameContract]
  split
  · simp
  · simp
  · split
    · simp
    · exact source_namedBySelectors _

instance : Nonempty (Env Published.Answer) :=
  ⟨fun _ q => match q with
    | .getContractStorage _ _ => show Except JsError Value from .error .typeError
    | .getAccount _ => show Except JsError Value from .error .typeError
    | .fetch _ => show Except JsError Response from .error .typeError⟩

/-- **Published names** come from a document that the same load verified. -/
theorem published_of_gives {t : Trace ResolveAnswer} {v : ContractInterfaceResponse}
    (h : Gives (loadContractInterface P network address64) t v)
    (hsource : v.identity.source = .published) :
    network = .testnet ∧ ∃ published code doc, VerifiedIn P network address64 t published code ∧
      published.doc = some doc ∧ v.identity.functions = doc.functions ∧
      v.identity.published = some published.info := by
  obtain ⟨t₁, t₂, code, rfl, hcode, h⟩ := gives_bind_iff.mp h
  obtain ⟨t₃, t₄, published, rfl, hpublished, h⟩ := gives_bind_iff.mp h
  obtain ⟨rfl, rfl⟩ : t₄ = [] ∧ v = respond P network address64 code published := by
    cases h
    exact ⟨rfl, rfl⟩
  have hident : (identifyContract P.contracts network address64 code.code).source ≠ .published :=
    source_identifyContract P.contracts code.code
  rw [publishedFor] at hpublished
  split at hpublished
  next htest =>
    refine ⟨htest, ?_⟩
    obtain ⟨t₅, t₆, r, rfl, hr, hpublished⟩ := gives_bind_iff.mp hpublished
    obtain ⟨rfl, rfl⟩ : t₆ = [] ∧ published = r.toOption.join := by
      cases hpublished
      exact ⟨rfl, rfl⟩
    obtain ⟨t', rfl, hgives⟩ := Gives.of_handle (B := ResolveAnswer) (f := ResolveQuery.published)
      (p := (resolvePublishedInterface P.engine address64 (knownDeployerOf code)).run) hr
    change Gives (A := Published.Answer) _ t' r at hgives
    obtain ⟨env, henv⟩ := hgives.exists_env
    cases r with
    | error e => exact absurd hsource hident
    | ok found =>
      cases found with
      | none => exact absurd hsource hident
      | some published =>
        change (applyPublishedInterface _ (some published)).source = .published at hsource
        cases hverified : published.verified with
        | false =>
          rw [(applyPublishedInterface_unverified _ hverified).2.2.2.1] at hsource
          exact absurd hsource hident
        | true =>
          cases hdoc : published.doc with
          | none =>
            rw [applyPublishedInterface, hverified, hdoc] at hsource
            exact absurd hsource hident
          | some doc =>
            refine ⟨published, code, doc, ⟨hverified, t₁, t', ?_, hcode, env, henv⟩, hdoc, ?_⟩
            · rw [List.append_nil, List.append_nil]
            · change (applyPublishedInterface _ (some published)).functions = doc.functions ∧
                (applyPublishedInterface _ (some published)).published = some published.info
              rw [applyPublishedInterface, hverified, hdoc]
              exact ⟨rfl, rfl⟩
  next =>
    obtain ⟨-, rfl⟩ : t₃ = [] ∧ published = none := by
      cases hpublished
      exact ⟨rfl, rfl⟩
    exact absurd hsource hident

end BoingObserver.Contract
