import BoingObserver.Published.Registry

/-!
# Trusting a published interface

`resolvePublishedInterface` of `published-interface.ts` and `applyPublishedInterface`
of `contract-identify.ts`.

* `resolvePublishedInterface_verified`: a verified result has a claimer proven to be
  the deployer, bytes with the recorded hash, and their document; an unverified one
  changes nothing of an identity but its notes.
* `longClaimer_verified`: the claimer counts with its first 32 bytes only.
-/

namespace BoingObserver.Published

open Js Rpc Oracle Contract

/-! ## The result -/

inductive Hosting
  | boing
  | https
  deriving DecidableEq

structure PublishedInterface where
  registry : Text
  claimer : Text
  publisher : Text
  interfaceHash : Text
  uri : Text
  /-- All checks passed: show "Published by deployer" and use these names. -/
  verified : Bool
  deployerVerified : Bool
  hashVerified : Bool
  hosting : Option Hosting := none
  problem : Option Text := none
  doc : Option PublishedDoc := none

structure ResolveOpts where
  registry64 : Option Text := none
  blobStore64 : Option Text := none
  knownDeployer : Option Text := none

def testnetInterfaceRegistry : Text :=
  "bd7373b6a3830768b2cea3768bedc737b43d1f981123c83e7f0d75ebb310fb6c"

def testnetInterfaceBlobStore : Text :=
  "a524837577e67228bf676257e861d29e510a3eddd1a4dbd607f613bbcd37904d"

/-! ## The checks -/

section

variable (engine : Engine)

def knownAccount (opts : ResolveOpts) : Text := h64 (.string (opts.knownDeployer.getD []))

/-- The claimer is the known deployer, or the address one of its nonce-derived deploys. -/
def verifyDeployer (r : RegistryRecord) (address64 : Text) (opts : ResolveOpts) : Reads Bool :=
  if knownAccount opts ≠ [] ∧ knownAccount opts = r.claimer then return true
  else isNonceDeployOf engine r.claimer address64

/-- Where a URI is served from; other URIs are not fetched. -/
def hostingOf (uri : Text) : Option Hosting :=
  if ifaceBlobUriPrefix.isPrefixOf uri then some .boing
  else if ("https://" : Text).isPrefixOf (toLowerCase uri) then some .https
  else none

def readBytes (uri : Text) (hosting : Hosting) (opts : ResolveOpts) : Reads (List ℕ) :=
  match hosting with
  | .boing =>
    readInterfaceBlob engine uri (h64 (.string (opts.blobStore64.getD testnetInterfaceBlobStore)))
  | .https => do
    let r ← fetch uri
    if r.ok then return r.bytes
    else throw (.error ("HTTP " ++ engine.numberText.text r.status))

def obtainBytes (uri : Text) (hosting : Hosting) (opts : ResolveOpts) : Reads (List ℕ) := do
  let bytes ← readBytes engine uri hosting opts
  if maxJsonBytes < bytes.length then throw (.error "too large")
  else return bytes

def judgeBytes (base : PublishedInterface) (bytes : List ℕ) : PublishedInterface :=
  if bytesToHex (engine.blake3 bytes) ≠ base.interfaceHash then
    { base with
      problem := some "Published interface hash does not match the file at its URI; ignored." }
  else
    match parsePublishedDoc engine (engine.decode bytes) with
    | .ok doc => { base with verified := true, hashVerified := true, doc := some doc }
    | .error e =>
      { base with
        hashVerified := true
        problem := some ("Published interface JSON is invalid (" ++ engine.message e ++ ").") }

def resolvePublishedInterface (address64 : Text) (opts : ResolveOpts) :
    Reads (Option PublishedInterface) := do
  let registry := h64 (.string (opts.registry64.getD testnetInterfaceRegistry))
  match ← readRegistryRecord engine registry (h64 (.string address64)) with
  | none => return none
  | some r =>
    let deployerVerified ← verifyDeployer engine r address64 opts
    let base : PublishedInterface :=
      { registry, claimer := r.claimer, publisher := r.publisher,
        interfaceHash := r.interfaceHash, uri := r.uri, deployerVerified,
        verified := false, hashVerified := false }
    if !deployerVerified then
      return some
        { base with problem := some "Registry claimer is not the contract's deployer; ignored." }
    else
      match hostingOf r.uri with
      | none =>
        return some
          { base with
            problem := some "Interface URI is not https or boing://iface-blob/; not fetched." }
      | some hosting =>
        let base := { base with hosting := some hosting }
        match ← Async.attempt (obtainBytes engine r.uri hosting opts) with
        | .error e =>
          return some
            { base with
              problem := some
                ("Published interface could not be fetched (" ++ engine.message e ++ ").") }
        | .ok bytes => return some (judgeBytes engine base bytes)

end

/-! ## Applying the result -/

inductive Source
  | published
  | canonical
  | bytecode
  | selectors
  | none
  deriving DecidableEq

/-- Public fields of a registry record attached to the API response. -/
structure PublishedInfo where
  hosting : Option Hosting
  registry : Text
  claimer : Text
  publisher : Text
  interfaceHash : Text
  uri : Text
  verified : Bool
  deployerVerified : Bool
  hashVerified : Bool

/-- What the explorer says a contract is; `Code` stands for its deploy's fields. -/
structure IdentifiedContract (Code : Type) where
  address : Text
  source : Source
  interfaceId : Option Text
  label : Option Text
  summary : Option Text
  docsUrl : Option Text
  functions : List ContractFunction
  decodedSelectors : List ℕ
  unknownSelectors : List ℕ
  code : Option Code
  notes : List Text
  published : Option PublishedInfo := Option.none

def PublishedInterface.info (pub : PublishedInterface) : PublishedInfo :=
  { pub with }

def applyPublishedInterface {Code : Type} (id : IdentifiedContract Code)
    (pub : Option PublishedInterface) : IdentifiedContract Code :=
  match pub with
  | .none => id
  | some pub =>
    match pub.verified, pub.doc with
    | true, some doc =>
      { id with
        source := .published
        label := doc.name.or id.label
        summary := doc.summary.or id.summary
        functions := doc.functions
        unknownSelectors :=
          id.decodedSelectors.filter fun s => s ∉ doc.functions.map ContractFunction.selector
        published := some pub.info }
    | _, _ =>
      { id with
        published := some pub.info
        notes := match pub.problem with
          | some (c :: cs) => id.notes ++ [c :: cs]
          | _ => id.notes }

/-! ## Trust -/

def SameNames {Code : Type} (id id' : IdentifiedContract Code) : Prop :=
  id'.functions = id.functions ∧ id'.label = id.label ∧ id'.summary = id.summary ∧
    id'.source = id.source ∧ id'.unknownSelectors = id.unknownSelectors

theorem applyPublishedInterface_unverified {Code : Type} (id : IdentifiedContract Code)
    {pub : PublishedInterface} (h : pub.verified = false) :
    SameNames id (applyPublishedInterface id (some pub)) := by
  rw [applyPublishedInterface, h]
  exact ⟨rfl, rfl, rfl, rfl, rfl⟩

section

variable (engine : Engine) (env : Env Answer) (tr tr' : Trace Answer) (address64 : Text)
  (opts : ResolveOpts) (p : PublishedInterface)

def Recorded : Prop :=
  ∃ r tr₁, Async.exec env (readRegistryRecord engine
      (h64 (.string (opts.registry64.getD testnetInterfaceRegistry))) (h64 (.string address64))) tr =
        (.ok (some r), tr₁) ∧
    p.claimer = r.claimer ∧ p.interfaceHash = r.interfaceHash ∧ p.uri = r.uri

/-- The claimer is the known deployer, or the address is derived from its account and a nonce
below both the reported one and the limit of the scan. -/
def ClaimerDeployed : Prop :=
  p.claimer = knownAccount opts ∨
    ∃ acc n, accountEntry ("0x" ++ p.claimer) (.ok acc) ∈ tr' ∧ n < 200000 ∧
      below n (reportedNonce engine acc) ∧
      h64 (.string address64) =
        bytesToHex (engine.blake3 (accountBytes p.claimer ++ leBytes 8 n))

/-- The bytes obtained last have the recorded hash and a bounded size, and the document is
theirs. -/
def BytesVerified : Prop :=
  ∃ hosting bytes tr₀, tr <+: tr₀ ∧
    Async.exec env (obtainBytes engine p.uri hosting opts) tr₀ = (.ok bytes, tr') ∧
    bytesToHex (engine.blake3 bytes) = p.interfaceHash ∧ bytes.length ≤ 131072 ∧
    ∃ doc, p.doc = some doc ∧ parsePublishedDoc engine (engine.decode bytes) = .ok doc

end

section

variable {engine : Engine} {env : Env Answer} {tr tr' : Trace Answer} {address64 : Text}
  {opts : ResolveOpts}

theorem verifyDeployer_eq_true {r : RegistryRecord}
    (h : Async.exec env (verifyDeployer engine r address64 opts) tr = (.ok true, tr')) :
    r.claimer = knownAccount opts ∨
      ∃ acc n, accountEntry ("0x" ++ r.claimer) (.ok acc) ∈ tr' ∧ n < 200000 ∧
        below n (reportedNonce engine acc) ∧
        h64 (.string address64) =
          bytesToHex (engine.blake3 (accountBytes r.claimer ++ leBytes 8 n)) := by
  rw [verifyDeployer] at h
  split at h
  next hknown => exact Or.inl hknown.2.symm
  next =>
    obtain ⟨acc, n, hmem, hn, hb, ha⟩ := isNonceDeployOf_eq_true h
    exact Or.inr ⟨acc, n, hmem, hn, hb, nonceDerivedAddress_eq_ok ha⟩

theorem obtainBytes_length {uri : Text} {hosting : Hosting} {bytes : List ℕ}
    (h : Async.exec env (obtainBytes engine uri hosting opts) tr = (.ok bytes, tr')) :
    bytes.length ≤ maxJsonBytes := by
  obtain ⟨bytes', tr₁, -, h⟩ := Async.exec_bind_eq_ok h
  split at h
  · cases h
  next hlen =>
    obtain rfl : bytes' = bytes := Except.ok.inj (congrArg Prod.fst h)
    exact not_lt.mp hlen

theorem judgeBytes_verified {base : PublishedInterface} {bytes : List ℕ}
    (hbase : base.verified = false) (h : (judgeBytes engine base bytes).verified = true) :
    bytesToHex (engine.blake3 bytes) = base.interfaceHash ∧
      ∃ doc, parsePublishedDoc engine (engine.decode bytes) = .ok doc ∧
        judgeBytes engine base bytes =
          { base with verified := true, hashVerified := true, doc := some doc } := by
  rw [judgeBytes] at h ⊢
  split at h
  next =>
    rw [hbase] at h
    cases h
  next hhash =>
    rw [if_neg hhash]
    refine ⟨not_not.mp hhash, ?_⟩
    cases hdoc : parsePublishedDoc engine (engine.decode bytes) with
    | ok doc => exact ⟨doc, rfl, rfl⟩
    | error e =>
      rw [hdoc] at h
      exact absurd (hbase.symm.trans h) (by decide)

/-- **A verified interface is the deployer's**, and an unverified one renames nothing. -/
theorem resolvePublishedInterface_verified (engine : Engine) (env : Env Answer)
    (tr : Trace Answer) (address64 : Text) (opts : ResolveOpts) :
    (∀ p tr', Async.exec env (resolvePublishedInterface engine address64 opts) tr =
        (.ok (some p), tr') → p.verified = true →
      Recorded engine env tr address64 opts p ∧ ClaimerDeployed engine tr' address64 opts p ∧
        BytesVerified engine env tr tr' opts p) ∧
    (∀ claimer : Text, (hexToBytes claimer).length = 32 →
      accountBytes claimer = hexToBytes claimer) ∧
    ∀ (Code : Type) (id : IdentifiedContract Code) (p : PublishedInterface), p.verified = false →
      SameNames id (applyPublishedInterface id (some p)) := by
  refine ⟨?_, fun _ h => accountBytes_eq h,
    fun Code id p h => applyPublishedInterface_unverified id h⟩
  intro p tr' h hv
  obtain ⟨_ | r, tr₁, hrec, h⟩ := Async.exec_bind_eq_ok h
  · cases h
  obtain ⟨deployerVerified, tr₂, hdep, h⟩ := Async.exec_bind_eq_ok h
  cases deployerVerified with
  | false =>
    obtain rfl := Option.some.inj (Except.ok.inj (congrArg Prod.fst h))
    cases hv
  | true =>
    split at h
    next hf => cases hf
    split at h
    next =>
      obtain rfl := Option.some.inj (Except.ok.inj (congrArg Prod.fst h))
      cases hv
    next hosting hhost =>
      obtain ⟨result, tr₃, hget, h⟩ := Async.exec_bind_eq_ok h
      rw [Async.exec_attempt] at hget
      have hresult := Except.ok.inj (congrArg Prod.fst hget)
      have htr₃ := congrArg Prod.snd hget
      cases result with
      | error e =>
        obtain rfl := Option.some.inj (Except.ok.inj (congrArg Prod.fst h))
        cases hv
      | ok bytes =>
        have htr : tr₃ = tr' := congrArg Prod.snd h
        have hget' : Async.exec env (obtainBytes engine r.uri hosting opts) tr₂ =
            (.ok bytes, tr') := Prod.ext hresult (htr₃.trans htr)
        obtain rfl := Option.some.inj (Except.ok.inj (congrArg Prod.fst h))
        obtain ⟨hhash, doc, hdoc, heq⟩ := judgeBytes_verified rfl hv
        rw [heq]
        refine ⟨⟨r, tr₁, hrec, rfl, rfl, rfl⟩, ?_, ?_⟩
        · rcases verifyDeployer_eq_true hdep with hknown | ⟨acc, n, hmem, hn⟩
          · exact Or.inl hknown
          · exact Or.inr ⟨acc, n, (Async.prefix_of_exec hget').subset hmem, hn⟩
        · refine ⟨hosting, bytes, tr₂, ?_, hget', hhash, obtainBytes_length hget', doc, rfl, hdoc⟩
          exact (Async.prefix_of_exec hrec).trans (Async.prefix_of_exec hdep)

end

/-! ## A claimer of more than 32 bytes -/

def verifiedClaimer : Except JsError (Option PublishedInterface) → Option Text
  | .ok (some p) => if p.verified then some p.claimer else none
  | _ => none

theorem exists_of_verifiedClaimer
    {r : Except JsError (Option PublishedInterface) × Trace Answer} {c : Text}
    (h : verifiedClaimer r.1 = some c) :
    ∃ p tr', r = (.ok (some p), tr') ∧ p.verified = true ∧ p.claimer = c := by
  rcases r with ⟨e | _ | p, tr'⟩
  · cases h
  · cases h
  · rw [verifiedClaimer] at h
    split at h
    next hv => exact ⟨p, tr', rfl, hv, Option.some.inj h⟩
    next => cases h

namespace LongClaimer

def account : Text := List.replicate 64 'a'

def address : Text := "645eb86b941da9de86afcb525734ad7c1cad39c8aa4c606d678f4deffb2bcb17"

def docText : Text := "\x7b\"functions\":[]\x7d"

def docHash : Text := "bfe1aedf2daa879e9351b10766c9fdb1b4b018ef3f399d4f57a17687aecd3b02"

/-- The hash of the account, a zero byte and the nonce zero. -/
def longHash : Text := "d69aedebb2c18a60d20dfaf60497187446318ad2c5433245871f6b3c08104128"

def engine : Engine where
  numberText := integersOnly
  blake3 bytes :=
    if bytes = hexToBytes account ++ leBytes 8 0 then hexToBytes address
    else if bytes = hexToBytes account ++ [0] ++ leBytes 8 0 then hexToBytes longHash
    else if bytes = docText.map Char.toNat then hexToBytes docHash
    else []
  decode bytes := bytes.map Char.ofNat
  parse text :=
    if text = docText then .ok (.object [("functions", .array [])])
    else .error (.error "Unexpected end of JSON input")
  inflateRaw := .ok
  engineMessage _ := []

def uri : Text := "https://boing.network/i.json"

def storage (claimer : Text) : List (Text × Text) :=
  [("0x" ++ fieldKey address 0, "0x" ++ docHash), ("0x" ++ claimerKey address, "0x" ++ claimer),
    ("0x" ++ fieldKey address 1, "0x" ++ padHex 64 uri.length),
    ("0x" ++ fieldKey address 2, "0x" ++ bytesToHex (asciiWord uri))]

def node (claimer : Text) : Env Answer := fun _ q =>
  match q with
  | .getContractStorage _ key =>
    show Except JsError Value from
      .ok (.object [("value", .string (((storage claimer).lookup key).getD "0x"))])
  | .getAccount _ =>
    show Except JsError Value from .ok (.object [("nonce", .number (.ofNat 1))])
  | .fetch _ => show Except JsError Response from .ok ⟨true, .ofNat 200, docText.map Char.toNat⟩

end LongClaimer

open LongClaimer in
/-- An account of 32 bytes, verified. -/
theorem resolvePublishedInterface_verified_account :
    ∃ p tr', Async.exec (node account) (resolvePublishedInterface engine address {}) [] =
        (.ok (some p), tr') ∧ p.verified = true ∧
      Recorded engine (node account) [] address {} p ∧ ClaimerDeployed engine tr' address {} p ∧
        BytesVerified engine (node account) [] tr' {} p := by
  obtain ⟨p, tr', hrun, hv, -⟩ := exists_of_verifiedClaimer
    (show verifiedClaimer (Async.exec (node account)
      (resolvePublishedInterface engine address {}) []).1 = some account by decide +kernel)
  exact ⟨p, tr', hrun, hv,
    (resolvePublishedInterface_verified engine (node account) [] address {}).1 p tr' hrun hv⟩

open LongClaimer in
/-- The address is no hash of the longer claimer and any nonce. -/
theorem longClaimer_hash (n : ℕ) : h64 (.string address) ≠
    bytesToHex (engine.blake3 (hexToBytes (account ++ "00") ++ leBytes 8 n)) := by
  have hlen : (hexToBytes (account ++ "00")).length = 33 := rfl
  have hshort : hexToBytes (account ++ "00") ++ leBytes 8 n ≠
      hexToBytes account ++ leBytes 8 0 := by
    intro h
    have h' := congrArg List.length h
    rw [List.length_append, List.length_append, hlen, length_leBytes, length_leBytes] at h'
    exact absurd h' (by decide)
  have hdoc : hexToBytes (account ++ "00") ++ leBytes 8 n ≠ docText.map Char.toNat := by
    intro h
    have h' := congrArg List.length h
    rw [List.length_append, hlen, length_leBytes] at h'
    exact absurd h' (by decide)
  rw [engine]
  simp only [if_neg hshort, if_neg hdoc]
  split
  · decide +kernel
  · decide +kernel

open LongClaimer in
/-- **A claimer of 33 bytes is verified**, though the address is no hash of it and a nonce: the
33rd byte is overwritten by the nonce. -/
theorem longClaimer_verified :
    ∃ p tr', Async.exec (node (account ++ "00")) (resolvePublishedInterface engine address {}) [] =
        (.ok (some p), tr') ∧ p.verified = true ∧ p.claimer = account ++ "00" ∧
      p.claimer ≠ knownAccount {} ∧
      ∀ n, h64 (.string address) ≠
        bytesToHex (engine.blake3 (hexToBytes p.claimer ++ leBytes 8 n)) := by
  obtain ⟨p, tr', hrun, hv, hc⟩ := exists_of_verifiedClaimer
    (show verifiedClaimer (Async.exec (node (account ++ "00"))
      (resolvePublishedInterface engine address {}) []).1 = some (account ++ "00") by
        decide +kernel)
  refine ⟨p, tr', hrun, hv, hc, ?_, ?_⟩
  · rw [hc]
    decide
  · intro n
    rw [hc]
    exact longClaimer_hash n

end BoingObserver.Published
