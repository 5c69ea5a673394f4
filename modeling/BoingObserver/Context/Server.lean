import BoingObserver.Context.Directory
import BoingObserver.Context.TokenMetadata
import BoingObserver.Contract.Resolve

/-!
# The context routes

What one server keeps between its requests, and the code of `app/api/tx/context/route.ts`,
`contract-interface-resolve.ts` and `fetchVaultMeta` of `tx-context-rpc.ts` as tasks: any number of
requests run at once, and share three caches.
-/

namespace BoingObserver.Context

open Js Rpc NativeUnit Oracle Tasks Contract

/-! ## State -/

/-- `Directory`; its `at` is `time`. -/
structure Directory where
  time : ℤ
  pools : Map Text PoolMeta
  tokens : Map Text TokenMeta

structure Cached (β : Type) where
  time : ℤ
  value : β

structure Server where
  directories : Map NetworkId Directory
  interfaces : Map Text (Cached ContractInterfaceResponse)
  vaults : Map Text (Cached (Option VaultMeta))

def Server.initial : Server := ⟨Map.empty, Map.empty, Map.empty⟩

/-! ## What is awaited -/

inductive Ask
  /-- Code that has ended is awaited: others may run before the code that called it goes on. -/
  | turn
  | factory (network : NetworkId)
  | dex (network : NetworkId) (q : DexQuery)
  | resolve (network : NetworkId) (q : ResolveQuery)
  | storage (network : NetworkId) (contract key : Text)
  | tokens (network : NetworkId) (ids : List Text)

def Ask.Answer : Ask → Type
  | .turn => Unit
  | .factory _ => Except Failure (Option Text)
  | .dex _ q => DexAnswer q
  | .resolve _ q => ResolveAnswer q
  | .storage _ _ _ => Except Failure Value
  | .tokens _ _ => Except Failure (Map Text TokenMeta)

abbrev Code (β : Type) : Type := Task Server Ask.Answer β

abbrev Asking (β : Type) : Type := Prog Ask.Answer β

def turn : Code Ask.turn.Answer := Task.query Ask.turn

/-- `await f()` for code of the server. -/
def awaited {β : Type} (code : Code β) : Code β := do
  let b ← code
  let _ ← turn
  return b

/-! ## Interfaces -/

def interfaceTtlMs : ℤ := 10 * 60000

section

variable (P : ResolvePlatform)

def askResolve (network : NetworkId) (address64 : Text) : Asking ContractInterfaceResponse :=
  (loadContractInterface P network address64).handle fun q => Prog.query (Ask.resolve network q)

def refreshInterface (network : NetworkId) (address64 : Text) : Code ContractInterfaceResponse := do
  let value ← awaited (Task.ofProg (askResolve P network address64))
  let now ← Task.clock
  Task.modify fun s =>
    { s with interfaces := s.interfaces.set (cacheKey network address64) ⟨now, value⟩ }
  return value

def resolveContractInterface (network : NetworkId) (address64 : Text) :
    Code ContractInterfaceResponse := do
  let s ← Task.state
  match s.interfaces.get (cacheKey network address64) with
  | none => refreshInterface P network address64
  | some hit =>
    let now ← Task.clock
    if now - hit.time < interfaceTtlMs then return hit.value
    else refreshInterface P network address64

end

/-! ## The directory -/

def directoryTtlMs : ℤ := 60000

def directoryMinRefreshMs : ℤ := 15000

/-- The pages of the network's factory; nothing when it has none. -/
def askContents (network : NetworkId) (factory : Option Text) :
    Asking (Except Failure DexContents) :=
  match factory with
  | some (c :: cs) => (readDex (c :: cs)).run.handle fun q => Prog.query (Ask.dex network q)
  | _ => return .ok DexContents.empty

def loadDirectory (network : NetworkId) : Code (Except Failure Directory) := do
  match ← awaited (Task.query (Ask.factory network)) with
  | .error e => return .error e
  | .ok factory =>
    let now ← Task.clock
    let contents ← Task.ofProg (askContents network factory)
    return contents.map fun c => ⟨now, c.pools, c.tokens⟩

/-- A load that fails leaves what there was: stale beats nothing. -/
def refreshDirectory (network : NetworkId) (hit : Option Directory) :
    Code (Except Failure Directory) := do
  match ← awaited (loadDirectory network) with
  | .ok fresh =>
    Task.modify fun s => { s with directories := s.directories.set network fresh }
    return .ok fresh
  | .error e =>
    match hit with
    | some hit => return .ok hit
    | none => return .error e

def Directory.knows (d : Directory) (id : Text) : Bool :=
  (d.pools.get id).isSome || (d.tokens.get id).isSome

def getDirectory (network : NetworkId) (needIds : List Text) : Code (Except Failure Directory) := do
  let s ← Task.state
  match s.directories.get network with
  | none => refreshDirectory network none
  | some hit =>
    let now ← Task.clock
    let age := now - hit.time
    let missing := needIds.any fun id => !hit.knows id
    if age < directoryTtlMs ∧ ¬ (missing ∧ directoryMinRefreshMs < age) then return .ok hit
    else refreshDirectory network (some hit)

/-! ## Vaults -/

def vaultTtlMs : ℤ := 10 * 60000

/-- A vault that is not configured yet is read again after this time. -/
def unconfiguredTtlMs : ℤ := 15000

def zero64 : Text := List.replicate 64 '0'

def slotKey (n : ℕ) : Text := "0x" ++ padHex 64 n

/-- The word of an answer; zero when it is none. -/
def storedWordOf (r : Value) : Text :=
  match r.get "value" with
  | .string s =>
    let v := (toLowerCase (strip0x s)).leftpad 64 '0'
    if IsWord v then v else zero64
  | _ => zero64

def readWord (network : NetworkId) (contract : Text) (slot : ℕ) :
    Async Ask.Answer Failure Text := do
  let r ← (ExceptT.mk (Prog.query (Ask.storage network contract (slotKey slot))) :
    Async Ask.Answer Failure Value)
  return storedWordOf r

def vaultOf (pool tokenA tokenB : Text) : Option VaultMeta :=
  if pool = zero64 ∨ tokenA = zero64 ∨ tokenB = zero64 then none else some ⟨pool, tokenA, tokenB⟩

/-- The pool and the token pair of a vault; the calls, which are awaited together, are asked one
after the other. -/
def askVault (network : NetworkId) (vault : Text) : Async Ask.Answer Failure (Option VaultMeta) := do
  let words ← Async.all [readWord network ("0x" ++ vault) 0xe2,
    readWord network ("0x" ++ vault) 0xe3, readWord network ("0x" ++ vault) 0xe4]
  match words with
  | [pool, tokenA, tokenB] => return vaultOf pool tokenA tokenB
  | _ => return none

def refreshVault (network : NetworkId) (vault : Text) : Code (Except Failure (Option VaultMeta)) := do
  match ← awaited (Task.ofProg (askVault network vault).run) with
  | .error e => return .error e
  | .ok found =>
    let now ← Task.clock
    let time := if found.isSome then now else now - vaultTtlMs + unconfiguredTtlMs
    Task.modify fun s => { s with vaults := s.vaults.set (cacheKey network vault) ⟨time, found⟩ }
    return .ok found

def fetchVaultMeta (network : NetworkId) (vault : Text) :
    Code (Except Failure (Option VaultMeta)) := do
  let s ← Task.state
  match s.vaults.get (cacheKey network vault) with
  | none => refreshVault network vault
  | some hit =>
    let now ← Task.clock
    if now - hit.time < vaultTtlMs then return .ok hit.value else refreshVault network vault

/-! ## The answer -/

structure ContractInfo where
  id : Text
  interfaceId : Option Text
  label : Option Text
  isPool : Bool

/-- `TxContextResponse` -/
structure TxContext where
  contract : Option ContractInfo
  tokens : Map Text TokenMeta
  pools : Map Text PoolMeta
  vaults : Map Text VaultMeta
  labels : Map Text Text

/-- What an answer is made from. -/
structure Sources where
  directory : Directory
  resolved : Option ContractInterfaceResponse
  vault : Option VaultMeta
  tokens : Map Text TokenMeta

/-- The chain's own answer wins where it has one; the DEX directory fills the gaps. -/
def mergeTokenMeta (dex rpc : Option TokenMeta) : Option TokenMeta :=
  match rpc, dex with
  | none, dex => dex
  | some rpc, none => some rpc
  | some rpc, some dex =>
    some ⟨rpc.symbol.or dex.symbol, rpc.name.or dex.name, rpc.decimals.or dex.decimals⟩

/-- `set.add(id)` -/
def addId (ids : List Text) (id : Text) : List Text := if id ∈ ids then ids else ids ++ [id]

namespace ContextQuery

variable (P : ResolvePlatform) (q : ContextQuery)

/-- The ids asked for, and the contract. -/
def want : List Text := if q.contract ≠ [] then q.ids ++ [q.contract] else q.ids

/-- `canonical[id]`, for words, which no object inherits. -/
def canonical (id : Text) : Option Known :=
  if q.network = .testnet then (canonicalTestnetContracts P.contracts).lookup id else none

def isPoolInterface (interfaceId : Option Text) : Bool :=
  interfaceId.any fun id => ("pool-" : Text).isPrefixOf id

def needsResolve (d : Directory) : Bool :=
  q.contract ≠ [] && (q.canonical P q.contract).isNone && (d.pools.get q.contract).isNone

def contractInfo (d : Directory) (resolved : Option ContractInterfaceResponse) :
    Option ContractInfo :=
  if q.contract = [] then none
  else
    match q.canonical P q.contract with
    | some known => some ⟨q.contract, some known.interfaceId, some known.label,
        isPoolInterface (some known.interfaceId)⟩
    | none =>
      match d.pools.get q.contract with
      | some _ => some ⟨q.contract, none, none, true⟩
      | none => resolved.map fun r => ⟨q.contract, r.identity.interfaceId, r.identity.label,
          isPoolInterface r.identity.interfaceId⟩

def isVault (d : Directory) (resolved : Option ContractInterfaceResponse) : Bool :=
  ((q.contractInfo P d resolved).bind (·.interfaceId)) = some "lp-vault-v2"

def labels (resolved : Option ContractInterfaceResponse) : Map Text Text :=
  let known := setAll (q.want.filterMap fun id => (q.canonical P id).map fun c => (id, c.label))
  match resolved.bind fun r => nonEmpty r.identity.label with
  | some label => known.set q.contract label
  | none => known

def pools (d : Directory) (vault : Option VaultMeta) : Map Text PoolMeta :=
  setAll ((q.want ++ (vault.map (·.pool)).toList).filterMap fun id =>
    (d.pools.get id).map fun pool => (id, pool))

/-- Everything that may be a token, most relevant first. -/
def tokenIds (d : Directory) (vault : Option VaultMeta) : List Text :=
  let own := if q.contract ≠ [] then [q.contract] else []
  let pairs := (q.want.filterMap d.pools.get).flatMap fun pool => [pool.tokenA, pool.tokenB]
  let pair := vault.toList.flatMap fun v => [v.tokenA, v.tokenB]
  (own ++ pairs ++ pair ++ q.want).foldl addId []

def vaults (vault : Option VaultMeta) : Map Text VaultMeta :=
  match vault with
  | some v => Map.empty.set q.contract v
  | none => Map.empty

def answer (src : Sources) : TxContext where
  contract := q.contractInfo P src.directory src.resolved
  tokens := setAll ((q.tokenIds src.directory src.vault).filterMap fun id =>
    (mergeTokenMeta (src.directory.tokens.get id) (src.tokens.get id)).map fun t => (id, t))
  pools := q.pools src.directory src.vault
  vaults := q.vaults src.vault
  labels := q.labels P src.resolved

end ContextQuery

/-! ## The requests -/

section

variable (P : ResolvePlatform)

/-- The vault, when the contract is one; a failure is none, as it is not worth failing for. -/
def vaultFor (q : ContextQuery) (d : Directory) (resolved : Option ContractInterfaceResponse) :
    Code (Option VaultMeta) :=
  if q.isVault P d resolved then do
    let r ← awaited (fetchVaultMeta q.network q.contract)
    return r.toOption.join
  else return none

def resolvedFor (q : ContextQuery) (d : Directory) : Code (Option ContractInterfaceResponse) :=
  if q.needsResolve P d then do
    let r ← awaited (resolveContractInterface P q.network q.contract)
    return some r
  else return none

/-- The part of `GET` after the request is read. -/
def getContext (q : ContextQuery) : Code (Except Failure TxContext) := do
  match ← awaited (getDirectory q.network q.want) with
  | .error e => return .error e
  | .ok d =>
    let resolved ← resolvedFor P q d
    let vault ← vaultFor P q d resolved
    let ids := q.tokenIds d vault
    let tokens ← Task.query (Ask.tokens q.network (ids.take maxTokenLookups))
    return .ok (q.answer P ⟨d, resolved, vault, tokens.toOption.getD Map.empty⟩)

/-- `(RPC …)` is added to the node's own errors. -/
def Failure.text : Failure → Text
  | .rpc message method => message ++ " (RPC " ++ method.getD "?" ++ ")"
  | .error message => message
  | .other => "Unknown error"

/-- A request to one of the two routes, once it is read. -/
inductive Job
  | context (q : ContextQuery)
  | interface (network : NetworkId) (address64 : Text)

inductive Reply
  | context (r : Except Text TxContext)
  | interface (value : ContractInterfaceResponse)

def serve : Job → Code Reply
  | .context q => do
    let r ← getContext P q
    return .context (r.mapError Failure.text)
  | .interface network address64 => do
    let value ← resolveContractInterface P network address64
    return .interface value

end

end BoingObserver.Context
