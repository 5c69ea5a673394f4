import BoingObserver.Js.Value
import BoingObserver.NativeUnit.Config

/-!
# The RPC endpoints

The URLs of `rpc-client.ts`, from the environment the explorer is started with.

* `nodup_getTestnetRpcCandidates`: each candidate is listed once.
-/

namespace BoingObserver.Rpc

open Js NativeUnit

/-- The variables of `process.env` that name endpoints. -/
structure RpcEnv where
  testnetRpc : Option Text
  mainnetRpc : Option Text
  testnetRpcFallbacks : Option Text

def publicTestnetRpc : Text := "https://testnet-rpc.boing.network"

/-- Hosted origins used when the public hostname is down. -/
def hostedTestnetRpcFallbacks : List Text := ["https://boing-testnet-1.fly.dev"]

/-- `url.replace(/\/$/, "")` -/
def stripSlash (url : Text) : Text := if url.getLast? = some '/' then url.dropLast else url

structure RpcUrls where
  testnet : Text
  mainnet : Text

def getConfiguredRpcUrls (env : RpcEnv) : RpcUrls where
  testnet := stripSlash ((orText env.testnetRpc (some publicTestnetRpc)).getD [])
  mainnet := stripSlash (env.mainnetRpc.getD [])

/-- Testnet origins to try in order: the configured one, those of the environment, the hosted. -/
def getTestnetRpcCandidates (env : RpcEnv) : List Text :=
  let extra := (((env.testnetRpcFallbacks.getD []).splitOn ',').map fun s =>
    stripSlash (trim s)).filter (· ≠ [])
  ((getConfiguredRpcUrls env).testnet :: extra ++ hostedTestnetRpcFallbacks).foldl addNew []

def isMainnetConfigured (env : RpcEnv) : Bool :=
  (getConfiguredRpcUrls env).mainnet ≠ [] &&
    (getConfiguredRpcUrls env).mainnet ≠ (getConfiguredRpcUrls env).testnet

def getRpcBaseUrl (env : RpcEnv) : NetworkId → Except JsError Text
  | .mainnet =>
    if isMainnetConfigured env then .ok (getConfiguredRpcUrls env).mainnet
    else .error (.error "Mainnet RPC is not configured yet.")
  | .testnet => .ok (getConfiguredRpcUrls env).testnet

/-- **Each candidate is listed once.** -/
theorem nodup_getTestnetRpcCandidates (env : RpcEnv) : (getTestnetRpcCandidates env).Nodup :=
  nodup_foldl_addNew List.nodup_nil

end BoingObserver.Rpc
