import BoingObserver.Payload.Kind
import BoingObserver.Rpc.Hex

/-!
# The address of a deploy

`tryPredictDeployedContractAddressFromDeployTx` of `deploy-contract-address.ts`:
CREATE2 when a salt is set, otherwise a hash of sender and nonce.  The SDK's
derivations are a parameter (`Sdk`).
-/

namespace BoingObserver.Deploy

open Js Rpc Payload

/-- What is used of the SDK; `none` is a throw. -/
structure Sdk where
  /-- `hexToBytes(ensureHex(s))` -/
  hexToBytes : Text → Option (List ℕ)
  validateHex32 : Text → Option Text
  predictCreate2ContractAddress : Text → List ℕ → List ℕ → Option Text
  predictNonceDerivedContractAddress : Text → ℕ → Option Text

section

variable (nt : NumberText) (sdk : Sdk)

/-- An array of byte numbers, or a hex text. -/
def bytecodeToBytes (raw : Value) : Option (List ℕ) :=
  match raw with
  | .array items => (Value.asNumbers? items).map uint8From
  | .string s => sdk.hexToBytes (trim s)
  | _ => none

def parseTxNonce (raw : Value) : Option ℕ :=
  match raw with
  | .number x => x.toSafeNat?
  | .string s =>
    if IsDigits (trim s) then some (numeral 10 (trim s)) else none
  | _ => none

def parseCreate2Salt (inner : Fields) : Option (List ℕ) :=
  match inner.get "create2_salt" with
  | .array items =>
    if items.length = 32 then (Value.asNumbers? items).map uint8From else none
  | .string s => (sdk.hexToBytes (trim s)).filter fun b => b.length = 32
  | _ => none

/-- The deployed address of a deploy transaction (64 hex, no `0x`), when it is one. -/
def tryPredictDeployedContractAddressFromDeployTx (tx : Value) : Option Text :=
  let payload := tx.get "payload"
  if ¬ isContractDeployPayloadKind (getTxPayloadKind payload) then none
  else
    let inner := getTxPayloadInner payload
    let sender64 := hexForLink nt (tx.get "sender")
    match bytecodeToBytes sdk (inner.get "bytecode"), parseTxNonce (tx.get "nonce") with
    | some (b :: bytes), some nonce =>
      if sender64.length ≠ 64 then none
      else do
        let senderHex ← sdk.validateHex32 ("0x" ++ sender64)
        let predicted ←
          match parseCreate2Salt sdk inner with
          | some salt => sdk.predictCreate2ContractAddress senderHex salt (b :: bytes)
          | none => sdk.predictNonceDerivedContractAddress senderHex nonce
        return normalizeHex64 (strip0x predicted)
    | _, _ => none

/-- The bytecode of a deploy payload, in hex. -/
def extractBytecodeHex (payload : Value) : Option Text :=
  match (getTxPayloadInner payload).get "bytecode" with
  | .array items => some (items.flatMap fun b => nt.hexByte (nt.number b))
  | .string s => some (toLowerCase (strip0x s))
  | _ => none

end

end BoingObserver.Deploy
