import BoingObserver.Oracle
import BoingObserver.Published.Bytes
import BoingObserver.Published.Doc

/-!
# Reading the interface registry and the blob store

The reads of `published-interface.ts` as programs over three calls: a storage word
of a contract, an account, and a fetch.  Each may be answered in any way, or throw.

* `accountBytes_eq`: an account of 32 bytes goes into the derived address whole.
* `scanNonces_eq_true`: the nonce scan says yes only for a nonce whose derived
  address is the target.
* `isNonceDeployOf_eq_true`: so the address is a deploy of the sender, at a nonce
  below the one the node reported.
-/

namespace BoingObserver.Published

open Js Rpc Oracle

/-! ## Calls -/

inductive Query
  | getContractStorage (contract key : Text)
  | getAccount (account : Text)
  | fetch (url : Text)
  deriving DecidableEq

structure Response where
  ok : Bool
  status : Number
  bytes : List ℕ

def Answer : Query → Type
  | .getContractStorage _ _ => Except JsError Value
  | .getAccount _ => Except JsError Value
  | .fetch _ => Except JsError Response

/-- What a page does on the network. -/
abbrev Reads (α : Type) : Type := Async Answer JsError α

def getContractStorage (contract key : Text) : Reads Value :=
  ExceptT.mk (Prog.query (Query.getContractStorage contract key))

def getAccount (account : Text) : Reads Value :=
  ExceptT.mk (Prog.query (Query.getAccount account))

def fetch (url : Text) : Reads Response := ExceptT.mk (Prog.query (Query.fetch url))

/-! ## Interface blobs -/

def maxJsonBytes : ℕ := 128 * 1024

def blobMaxStoredBytes : ℕ := 24 * 1024

/-- The indices of `n` words, asked for sixteen at a time. -/
def wordBatches (n : ℕ) : List (List ℕ) :=
  (List.range ((n + 15) / 16)).map fun b =>
    (List.range (min 16 (n - 16 * b))).map fun j => 16 * b + j + 1

section

variable (engine : Engine)

/-- Word `i` of a blob, as 64 hex digits. -/
def blobWord (store64 writer : Text) (id i : ℕ) : Reads Text := do
  let r ← getContractStorage ("0x" ++ store64) ("0x" ++ blobKey writer id i)
  return (h64 ((r.get "value").orElse (.string []))).leftpad 64 '0'

/-- Read a `boing://iface-blob/` URI from chain storage: the exact JSON bytes. -/
def readInterfaceBlob (uri store64 : Text) : Reads (List ℕ) := do
  match parseBlobUri uri with
  | none => throw (.error "bad boing:// URI")
  | some (writer, id) =>
    let word := blobWord store64 writer id
    let header := hexToBytes (← word 0)
    let len := numeral 16 (bytesToHex (header.drop 24))
    if engine.decode (header.take 4) ≠ "BIF1" then throw (.error "blob not found")
    else if len = 0 ∨ blobMaxStoredBytes < len then throw (.error "bad blob length")
    else
      let words ← (wordBatches ((len + 31) / 32)).mapM fun batch => Async.all (batch.map word)
      let stored := (hexToBytes words.flatten.flatten).take len
      match header.getD 4 0 with
      | 0 => return stored
      | 1 => Async.ofExcept (engine.inflateRaw stored)
      | encoding => throw (.error ("unknown blob encoding " ++ decimal encoding))

/-! ## Registry records -/

def interfaceRegistryMaxUriBytes : ℕ := 192

structure RegistryRecord where
  claimer : Text
  publisher : Text
  interfaceHash : Text
  uri : Text

def registryWord (registry64 key : Text) : Reads Text := do
  let r ← getContractStorage ("0x" ++ registry64) ("0x" ++ key)
  return (h64 (r.get "value")).leftpad 64 '0'

def readRegistryRecord (registry64 address64 : Text) : Reads (Option RegistryRecord) := do
  let read := registryWord registry64
  let hash ← read (fieldKey address64 0)
  if hash = List.replicate 64 '0' then return none
  else
    let claimer ← Async.attempt (read (claimerKey address64))
    let publisher ← Async.attempt (read (fieldKey address64 8))
    let lenW ← Async.attempt (read (fieldKey address64 1))
    let claimer ← Async.ofExcept claimer
    let publisher ← Async.ofExcept publisher
    let lenW ← Async.ofExcept lenW
    let len := (min ((parseInt16 (lenW.drop 48)).getD 0) interfaceRegistryMaxUriBytes).toNat
    let words ← Async.all ((List.range ((len + 31) / 32)).map fun i =>
      read (fieldKey address64 (2 + i)))
    let uri := engine.decode ((hexToBytes words.flatten).take len)
    return some { claimer, publisher, interfaceHash := hash, uri }

/-! ## Nonce-derived deploys -/

def maxNonceScan : ℕ := 200000

/-- The first 32 bytes of the buffer a sender is written to. -/
def accountBytes (sender64 : Text) : List ℕ :=
  (hexToBytes sender64 ++ List.replicate 32 0).take 32

/-- `BLAKE3(sender || nonce_le)`; a sender that does not fit the 40 bytes throws, and the nonce
is written over the last eight. -/
def nonceDerivedAddress (sender64 : Text) (nonce : ℕ) : Except JsError Text :=
  if 40 < (hexToBytes sender64).length then .error .rangeError
  else .ok (bytesToHex (engine.blake3 (accountBytes sender64 ++ leBytes 8 nonce)))

/-- `i < x` -/
def below (i : ℕ) : Number → Bool
  | .finite q => (i : ℚ) < q
  | .nan => false
  | .infinite negative => !negative

/-- The nonces from `i` on, `fuel` of them, as long as they are below the current one. -/
def scanNonces (sender64 target : Text) (nonce : Number) : ℕ → ℕ → Except JsError Bool
  | 0, _ => .ok false
  | fuel + 1, i =>
    if below i nonce then do
      if (← nonceDerivedAddress engine sender64 i) = target then return true
      else scanNonces sender64 target nonce fuel (i + 1)
    else .ok false

/-- `Number(acc?.nonce ?? 0)` -/
def reportedNonce (acc : Value) : Number :=
  engine.numberText.number ((acc.get "nonce").orElse (.number (.ofNat 0)))

def isNonceDeployOf (sender64 address64 : Text) : Reads Bool := do
  match ← Async.attempt (getAccount ("0x" ++ sender64)) with
  | .error _ => return false
  | .ok acc =>
    Async.ofExcept (scanNonces engine sender64 (h64 (.string address64))
      (reportedNonce engine acc) maxNonceScan 0)

end

section

variable {engine : Engine} {env : Env Answer} {tr tr' : Trace Answer}

theorem accountBytes_eq {sender64 : Text} (h : (hexToBytes sender64).length = 32) :
    accountBytes sender64 = hexToBytes sender64 := by
  rw [accountBytes, List.take_append_of_le_length h.ge, List.take_of_length_le h.le]

theorem nonceDerivedAddress_eq_ok {sender64 a : Text} {nonce : ℕ}
    (h : nonceDerivedAddress engine sender64 nonce = .ok a) :
    a = bytesToHex (engine.blake3 (accountBytes sender64 ++ leBytes 8 nonce)) := by
  rw [nonceDerivedAddress] at h
  split at h
  · cases h
  · exact (Except.ok.inj h).symm

/-- **The scan says yes for a nonce it tried.** -/
theorem scanNonces_eq_true {sender64 target : Text} {nonce : Number} {fuel i : ℕ}
    (h : scanNonces engine sender64 target nonce fuel i = .ok true) :
    ∃ n, n < i + fuel ∧ below n nonce ∧ nonceDerivedAddress engine sender64 n = .ok target := by
  induction fuel generalizing i with
  | zero => cases h
  | succ fuel ih =>
    rw [scanNonces] at h
    split at h
    next hb =>
      obtain ⟨a, ha, h⟩ := bind_eq_ok h
      split at h
      next heq => exact ⟨i, by omega, hb, ha.trans (congrArg _ heq)⟩
      next =>
        obtain ⟨n, hn, hbn, ht⟩ := ih h
        exact ⟨n, by omega, hbn, ht⟩
    next => cases h

def accountEntry (account : Text) (answer : Except JsError Value) : Σ q, Answer q :=
  ⟨.getAccount account, answer⟩

/-- **A deploy at a nonce below the one the node reported.** -/
theorem isNonceDeployOf_eq_true {sender64 address64 : Text}
    (h : Async.exec env (isNonceDeployOf engine sender64 address64) tr = (.ok true, tr')) :
    ∃ acc n, accountEntry ("0x" ++ sender64) (.ok acc) ∈ tr' ∧ n < maxNonceScan ∧
      below n (reportedNonce engine acc) ∧
      nonceDerivedAddress engine sender64 n = .ok (h64 (.string address64)) := by
  obtain ⟨answer, tr₁, hq, h⟩ := Async.exec_bind_eq_ok h
  rw [Async.exec_attempt] at hq
  have htr : tr ++ [accountEntry ("0x" ++ sender64) answer] = tr₁ := by
    rw [← Except.ok.inj (congrArg Prod.fst hq)]
    exact congrArg Prod.snd hq
  cases answer with
  | error e => cases h
  | ok acc =>
    have hscan := congrArg Prod.fst h
    obtain ⟨n, hn, hb, ha⟩ := scanNonces_eq_true hscan
    refine ⟨acc, n, ?_, by omega, hb, ha⟩
    rw [← show tr₁ = tr' from congrArg Prod.snd h, ← htr]
    exact List.mem_append_right _ List.mem_cons_self

end

end BoingObserver.Published
