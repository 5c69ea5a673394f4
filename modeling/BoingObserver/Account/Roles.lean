import BoingObserver.Account.History
import BoingObserver.Deploy.Address
import BoingObserver.Deploy.Receipt
import BoingObserver.Payload.Summary

/-!
# Roles of an account in a transaction

`rolesForAccountInTx` of `account-tx-history.ts`: what an account has to do with a
transaction, by its sender, its payload, its receipt and its access list.

* `mem_rolesForAccountInTx`: an account has a role iff it plays it (`Plays`).
* `nodup_rolesForAccountInTx`: no role is given twice.
* `rolesForAccountInTx_accessList`: the access list counts for accounts that have
  no other role.
-/

namespace BoingObserver.Account

open Js Rpc Payload Deploy

/-! ## Transactions -/

structure AccessList where
  read : Option (List Value)
  write : Option (List Value)

structure ScanTx where
  sender : Value
  nonce : Value
  payload : Value
  accessList : Option AccessList

def ScanTx.value (tx : ScanTx) : Value :=
  .object [("sender", tx.sender), ("nonce", tx.nonce), ("payload", tx.payload)]

/-! ## Roles -/

section

variable (nt : NumberText) (sdk : Sdk)

def collectAccessListIds (list : Option AccessList) : List Text :=
  match list with
  | none => []
  | some list =>
    ((list.read.getD [] ++ list.write.getD []).map (asAccount64 nt)).filter (· ≠ [])

/-- `if (condition) roles.push(role)` -/
def pushIf (condition : Prop) [Decidable condition] (role : AccountTxRole)
    (roles : List AccountTxRole) : List AccountTxRole :=
  if condition then roles ++ [role] else roles

def batchRoles (want : Text) (roles : List AccountTxRole) (s : BatchStep) : List AccountTxRole :=
  match s with
  | .transfer to' _ => pushIf (asAccount64 nt to' = want ∧ .recipient ∉ roles) .recipient roles
  | .contractCall contract _ _ =>
    pushIf (asAccount64 nt contract = want ∧ .contract ∉ roles) .contract roles
  | .unknown => roles

/-- The account a deploy creates, by its receipt or else by the deploy rules. -/
def createdAccount (tx : ScanTx) (receipt : Value) : Option Text :=
  (tryParseCreatedAccountIdFromDeployReturnData nt (receiptReturnDataHex receipt)).or
    (tryPredictDeployedContractAddressFromDeployTx nt sdk tx.value)

def rolesForAccountInTx (account64 : Text) (tx : ScanTx) (receipt : Value) :
    List AccountTxRole :=
  let want := toLowerCase account64
  let inner := getTxPayloadInner tx.payload
  let kind := getTxPayloadKind tx.payload
  let roles := pushIf (asAccount64 nt tx.sender = want) .sender []
  let roles := pushIf (kind = .known .transfer ∧ asAccount64 nt (inner.get "to") = want)
    .recipient roles
  let roles := pushIf (kind = .known .contractCall ∧ asAccount64 nt (inner.get "contract") = want)
    .contract roles
  let roles :=
    if kind = .known .batch then (batchSteps nt inner).foldl (batchRoles nt want) roles else roles
  let roles := pushIf (isContractDeployPayloadKind kind ∧ ¬ isFailed (receipt.get "success") ∧
    createdAccount nt sdk tx receipt = some want) .created roles
  pushIf (want ∈ collectAccessListIds nt tx.accessList ∧ .sender ∉ roles ∧ .contract ∉ roles ∧
    .recipient ∉ roles ∧ .created ∉ roles) .accessList roles

end

/-! ## What a role means -/

section

variable (nt : NumberText) (sdk : Sdk)

def StepFor (want : Text) (role : AccountTxRole) : BatchStep → Prop
  | .transfer to' _ => role = .recipient ∧ asAccount64 nt to' = want
  | .contractCall contract _ _ => role = .contract ∧ asAccount64 nt contract = want
  | .unknown => False

def BatchFor (want : Text) (payload : Value) (role : AccountTxRole) : Prop :=
  getTxPayloadKind payload = .known .batch ∧
    ∃ s ∈ batchSteps nt (getTxPayloadInner payload), StepFor nt want role s

/-- The account has a part in the transaction other than in its access list. -/
def Plays (want : Text) (tx : ScanTx) (receipt : Value) : AccountTxRole → Prop
  | .sender => asAccount64 nt tx.sender = want
  | .recipient =>
    (getTxPayloadKind tx.payload = .known .transfer ∧
      asAccount64 nt ((getTxPayloadInner tx.payload).get "to") = want) ∨
    BatchFor nt want tx.payload .recipient
  | .contract =>
    (getTxPayloadKind tx.payload = .known .contractCall ∧
      asAccount64 nt ((getTxPayloadInner tx.payload).get "contract") = want) ∨
    BatchFor nt want tx.payload .contract
  | .created =>
    isContractDeployPayloadKind (getTxPayloadKind tx.payload) = true ∧
      ¬ isFailed (receipt.get "success") = true ∧ createdAccount nt sdk tx receipt = some want
  | .accessList => False

end

section

variable {nt : NumberText} {sdk : Sdk} {want : Text} {role : AccountTxRole}
  {roles : List AccountTxRole}

theorem mem_pushIf {condition : Prop} [Decidable condition] {new : AccountTxRole} :
    role ∈ pushIf condition new roles ↔ role ∈ roles ∨ (role = new ∧ condition) := by
  rw [pushIf]
  split
  next h => simp [h]
  next h => simp [h]

theorem mem_pushIf_absent {condition : Prop} [Decidable condition] {new : AccountTxRole} :
    role ∈ pushIf (condition ∧ new ∉ roles) new roles ↔
      role ∈ roles ∨ (role = new ∧ condition) := by
  rw [mem_pushIf]
  by_cases h : role ∈ roles
  · exact iff_of_true (Or.inl h) (Or.inl h)
  · refine or_congr_right (and_congr_right ?_)
    rintro rfl
    exact and_iff_left h

theorem nodup_pushIf {condition : Prop} [Decidable condition] {new : AccountTxRole}
    (h : roles.Nodup) (hnew : condition → new ∉ roles) : (pushIf condition new roles).Nodup := by
  rw [pushIf]
  split
  next hc =>
    refine List.nodup_append.mpr ⟨h, List.nodup_singleton new, ?_⟩
    rintro r hr s hs rfl
    rw [List.mem_singleton] at hs
    exact hnew hc (hs ▸ hr)
  next => exact h

theorem mem_batchRoles {s : BatchStep} :
    role ∈ batchRoles nt want roles s ↔ role ∈ roles ∨ StepFor nt want role s := by
  cases s with
  | transfer to' amount => exact mem_pushIf_absent
  | contractCall contract calldata value => exact mem_pushIf_absent
  | unknown => exact (or_iff_left id).symm

theorem nodup_batchRoles (h : roles.Nodup) (s : BatchStep) : (batchRoles nt want roles s).Nodup := by
  cases s with
  | transfer to' amount => exact nodup_pushIf h And.right
  | contractCall contract calldata value => exact nodup_pushIf h And.right
  | unknown => exact h

theorem mem_foldl_batchRoles {steps : List BatchStep} :
    role ∈ steps.foldl (batchRoles nt want) roles ↔
      role ∈ roles ∨ ∃ s ∈ steps, StepFor nt want role s := by
  induction steps generalizing roles with
  | nil => simp
  | cons s steps ih =>
    rw [List.foldl_cons, ih, mem_batchRoles, or_assoc]
    simp only [List.mem_cons, exists_eq_or_imp]

theorem nodup_foldl_batchRoles {steps : List BatchStep} (h : roles.Nodup) :
    (steps.foldl (batchRoles nt want) roles).Nodup := by
  induction steps generalizing roles with
  | nil => exact h
  | cons s steps ih => exact ih (nodup_batchRoles h s)

theorem mem_payloadBatchRoles {payload : Value} :
    role ∈ (if getTxPayloadKind payload = .known .batch then
        (batchSteps nt (getTxPayloadInner payload)).foldl (batchRoles nt want) roles else roles) ↔
      role ∈ roles ∨ BatchFor nt want payload role := by
  rw [BatchFor]
  split
  next h => rw [mem_foldl_batchRoles, and_iff_right h]
  next h => exact (or_iff_left fun hb => h hb.1).symm

theorem not_batchFor {payload : Value} (hr : role ≠ .recipient) (hc : role ≠ .contract) :
    ¬ BatchFor nt want payload role := by
  rintro ⟨-, s, -, hs⟩
  cases s with
  | transfer to' amount => exact hr hs.1
  | contractCall contract calldata value => exact hc hs.1
  | unknown => exact hs

/-- The roles before the one the access list gives. -/
def partsInTx (nt : NumberText) (sdk : Sdk) (want : Text) (tx : ScanTx) (receipt : Value) :
    List AccountTxRole :=
  let inner := getTxPayloadInner tx.payload
  let kind := getTxPayloadKind tx.payload
  let roles := pushIf (asAccount64 nt tx.sender = want) .sender []
  let roles := pushIf (kind = .known .transfer ∧ asAccount64 nt (inner.get "to") = want)
    .recipient roles
  let roles := pushIf (kind = .known .contractCall ∧ asAccount64 nt (inner.get "contract") = want)
    .contract roles
  let roles :=
    if kind = .known .batch then (batchSteps nt inner).foldl (batchRoles nt want) roles else roles
  pushIf (isContractDeployPayloadKind kind ∧ ¬ isFailed (receipt.get "success") ∧
    createdAccount nt sdk tx receipt = some want) .created roles

variable {tx : ScanTx} {receipt : Value}

theorem rolesForAccountInTx_eq (account64 : Text) :
    rolesForAccountInTx nt sdk account64 tx receipt =
      pushIf (toLowerCase account64 ∈ collectAccessListIds nt tx.accessList ∧
        .sender ∉ partsInTx nt sdk (toLowerCase account64) tx receipt ∧
        .contract ∉ partsInTx nt sdk (toLowerCase account64) tx receipt ∧
        .recipient ∉ partsInTx nt sdk (toLowerCase account64) tx receipt ∧
        .created ∉ partsInTx nt sdk (toLowerCase account64) tx receipt) .accessList
        (partsInTx nt sdk (toLowerCase account64) tx receipt) := rfl

theorem mem_partsInTx :
    role ∈ partsInTx nt sdk want tx receipt ↔ Plays nt sdk want tx receipt role := by
  rw [partsInTx]
  simp only [mem_pushIf, mem_payloadBatchRoles]
  cases role with
  | sender => simp [Plays, not_batchFor]
  | recipient => simp [Plays]
  | contract => simp [Plays]
  | created => simp [Plays, not_batchFor]
  | accessList => simp [Plays, not_batchFor]

theorem created_not_mem_called (c c' c'' : Prop) [Decidable c] [Decidable c'] [Decidable c''] :
    .created ∉ pushIf c'' .contract (pushIf c' .recipient (pushIf c .sender [])) := by
  simp [mem_pushIf]

theorem nodup_partsInTx : (partsInTx nt sdk want tx receipt).Nodup := by
  have hsender : ∀ (c : Prop) [Decidable c], (pushIf c .sender []).Nodup :=
    fun c _ => nodup_pushIf List.nodup_nil fun _ => List.not_mem_nil
  have hcalled : ∀ (c c' c'' : Prop) [Decidable c] [Decidable c'] [Decidable c''],
      (pushIf c'' .contract (pushIf c' .recipient (pushIf c .sender []))).Nodup := by
    intro c c' c'' _ _ _
    refine nodup_pushIf (nodup_pushIf (hsender c) fun _ => ?_) fun _ => ?_
    · simp [mem_pushIf]
    · simp [mem_pushIf]
  rw [partsInTx]
  refine nodup_pushIf ?_ ?_
  · split
    · exact nodup_foldl_batchRoles (hcalled _ _ _)
    · exact hcalled _ _ _
  · intro _ h
    rcases mem_payloadBatchRoles.mp h with h | h
    · exact created_not_mem_called _ _ _ h
    · exact not_batchFor (by decide) (by decide) h

/-- **No role is given twice.** -/
theorem nodup_rolesForAccountInTx (account64 : Text) :
    (rolesForAccountInTx nt sdk account64 tx receipt).Nodup := by
  rw [rolesForAccountInTx_eq]
  exact nodup_pushIf nodup_partsInTx fun _ h => mem_partsInTx.mp h

/-- **An account has a role iff it plays it**; the access list counts for those that play none. -/
theorem mem_rolesForAccountInTx {account64 : Text} :
    role ∈ rolesForAccountInTx nt sdk account64 tx receipt ↔
      Plays nt sdk (toLowerCase account64) tx receipt role ∨
        (role = .accessList ∧ toLowerCase account64 ∈ collectAccessListIds nt tx.accessList ∧
          ∀ r, ¬ Plays nt sdk (toLowerCase account64) tx receipt r) := by
  rw [rolesForAccountInTx_eq, mem_pushIf]
  simp only [mem_partsInTx]
  refine or_congr_right (and_congr_right fun _ => and_congr_right fun _ => ?_)
  constructor
  · rintro ⟨hs, hc, hr, hcr⟩ (_ | _ | _ | _ | _)
    · exact hs
    · exact hr
    · exact hc
    · exact hcr
    · exact id
  · intro h
    exact ⟨h _, h _, h _, h _⟩

/-- **The access list counts for accounts that have no other role.** -/
theorem rolesForAccountInTx_accessList {account64 : Text}
    (h : .accessList ∈ rolesForAccountInTx nt sdk account64 tx receipt) :
    rolesForAccountInTx nt sdk account64 tx receipt = [.accessList] := by
  have hnone : ∀ r, ¬ Plays nt sdk (toLowerCase account64) tx receipt r := by
    rcases mem_rolesForAccountInTx.mp h with h | ⟨-, -, h⟩
    · exact h.elim
    · exact h
  refine List.perm_singleton.mp ?_
  refine (List.perm_ext_iff_of_nodup (nodup_rolesForAccountInTx account64)
    (List.nodup_singleton _)).mpr fun r => ?_
  rw [List.mem_singleton]
  refine ⟨fun hr => ?_, fun hr => hr ▸ h⟩
  rcases mem_rolesForAccountInTx.mp hr with hr | ⟨hr, -⟩
  · exact absurd hr (hnone r)
  · exact hr

theorem created_not_mem_of_failed {account64 : Text} (h : isFailed (receipt.get "success") = true) :
    .created ∉ rolesForAccountInTx nt sdk account64 tx receipt := by
  intro hmem
  rcases mem_rolesForAccountInTx.mp hmem with hp | ⟨hr, -⟩
  · exact hp.2.1 h
  · cases hr

end

end BoingObserver.Account
