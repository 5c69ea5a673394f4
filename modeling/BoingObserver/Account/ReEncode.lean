import BoingObserver.Account.Roles
import BoingObserver.Payload.ReEncode

/-!
# Encodings of account ids

A node gives a 32-byte account id as the array of its bytes, as hex, or as hex with
`0x`, in any letter case of the digits.  What `rolesForAccountInTx` answers does not
depend on which.

* `SameAccount.asAccount64_eq`: every encoding of an id is read as the same account.
* `keepsKind_payloadField`: re-encoded payloads are of one kind.
* `rolesForAccountInTx_reEncoded`: re-encoded transactions have the same roles.
-/

namespace BoingObserver.Account

open Js Rpc Payload Deploy

/-! ## Accounts -/

/-- One value, or two encodings of one 32-byte id. -/
def SameAccount (v w : Value) : Prop :=
  v = w ∨ ∃ bytes : List ℕ, (∀ b ∈ bytes, b < 256) ∧ bytes.length = 32 ∧ Encodes bytes v ∧
    Encodes bytes w

section

variable {nt : NumberText} {v w : Value}

theorem SameAccount.refl (v : Value) : SameAccount v v := Or.inl rfl

theorem SameAccount.hexForLink_eq (h : SameAccount v w) : hexForLink nt v = hexForLink nt w := by
  rcases h with rfl | ⟨bytes, hb, -, hv, hw⟩
  · rfl
  · rw [hexForLink_eq_of_encodes nt hb hv, hexForLink_eq_of_encodes nt hb hw]

theorem SameAccount.asAccount64_eq (h : SameAccount v w) : asAccount64 nt v = asAccount64 nt w := by
  rw [asAccount64, asAccount64, h.hexForLink_eq]

end

/-! ## Fields -/

/-- A field of a step: `to` and `contract` may be re-encoded. -/
def StepField (k : Text) (v w : Value) : Prop :=
  v = w ∨ ((k = "to" ∨ k = "contract") ∧ SameAccount v w)

def PayloadField (k : Text) (v w : Value) : Prop :=
  StepField k v w ∨ (k = "calls" ∧ ∃ cs cs', v = .array cs ∧ w = .array cs' ∧
    List.Forall₂ (Wrapped StepField) cs cs')

theorem PayloadField.eq {k : Text} {v w : Value} (h : PayloadField k v w)
    (hk : k ≠ "to" ∧ k ≠ "contract" ∧ k ≠ "calls") : v = w := by
  rcases h with (h | ⟨h | h, -⟩) | ⟨h, -⟩
  · exact h
  · exact absurd h hk.1
  · exact absurd h hk.2.1
  · exact absurd h hk.2.2

theorem PayloadField.eq_of_tag {k : Text} {v w : Value} (h : PayloadField k v w)
    (hk : resolveTaggedPayloadKind k ≠ none) : v = w := by
  refine h.eq ⟨?_, ?_, ?_⟩
  · rintro rfl
    exact hk (field_not_tag "to" (by decide))
  · rintro rfl
    exact hk (field_not_tag "contract" (by decide))
  · rintro rfl
    exact hk (field_not_tag "calls" (by decide))

theorem StepField.refl (k : Text) (v : Value) : StepField k v v := Or.inl rfl

theorem PayloadField.refl (k : Text) (v : Value) : PayloadField k v v := Or.inl (.refl k v)

theorem StepField.payload {k : Text} {v w : Value} (h : StepField k v w) : PayloadField k v w :=
  Or.inl h

section

variable {p p' : Fields}

theorem PayloadField.asAccount64_eq {nt : NumberText} {k : Text} {v w : Value}
    (h : PayloadField k v w) (hk : k ≠ "calls") : asAccount64 nt v = asAccount64 nt w := by
  rcases h with (rfl | ⟨-, h⟩) | ⟨h, -⟩
  · rfl
  · exact h.asAccount64_eq
  · exact absurd h hk

theorem calls_related (h : Related PayloadField p p') :
    List.Forall₂ (Wrapped StepField) (((p.get "calls").asArray?).getD [])
        (((p'.get "calls").asArray?).getD []) ∧
      (p.get "calls").asArray?.isSome = (p'.get "calls").asArray?.isSome := by
  rcases h.get PayloadField.refl "calls" with (h | ⟨h | h, -⟩) | ⟨-, cs, cs', hv, hw, hcs⟩
  · rw [h]
    exact ⟨List.forall₂_same.mpr fun c _ => .same c, rfl⟩
  · exact absurd h (by decide)
  · exact absurd h (by decide)
  · rw [hv, hw]
    exact ⟨hcs, rfl⟩

theorem keepsKind_payloadField : KeepsKind PayloadField where
  refl := PayloadField.refl
  eq_of_tag _ _ _ h := h.eq_of_tag
  eq_of_read k hk v w h := by
    refine h.eq ?_
    rcases hk with - | ⟨_, - | ⟨_, - | ⟨_, hk⟩⟩⟩
    · decide
    · decide
    · decide
    · cases hk
  isArray v w h := by
    rcases h with (rfl | ⟨h | h, -⟩) | ⟨-, cs, cs', rfl, rfl, -⟩
    · rfl
    · exact absurd h (by decide)
    · exact absurd h (by decide)
    · rfl

end

/-! ## Batches -/

section

variable {nt : NumberText} {want : Text} {roles : List AccountTxRole}

theorem batchRoles_eq {c c' : Value} (h : Wrapped StepField c c') :
    batchRoles nt want roles (batchStep nt c) = batchRoles nt want roles (batchStep nt c') := by
  have hunwrap := unwrap_related StepField.refl
    (fun k v w hs ht => PayloadField.eq_of_tag hs.payload ht) h
  obtain ⟨htag, hinner⟩ := hunwrap
  have hinner' : Related PayloadField (unwrapTaggedPayload c).1 (unwrapTaggedPayload c').1 :=
    hinner.mono fun _ _ _ => StepField.payload
  have hflat := getTxPayloadKindFlat_eq keepsKind_payloadField hinner'
  have hto : asAccount64 nt ((unwrapTaggedPayload c).1.get "to") =
      asAccount64 nt ((unwrapTaggedPayload c').1.get "to") :=
    (hinner'.get PayloadField.refl "to").asAccount64_eq (by decide)
  have hcontract : asAccount64 nt ((unwrapTaggedPayload c).1.get "contract") =
      asAccount64 nt ((unwrapTaggedPayload c').1.get "contract") :=
    (hinner'.get PayloadField.refl "contract").asAccount64_eq (by decide)
  have hkind : (unwrapTaggedPayload c).2.getD (getTxPayloadKindFlat (unwrapTaggedPayload c).1) =
      (unwrapTaggedPayload c').2.getD (getTxPayloadKindFlat (unwrapTaggedPayload c').1) := by
    rw [htag, hflat]
  rw [batchStep, batchStep]
  dsimp only
  rw [hkind]
  generalize (unwrapTaggedPayload c').2.getD _ = kind
  split
  · change pushIf _ _ _ = pushIf _ _ _
    rw [hto]
  · change pushIf _ _ _ = pushIf _ _ _
    rw [hcontract]
  · rfl

theorem foldl_batchRoles_eq {cs cs' : List Value} (h : List.Forall₂ (Wrapped StepField) cs cs') :
    (cs.map (batchStep nt)).foldl (batchRoles nt want) roles =
      (cs'.map (batchStep nt)).foldl (batchRoles nt want) roles := by
  induction h generalizing roles with
  | nil => rfl
  | cons hc _ ih =>
    rw [List.map_cons, List.map_cons, List.foldl_cons, List.foldl_cons, batchRoles_eq hc]
    exact ih

end

/-! ## Transactions -/

def IdsReEncoded : Option (List Value) → Option (List Value) → Prop
  | some ids, some ids' => List.Forall₂ SameAccount ids ids'
  | none, none => True
  | _, _ => False

def AccessReEncoded : Option AccessList → Option AccessList → Prop
  | some l, some l' => IdsReEncoded l.read l'.read ∧ IdsReEncoded l.write l'.write
  | none, none => True
  | _, _ => False

/-- A transaction with the 32-byte ids in it re-encoded, each in its own way. -/
structure ReEncoded (tx tx' : ScanTx) : Prop where
  sender : SameAccount tx.sender tx'.sender
  nonce : tx.nonce = tx'.nonce
  payload : Wrapped PayloadField tx.payload tx'.payload
  accessList : AccessReEncoded tx.accessList tx'.accessList

section

variable {nt : NumberText} {sdk : Sdk} {tx tx' : ScanTx}

theorem map_asAccount64_eq {ids ids' : Option (List Value)} (h : IdsReEncoded ids ids') :
    (ids.getD []).map (asAccount64 nt) = (ids'.getD []).map (asAccount64 nt) := by
  match ids, ids', h with
  | none, none, _ => rfl
  | some ids, some ids', h =>
    change ids.map _ = ids'.map _
    induction h with
    | nil => rfl
    | cons hv _ ih =>
      rw [List.map_cons, List.map_cons, hv.asAccount64_eq]
      exact congrArg _ ih

theorem collectAccessListIds_eq {l l' : Option AccessList} (h : AccessReEncoded l l') :
    collectAccessListIds nt l = collectAccessListIds nt l' := by
  match l, l', h with
  | none, none, _ => rfl
  | some l, some l', h =>
    rw [collectAccessListIds, collectAccessListIds, List.map_append, List.map_append,
      map_asAccount64_eq h.1, map_asAccount64_eq h.2]

theorem value_get (tx : ScanTx) : tx.value.get "sender" = tx.sender ∧
    tx.value.get "nonce" = tx.nonce ∧ tx.value.get "payload" = tx.payload := ⟨rfl, rfl, rfl⟩

theorem tryPredict_eq (h : ReEncoded tx tx') :
    tryPredictDeployedContractAddressFromDeployTx nt sdk tx.value =
      tryPredictDeployedContractAddressFromDeployTx nt sdk tx'.value := by
  have hinner := inner_related keepsKind_payloadField h.payload
  have hbytecode : (getTxPayloadInner tx.payload).get "bytecode" =
      (getTxPayloadInner tx'.payload).get "bytecode" :=
    (hinner.get PayloadField.refl "bytecode").eq (by decide)
  have hsalt : (getTxPayloadInner tx.payload).get "create2_salt" =
      (getTxPayloadInner tx'.payload).get "create2_salt" :=
    (hinner.get PayloadField.refl "create2_salt").eq (by decide)
  have hcreate2 : parseCreate2Salt sdk (getTxPayloadInner tx.payload) =
      parseCreate2Salt sdk (getTxPayloadInner tx'.payload) := by
    rw [parseCreate2Salt, parseCreate2Salt, hsalt]
  have hsender : hexForLink nt tx.sender = hexForLink nt tx'.sender := h.sender.hexForLink_eq
  obtain ⟨hs, hn, hp⟩ := value_get tx
  obtain ⟨hs', hn', hp'⟩ := value_get tx'
  simp only [tryPredictDeployedContractAddressFromDeployTx, hs, hn, hp, hs', hn', hp', hbytecode,
    hcreate2, hsender, h.nonce, getTxPayloadKind_eq keepsKind_payloadField h.payload]

theorem createdAccount_eq (h : ReEncoded tx tx') (receipt : Value) :
    createdAccount nt sdk tx receipt = createdAccount nt sdk tx' receipt := by
  rw [createdAccount, createdAccount, tryPredict_eq h]

/-- **Re-encoded transactions have the same roles**, for every account and receipt. -/
theorem rolesForAccountInTx_reEncoded (nt : NumberText) (sdk : Sdk) (account64 : Text)
    (receipt : Value) {tx tx' : ScanTx} (h : ReEncoded tx tx') :
    rolesForAccountInTx nt sdk account64 tx receipt =
      rolesForAccountInTx nt sdk account64 tx' receipt := by
  have hinner := inner_related keepsKind_payloadField h.payload
  have hto : asAccount64 nt ((getTxPayloadInner tx.payload).get "to") =
      asAccount64 nt ((getTxPayloadInner tx'.payload).get "to") :=
    (hinner.get PayloadField.refl "to").asAccount64_eq (by decide)
  have hcontract : asAccount64 nt ((getTxPayloadInner tx.payload).get "contract") =
      asAccount64 nt ((getTxPayloadInner tx'.payload).get "contract") :=
    (hinner.get PayloadField.refl "contract").asAccount64_eq (by decide)
  have hsteps (want : Text) (roles : List AccountTxRole) :
      (batchSteps nt (getTxPayloadInner tx.payload)).foldl (batchRoles nt want) roles =
        (batchSteps nt (getTxPayloadInner tx'.payload)).foldl (batchRoles nt want) roles :=
    foldl_batchRoles_eq (calls_related hinner).1
  simp only [rolesForAccountInTx, h.sender.asAccount64_eq, hto, hcontract, hsteps,
    createdAccount_eq h, collectAccessListIds_eq h.accessList,
    getTxPayloadKind_eq keepsKind_payloadField h.payload]

/-! ## A batch in two encodings -/

def accountBytes : List ℕ := List.replicate 32 0xab

def upperHex : Text := (List.replicate 32 ['A', 'B']).flatten

def batchTx (sender to' listed : Value) : ScanTx where
  sender := sender
  nonce := .number (.ofNat 3)
  payload := .object [("Batch", .object [("calls", .array [.object [("Transfer",
    .object [("to", to'), ("amount", .string "5")])]])])]
  accessList := some ⟨some [listed], none⟩

def bytesValue : Value := .array (accountBytes.map fun b => .number (.ofNat b))

theorem sameAccount_bytes_upper : SameAccount bytesValue (.string upperHex) := by
  refine Or.inr ⟨accountBytes, by decide, by decide, Or.inl rfl, Or.inr ⟨upperHex, by decide, ?_⟩⟩
  exact Or.inl rfl

theorem sameAccount_upper_prefixed :
    SameAccount (.string upperHex) (.string ('0' :: 'x' :: upperHex)) := by
  refine Or.inr ⟨accountBytes, by decide, by decide, Or.inr ⟨upperHex, by decide, Or.inl rfl⟩,
    Or.inr ⟨upperHex, by decide, Or.inr rfl⟩⟩

/-- Bytes for upper-case digits, and upper-case digits for digits with `0x`. -/
theorem reEncoded_batchTx :
    ReEncoded (batchTx bytesValue bytesValue (.string upperHex))
      (batchTx (.string upperHex) (.string upperHex) (.string ('0' :: 'x' :: upperHex))) where
  sender := sameAccount_bytes_upper
  nonce := rfl
  payload := by
    have hto : Related StepField [("to", bytesValue), ("amount", .string "5")]
        [("to", .string upperHex), ("amount", .string "5")] :=
      .cons ⟨rfl, Or.inr ⟨Or.inl rfl, sameAccount_bytes_upper⟩⟩ (.cons ⟨rfl, Or.inl rfl⟩ .nil)
    refine .tagged (by decide +kernel) (.cons ⟨rfl, Or.inr ⟨rfl, _, _, rfl, rfl, ?_⟩⟩ .nil)
    exact .cons (.tagged (by decide +kernel) hto) .nil
  accessList := ⟨.cons sameAccount_upper_prefixed .nil, trivial⟩

/-- Predictions that all fail: the transaction deploys nothing. -/
def noPrediction : Sdk where
  hexToBytes _ := none
  validateHex32 _ := none
  predictCreate2ContractAddress _ _ _ := none
  predictNonceDerivedContractAddress _ _ := none

theorem rolesForAccountInTx_reEncoded_batch :
    rolesForAccountInTx integersOnly noPrediction upperHex
        (batchTx bytesValue bytesValue (.string upperHex)) .null =
      rolesForAccountInTx integersOnly noPrediction upperHex
        (batchTx (.string upperHex) (.string upperHex) (.string ('0' :: 'x' :: upperHex))) .null :=
  rolesForAccountInTx_reEncoded integersOnly noPrediction upperHex .null reEncoded_batchTx

end

end BoingObserver.Account
