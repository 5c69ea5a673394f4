import BoingObserver.Deploy.Lookup

/-!
# Who deployed a contract

The search names the account whose rows it is going through; the transaction it
found may be another account's, when a row without `tx_index` opens a whole
block.  `openings` lists the rows the search would open, with their blocks.

* `fetchBlock_cached`: the cache holds what the node answered first.
* `searchDeployers_some`, `searchDeployers_none`: the search ends at the first
  transaction of the opened rows that deploys to the target.
* `firstDeploy_own_iff`: that transaction is the account's own iff no row tried
  has another account's deploy before one of its own account.
* `lookupContractCode_attributed_iff`: the deployer found is the sender of its
  transaction iff that holds of the rows and blocks.
-/

namespace BoingObserver.Deploy

open Js Rpc Payload Oracle

/-! ## What the node answered -/

/-- The block call of a trace entry: the height, and the block as the search keeps it. -/
def blockAnswer : (Σ q, Answer q) → Option (ℤ × Option Block)
  | ⟨.blockByHeight h, block⟩ => some (h, (show Option (Option Block) from block).join)
  | ⟨.accountTransactions _ _, _⟩ => none

def fetched (tr : Trace Answer) (height : ℤ) : Option (Option Block) :=
  (tr.filterMap blockAnswer).lookup height

def IsHistory : Query → Prop
  | .accountTransactions _ _ => True
  | .blockByHeight _ => False

theorem fetched_history (tr : Trace Answer) (q : Query) (a : Answer q) (h : IsHistory q) :
    fetched (tr ++ [⟨q, a⟩]) = fetched tr := by
  cases q with
  | accountTransactions account cursor =>
    funext height
    rw [fetched, fetched, List.filterMap_append]
    exact congrArg _ (List.append_nil _)
  | blockByHeight height => exact h.elim

theorem asks_laterRows (account : Text) (n : ℕ) (cursor : Text) :
    Prog.Asks IsHistory (laterRows account n cursor) := by
  induction n generalizing cursor with
  | zero => exact Prog.asks_pure _
  | succ n ih =>
    refine Prog.asks_bind (Prog.asks_query trivial) ?_
    intro page
    rcases page with _ | ⟨rows, _ | _ | ⟨c, cs⟩⟩
    · exact Prog.asks_pure _
    · exact Prog.asks_pure _
    · exact Prog.asks_pure _
    · exact Prog.asks_bind (ih _) fun _ => Prog.asks_pure _

theorem asks_allRows (account : Text) (n : ℕ) : Prog.Asks IsHistory (allRows account n) := by
  refine Prog.asks_bind (Prog.asks_query trivial) ?_
  intro page
  rcases page with _ | ⟨rows, _ | _ | ⟨c, cs⟩⟩
  · exact Prog.asks_pure _
  · exact Prog.asks_pure _
  · exact Prog.asks_pure _
  · exact Prog.asks_bind (asks_laterRows _ _ _) fun _ => Prog.asks_pure _

variable {env : Env Answer}

theorem fetched_allRows (account : Text) (n : ℕ) (tr : Trace Answer) :
    fetched ((allRows account n).run env tr).2 = fetched tr :=
  Prog.run_frame (asks_allRows account n) fetched_history tr

def Cached (st : SearchState) (tr : Trace Answer) : Prop :=
  ∀ height, st.blockCache.lookup height = fetched tr height

theorem fetchBlock_hit {st : SearchState} {height : ℤ} {block : Option Block}
    (h : st.blockCache.lookup height = some block) :
    fetchBlock height st = pure (some block, st) := by
  rw [fetchBlock, h]

theorem fetchBlock_spent {st : SearchState} {height : ℤ}
    (h : st.blockCache.lookup height = none) (hb : st.blocksLeft ≤ 0) :
    fetchBlock height st = pure (none, { st with blocksLeft := st.blocksLeft - 1 }) := by
  rw [fetchBlock, h]
  exact if_pos hb

def blockOf (env : Env Answer) (tr : Trace Answer) (height : ℤ) : Option (Option Block) :=
  env tr (.blockByHeight height)

def blockEntry (height : ℤ) (answer : Option (Option Block)) : Σ q, Answer q :=
  ⟨.blockByHeight height, answer⟩

theorem fetchBlock_miss {st : SearchState} {height : ℤ} (tr : Trace Answer)
    (h : st.blockCache.lookup height = none) (hb : ¬ st.blocksLeft ≤ 0) :
    (fetchBlock height st).run env tr =
      ((some (blockOf env tr height).join,
        ⟨st.blocksLeft - 1, (height, (blockOf env tr height).join) :: st.blockCache⟩),
        tr ++ [blockEntry height (blockOf env tr height)]) := by
  rw [fetchBlock, h]
  simp only [if_neg hb]
  rfl

theorem fetched_block (tr : Trace Answer) (height k : ℤ) (answer : Option (Option Block)) :
    fetched (tr ++ [blockEntry height answer]) k =
      (fetched tr k).or (if k = height then some answer.join else none) := by
  rw [fetched, List.filterMap_append, List.lookup_append]
  refine congrArg _ ?_
  change (match k == height with | true => some answer.join | false => none) = _
  by_cases hk : k = height
  · rw [if_pos hk, beq_iff_eq.mpr hk]
  · rw [if_neg hk, beq_false_of_ne hk]

theorem fetchBlock_cached (env : Env Answer) {st : SearchState} {tr : Trace Answer}
    (h : Cached st tr) (height : ℤ) :
    Cached ((fetchBlock height st).run env tr).1.2 ((fetchBlock height st).run env tr).2 ∧
      ∀ block, ((fetchBlock height st).run env tr).1.1 = some block →
        fetched ((fetchBlock height st).run env tr).2 height = some block := by
  cases hc : st.blockCache.lookup height with
  | some block =>
    rw [fetchBlock_hit hc]
    refine ⟨h, ?_⟩
    rintro _ ⟨⟩
    exact (h height).symm.trans hc
  | none =>
    have hn : fetched tr height = none := (h height).symm.trans hc
    by_cases hb : st.blocksLeft ≤ 0
    · rw [fetchBlock_spent hc hb]
      refine ⟨h, ?_⟩
      rintro block ⟨⟩
    · rw [fetchBlock_miss tr hc hb]
      constructor
      · intro k
        rw [fetched_block, ← h k, List.lookup_cons]
        by_cases hk : k = height
        · rw [if_pos hk, hk, hc, beq_self_eq_true]
          rfl
        · rw [if_neg hk, Option.or_none, beq_false_of_ne hk]
      · rintro block ⟨⟩
        rw [fetched_block, hn, if_pos rfl]
        rfl

/-! ## The rows the search opens -/

/-- A deploy row with the account it was found under and the block fetched for it. -/
structure Opened where
  account : Text
  height : ℤ
  row : TxRow
  block : Option Block

/-- A transaction to try, with the account and the row's height that led to it. -/
structure Visit where
  account : Text
  height : ℤ
  txIndex : ℕ
  tx : Value

def Opened.visits (o : Opened) : List Visit :=
  (candidates o.row o.block).map fun p => ⟨o.account, o.height, p.1, p.2⟩

section

variable (nt : NumberText) (sdk : Sdk)

/-- `searchDeploys` without its early end. -/
def openDeploys (account : Text) :
    List TxRow → SearchState → Prog Answer (List Opened × SearchState)
  | [], st => pure ([], st)
  | r :: rows, st =>
    match deployHeight nt r with
    | none => openDeploys account rows st
    | some height => do
      match ← fetchBlock height st with
      | (none, st) => return ([], st)
      | (some block, st) =>
        let (os, st) ← openDeploys account rows st
        return (⟨account, height, r, block⟩ :: os, st)

/-- `searchDeployers` without its early end. -/
def openDeployers : List Text → SearchState → Prog Answer (List Opened)
  | [], _ => pure []
  | account :: rest, st => do
    match ← allRows account 9 with
    | none => openDeployers rest st
    | some drows =>
      let (os, st) ← openDeploys nt account drows st
      return os ++ (← openDeployers rest st)

/-- The rows `lookupContractCode` opens, in order, as long as none leads to a deploy. -/
def openings (address64 : Text) (opts : LookupOpts) : Prog Answer (List Opened) := do
  let target := h64 (.string address64)
  match ← allRows target 9 with
  | none => return []
  | some rows =>
    let calls := rows.filter fun r => h64 r.contract = target
    let deployers := (senders calls opts.extraDeployers).take opts.maxDeployers
    openDeployers nt deployers ⟨opts.maxBlocks, []⟩

/-- The first transaction the rows lead to that deploys to the target. -/
def firstDeploy (target : Text) (os : List Opened) : Option Visit :=
  (os.flatMap Opened.visits).find? fun v => (deploysTo nt sdk target v.tx).isSome

def Visit.code (target : Text) (v : Visit) : Option ContractCodeInfo :=
  (deploysTo nt sdk target v.tx).map fun bytecodeHex =>
    ⟨bytecodeHex, v.account, v.height, v.txIndex⟩

/-- The transaction stands where the visit says, in the block fetched for its height. -/
def Visit.InBlock (tr : Trace Answer) (v : Visit) : Prop :=
  ∃ block, fetched tr v.height = some block ∧ (Block.txs block)[v.txIndex]? = some v.tx

end

theorem candidates_getElem {r : TxRow} {block : Option Block} {p : ℕ × Value}
    (h : p ∈ candidates r block) : (Block.txs block)[p.1]? = some p.2 := by
  rw [candidates] at h
  split at h
  next i _ =>
    obtain ⟨tx, htx, rfl⟩ := List.mem_map.mp h
    exact Option.mem_toList.mp htx
  next => cases h
  next =>
    obtain ⟨⟨tx, i⟩, htx, rfl⟩ := List.mem_map.mp h
    exact (List.mem_zipIdx_iff_getElem?).mp htx

theorem Opened.visits_inBlock {o : Opened} {tr : Trace Answer}
    (h : fetched tr o.height = some o.block) {v : Visit} (hv : v ∈ o.visits) : v.InBlock tr := by
  obtain ⟨p, hp, rfl⟩ := List.mem_map.mp hv
  exact ⟨o.block, h, candidates_getElem hp⟩

section

variable {nt : NumberText} {sdk : Sdk} {target : Text}

theorem searchTxs_eq (account : Text) (height : ℤ) (cs : List (ℕ × Value)) :
    searchTxs nt sdk target account height cs =
      ((cs.map fun p => (⟨account, height, p.1, p.2⟩ : Visit)).find? fun v =>
        (deploysTo nt sdk target v.tx).isSome).bind (Visit.code nt sdk target) := by
  induction cs with
  | nil => rfl
  | cons p cs ih =>
    rw [searchTxs, List.map_cons, List.find?_cons]
    cases hd : deploysTo nt sdk target p.2 with
    | none => exact ih
    | some bytecodeHex => simp [Visit.code, hd]

theorem firstDeploy_single (o : Opened) :
    firstDeploy nt sdk target [o] =
      o.visits.find? fun v => (deploysTo nt sdk target v.tx).isSome := by
  rw [firstDeploy, List.flatMap_singleton]

theorem searchTxs_candidates (o : Opened) :
    searchTxs nt sdk target o.account o.height (candidates o.row o.block) =
      (firstDeploy nt sdk target [o]).bind (Visit.code nt sdk target) := by
  rw [firstDeploy_single]
  exact searchTxs_eq _ _ _

theorem firstDeploy_append (os ws : List Opened) :
    firstDeploy nt sdk target (os ++ ws) =
      (firstDeploy nt sdk target os).or (firstDeploy nt sdk target ws) := by
  rw [firstDeploy, List.flatMap_append]
  exact List.find?_append

theorem firstDeploy_cons (o : Opened) (os : List Opened) :
    firstDeploy nt sdk target (o :: os) =
      (firstDeploy nt sdk target [o]).or (firstDeploy nt sdk target os) :=
  firstDeploy_append [o] os

theorem firstDeploy_deploys {os : List Opened} {v : Visit}
    (h : firstDeploy nt sdk target os = some v) : (deploysTo nt sdk target v.tx).isSome := by
  rw [firstDeploy] at h
  exact List.find?_some (p := fun v : Visit => (deploysTo nt sdk target v.tx).isSome) h

theorem firstDeploy_code {os : List Opened} {v : Visit}
    (h : firstDeploy nt sdk target os = some v) : ∃ code, v.code nt sdk target = some code := by
  obtain ⟨bytecodeHex, hb⟩ := Option.isSome_iff_exists.mp (firstDeploy_deploys h)
  exact ⟨_, congrArg _ hb⟩

theorem mem_visits_of_firstDeploy {o : Opened} {v : Visit}
    (h : firstDeploy nt sdk target [o] = some v) : v ∈ o.visits := by
  rw [firstDeploy_single] at h
  exact List.mem_of_find?_eq_some h

/-! ## The search follows the openings -/

theorem openDeploys_cached (account : Text) (rows : List TxRow) {st : SearchState}
    {tr : Trace Answer} (h : Cached st tr) :
    Cached ((openDeploys nt account rows st).run env tr).1.2
      ((openDeploys nt account rows st).run env tr).2 := by
  induction rows generalizing st tr with
  | nil => exact h
  | cons r rows ih =>
    rw [openDeploys]
    cases hr : deployHeight nt r with
    | none => exact ih h
    | some height =>
      have hc := (fetchBlock_cached env h height).1
      simp only [Prog.run_bind]
      rcases hf : (fetchBlock height st).run env tr with ⟨⟨_ | block, st'⟩, tr'⟩
      · rw [hf] at hc
        exact hc
      · rw [hf] at hc
        simp only [Prog.run_bind, Prog.run_pure]
        exact ih hc

theorem searchDeploys_none (account : Text) (rows : List TxRow) (st : SearchState)
    (tr : Trace Answer)
    (h : firstDeploy nt sdk target ((openDeploys nt account rows st).run env tr).1.1 = none) :
    (searchDeploys nt sdk target account rows st).run env tr =
      ((none, ((openDeploys nt account rows st).run env tr).1.2),
        ((openDeploys nt account rows st).run env tr).2) := by
  induction rows generalizing st tr with
  | nil => rfl
  | cons r rows ih =>
    rw [openDeploys] at h ⊢
    rw [searchDeploys]
    cases hr : deployHeight nt r with
    | none =>
      rw [hr] at h
      exact ih st tr h
    | some height =>
      rw [hr] at h
      simp only [Prog.run_bind] at h ⊢
      rcases hf : (fetchBlock height st).run env tr with ⟨⟨_ | block, st'⟩, tr'⟩
      · rfl
      · rw [hf] at h
        simp only [Prog.run_bind, Prog.run_pure] at h ⊢
        rw [firstDeploy_cons, Option.or_eq_none_iff] at h
        rw [searchTxs_candidates ⟨account, height, r, block⟩, h.1]
        exact ih st' tr' h.2

theorem searchDeploys_some (account : Text) (rows : List TxRow) {st : SearchState}
    {tr : Trace Answer} (hst : Cached st tr) {v : Visit}
    (h : firstDeploy nt sdk target ((openDeploys nt account rows st).run env tr).1.1 = some v) :
    ((searchDeploys nt sdk target account rows st).run env tr).1.1 = v.code nt sdk target ∧
      v.InBlock ((searchDeploys nt sdk target account rows st).run env tr).2 := by
  induction rows generalizing st tr with
  | nil => cases h
  | cons r rows ih =>
    rw [openDeploys] at h
    rw [searchDeploys]
    cases hr : deployHeight nt r with
    | none =>
      rw [hr] at h
      exact ih hst h
    | some height =>
      rw [hr] at h
      have hc := fetchBlock_cached env hst height
      simp only [Prog.run_bind] at h ⊢
      rcases hf : (fetchBlock height st).run env tr with ⟨⟨_ | block, st'⟩, tr'⟩
      · rw [hf] at h
        cases h
      · rw [hf] at h hc
        simp only [Prog.run_bind, Prog.run_pure] at h ⊢
        rw [firstDeploy_cons] at h
        rw [searchTxs_candidates ⟨account, height, r, block⟩]
        cases hv : firstDeploy nt sdk target [⟨account, height, r, block⟩] with
        | some w =>
          rw [hv] at h
          obtain rfl : w = v := Option.some.inj h
          obtain ⟨code, hcode⟩ := firstDeploy_code hv
          rw [Option.bind_some, hcode]
          exact ⟨rfl, Opened.visits_inBlock (hc.2 block rfl) (mem_visits_of_firstDeploy hv)⟩
        | none =>
          rw [hv, Option.none_or] at h
          exact ih hc.1 h

theorem openDeployers_step {account : Text} {rest : List Text} {st : SearchState}
    {tr : Trace Answer} {drows : List TxRow}
    (h : ((allRows account 9).run env tr).1 = some drows) :
    ((openDeployers nt (account :: rest) st).run env tr).1 =
      let V := (openDeploys nt account drows st).run env ((allRows account 9).run env tr).2
      V.1.1 ++ ((openDeployers nt rest V.1.2).run env V.2).1 := by
  rw [openDeployers, Prog.run_bind, h]
  simp only [Prog.run_bind, Prog.run_pure]

theorem searchDeployers_none (accounts : List Text) (st : SearchState) (tr : Trace Answer)
    (h : firstDeploy nt sdk target ((openDeployers nt accounts st).run env tr).1 = none) :
    ((searchDeployers nt sdk target accounts st).run env tr).1 = none := by
  induction accounts generalizing st tr with
  | nil => rfl
  | cons account rest ih =>
    rw [searchDeployers, Prog.run_bind]
    cases hr : ((allRows account 9).run env tr).1 with
    | none =>
      rw [openDeployers, Prog.run_bind, hr] at h
      exact ih st _ h
    | some drows =>
      rw [openDeployers_step hr, firstDeploy_append, Option.or_eq_none_iff] at h
      simp only [Prog.run_bind]
      rw [searchDeploys_none account drows st _ h.1]
      exact ih _ _ h.2

/-- **The search ends with the first visit that deploys.** -/
theorem searchDeployers_some (accounts : List Text) {st : SearchState} {tr : Trace Answer}
    (hst : Cached st tr) {v : Visit}
    (h : firstDeploy nt sdk target ((openDeployers nt accounts st).run env tr).1 = some v) :
    ((searchDeployers nt sdk target accounts st).run env tr).1 = v.code nt sdk target ∧
      v.InBlock ((searchDeployers nt sdk target accounts st).run env tr).2 := by
  induction accounts generalizing st tr with
  | nil => cases h
  | cons account rest ih =>
    have hst' : Cached st ((allRows account 9).run env tr).2 := by
      intro height
      rw [fetched_allRows]
      exact hst height
    rw [searchDeployers, Prog.run_bind]
    cases hr : ((allRows account 9).run env tr).1 with
    | none =>
      rw [openDeployers, Prog.run_bind, hr] at h
      exact ih hst' h
    | some drows =>
      rw [openDeployers_step hr, firstDeploy_append] at h
      simp only [Prog.run_bind]
      cases hv : firstDeploy nt sdk target
          ((openDeploys nt account drows st).run env ((allRows account 9).run env tr).2).1.1 with
      | some w =>
        rw [hv] at h
        obtain rfl : w = v := Option.some.inj h
        obtain ⟨code, hcode⟩ := firstDeploy_code hv
        obtain ⟨hs, hw⟩ := searchDeploys_some account drows hst' hv
        rcases hq : (searchDeploys nt sdk target account drows st).run env
            ((allRows account 9).run env tr).2 with ⟨⟨found, st'⟩, tr'⟩
        rw [hq, hcode] at hs
        rw [hq] at hw
        obtain rfl : found = some code := hs
        exact ⟨hcode.symm, hw⟩
      | none =>
        rw [hv, Option.none_or] at h
        rw [searchDeploys_none account drows st _ hv]
        exact ih (openDeploys_cached account drows hst') h

/-! ## Attribution -/

def txSender (nt : NumberText) (tx : Value) : Text := hexForLink nt (tx.get "sender")

/-- The code is attributed to the sender of the transaction it names, whose predicted address is
the target. -/
def Attributed (nt : NumberText) (sdk : Sdk) (target : Text) (tr : Trace Answer)
    (code : ContractCodeInfo) : Prop :=
  ∃ block tx, fetched tr code.height = some block ∧
    (Block.txs block)[code.txIndex]? = some tx ∧ code.deployer = txSender nt tx ∧
    (tryPredictDeployedContractAddressFromDeployTx nt sdk tx).map toLowerCase = some target

theorem predicted_of_deploysTo {tx : Value} {bytecodeHex : Text}
    (h : deploysTo nt sdk target tx = some bytecodeHex) :
    (tryPredictDeployedContractAddressFromDeployTx nt sdk tx).map toLowerCase = some target := by
  rw [deploysTo] at h
  split at h
  next c cs hp =>
    split at h
    next ht => rw [hp, Option.map_some, ht]
    next => cases h
  next => cases h

end

/-! ## Whose deploy a row leads to -/

/-- A row opens the transaction of its integer `tx_index`, or else every one of its block. -/
def TxRow.Opens (r : TxRow) (i : ℕ) : Prop := ∀ k, r.index = some k → k = i

section

variable (nt : NumberText) (sdk : Sdk) (target : Text)

/-- Transaction `i` of the block, which the row opens, is a deploy of the target by `sender`. -/
def Opened.Deploys (o : Opened) (i : ℕ) (sender : Text) : Prop :=
  o.row.Opens i ∧ ∃ tx, (Block.txs o.block)[i]? = some tx ∧ txSender nt tx = sender ∧
    (deploysTo nt sdk target tx).isSome

/-- Another account's deploy of the target comes after one of the row's account. -/
def Opened.OwnFirst (o : Opened) : Prop :=
  ∀ i sender, o.Deploys nt sdk target i sender → sender ≠ o.account →
    ∃ j < i, o.Deploys nt sdk target j o.account

/-- No row opened earlier leads to a deploy of the target. -/
def Tried (os : List Opened) (o : Opened) : Prop :=
  ∃ before after, os = before ++ o :: after ∧
    ∀ b ∈ before, ∀ i sender, ¬ b.Deploys nt sdk target i sender

/-- The row has an integer `tx_index`, and no other account sent the transaction there. -/
def Opened.NamesOwn (o : Opened) : Prop :=
  ∃ k, o.row.index = some k ∧
    ∀ i : ℕ, k = i → ∀ tx, (Block.txs o.block)[i]? = some tx → txSender nt tx = o.account

/-- No other account deploys to the target in the block. -/
def Opened.Alone (o : Opened) : Prop :=
  ∀ tx ∈ Block.txs o.block, (deploysTo nt sdk target tx).isSome → txSender nt tx = o.account

end

section

variable {nt : NumberText} {sdk : Sdk} {target : Text} {o : Opened}

theorem Opened.NamesOwn.ownFirst (h : o.NamesOwn nt) : o.OwnFirst nt sdk target := by
  obtain ⟨k, hk, hown⟩ := h
  rintro i sender ⟨hi, tx, htx, rfl, -⟩ hne
  exact absurd (hown i (hi k hk) tx htx) hne

theorem Opened.Alone.ownFirst (h : o.Alone nt sdk target) : o.OwnFirst nt sdk target := by
  rintro i sender ⟨-, tx, htx, rfl, hd⟩ hne
  exact absurd (h tx (List.mem_of_getElem? htx) hd) hne

theorem Opened.Deploys.sender_unique {i : ℕ} {s s' : Text} (h : o.Deploys nt sdk target i s)
    (h' : o.Deploys nt sdk target i s') : s = s' := by
  obtain ⟨-, tx, htx, rfl, -⟩ := h
  obtain ⟨-, tx', htx', rfl, -⟩ := h'
  obtain rfl : tx = tx' := Option.some.inj (htx.symm.trans htx')
  rfl

theorem mem_candidates {r : TxRow} {block : Option Block} {i : ℕ} {tx : Value} :
    (i, tx) ∈ candidates r block ↔ r.Opens i ∧ (Block.txs block)[i]? = some tx := by
  rw [candidates, TxRow.Opens]
  split
  next k hk =>
    rw [hk, List.mem_map]
    constructor
    · rintro ⟨tx', htx, he⟩
      obtain ⟨rfl, rfl⟩ := Prod.mk.injEq .. ▸ he
      exact ⟨fun _ hk => (Option.some.inj hk).symm, Option.mem_toList.mp htx⟩
    · rintro ⟨hi, htx⟩
      obtain rfl : k = i := Int.ofNat.inj (hi _ rfl)
      exact ⟨tx, Option.mem_toList.mpr htx, rfl⟩
  next k hk =>
    rw [hk]
    refine ⟨fun h => absurd h List.not_mem_nil, fun h => ?_⟩
    cases h.1 _ rfl
  next hk =>
    rw [hk, List.mem_map]
    constructor
    · rintro ⟨⟨tx', i'⟩, htx, he⟩
      obtain ⟨rfl, rfl⟩ := Prod.mk.injEq .. ▸ he
      exact ⟨fun _ hk => (nomatch hk), List.mem_zipIdx_iff_getElem?.mp htx⟩
    · rintro ⟨-, htx⟩
      exact ⟨(tx, i), List.mem_zipIdx_iff_getElem?.mpr htx, rfl⟩

theorem candidates_sorted (r : TxRow) (block : Option Block) :
    (candidates r block).Pairwise fun p q => p.1 < q.1 := by
  rw [candidates]
  split
  next k _ =>
    cases (Block.txs block)[k]? with
    | none => exact List.Pairwise.nil
    | some tx => exact List.pairwise_singleton _ _
  next => exact List.Pairwise.nil
  next =>
    have h : ((Block.txs block).zipIdx.map Prod.snd).Pairwise (· < ·) := by
      rw [List.zipIdx_map_snd]
      exact List.pairwise_lt_range'
    exact List.pairwise_map.mpr (List.pairwise_map.mp h)

theorem mem_visits {v : Visit} :
    v ∈ o.visits ↔ v.account = o.account ∧ v.height = o.height ∧ o.row.Opens v.txIndex ∧
      (Block.txs o.block)[v.txIndex]? = some v.tx := by
  rw [Opened.visits, List.mem_map]
  constructor
  · rintro ⟨⟨i, tx⟩, hp, rfl⟩
    exact ⟨rfl, rfl, mem_candidates.mp hp⟩
  · obtain ⟨account, height, i, tx⟩ := v
    rintro ⟨rfl, rfl, h⟩
    exact ⟨(i, tx), mem_candidates.mpr h, rfl⟩

theorem visits_sorted (o : Opened) : o.visits.Pairwise fun v w => v.txIndex < w.txIndex :=
  List.pairwise_map.mpr (candidates_sorted o.row o.block)

theorem firstDeploy_single_some {v : Visit} (h : firstDeploy nt sdk target [o] = some v) :
    o.Deploys nt sdk target v.txIndex (txSender nt v.tx) ∧
      ∀ i sender, o.Deploys nt sdk target i sender → v.txIndex ≤ i := by
  have hd := firstDeploy_deploys h
  obtain ⟨-, -, hopen, htx⟩ := mem_visits.mp (mem_visits_of_firstDeploy h)
  refine ⟨⟨hopen, v.tx, htx, rfl, hd⟩, ?_⟩
  rintro i sender ⟨hi, tx, ht, -, hdt⟩
  rw [firstDeploy_single, List.find?_eq_some_iff_append] at h
  obtain ⟨-, as, bs, hvs, has⟩ := h
  have hw : (⟨o.account, o.height, i, tx⟩ : Visit) ∈ as ++ v :: bs := by
    rw [← hvs]
    exact mem_visits.mpr ⟨rfl, rfl, hi, ht⟩
  rcases List.mem_append.mp hw with hw | hw
  · simpa [hdt] using has _ hw
  · rcases List.mem_cons.mp hw with rfl | hw
    · exact le_rfl
    · have hs := visits_sorted o
      rw [hvs] at hs
      exact (List.rel_of_pairwise_cons (List.pairwise_append.mp hs).2.1 hw).le

theorem firstDeploy_single_none :
    firstDeploy nt sdk target [o] = none ↔ ∀ i sender, ¬ o.Deploys nt sdk target i sender := by
  rw [firstDeploy_single, List.find?_eq_none]
  constructor
  · rintro h i sender ⟨hi, tx, htx, -, hd⟩
    exact h ⟨o.account, o.height, i, tx⟩ (mem_visits.mpr ⟨rfl, rfl, hi, htx⟩) hd
  · rintro h v hv hd
    obtain ⟨-, -, hopen, htx⟩ := mem_visits.mp hv
    exact h v.txIndex _ ⟨hopen, v.tx, htx, rfl, hd⟩

theorem firstDeploy_single_own_iff {v : Visit} (h : firstDeploy nt sdk target [o] = some v) :
    v.account = txSender nt v.tx ↔ o.OwnFirst nt sdk target := by
  obtain ⟨hv, hle⟩ := firstDeploy_single_some h
  rw [(mem_visits.mp (mem_visits_of_firstDeploy h)).1]
  constructor
  · intro hown i sender hi hne
    rw [← hown] at hv
    refine ⟨v.txIndex, lt_of_le_of_ne (hle i sender hi) ?_, hv⟩
    rintro rfl
    exact hne (hi.sender_unique hv)
  · intro hfirst
    by_contra hne
    obtain ⟨j, hj, hdj⟩ := hfirst _ _ hv (Ne.symm hne)
    exact absurd (hle j _ hdj) (not_le.mpr hj)

theorem tried_cons {p : Opened} {os : List Opened} :
    Tried nt sdk target (p :: os) o ↔
      p = o ∨ (∀ i sender, ¬ p.Deploys nt sdk target i sender) ∧ Tried nt sdk target os o := by
  constructor
  · rintro ⟨_ | ⟨b, before⟩, after, he, hb⟩
    · exact .inl (List.cons.inj he).1
    · obtain ⟨rfl, rfl⟩ := List.cons.inj he
      exact .inr ⟨hb _ List.mem_cons_self, before, after, rfl,
        fun c hc => hb c (List.mem_cons_of_mem _ hc)⟩
  · rintro (rfl | ⟨hp, before, after, rfl, hb⟩)
    · exact ⟨[], os, rfl, fun b hb => absurd hb List.not_mem_nil⟩
    · exact ⟨p :: before, after, rfl, List.forall_mem_cons.mpr ⟨hp, hb⟩⟩

theorem firstDeploy_own_iff (os : List Opened) :
    (∀ v, firstDeploy nt sdk target os = some v → v.account = txSender nt v.tx) ↔
      ∀ o, Tried nt sdk target os o → o.OwnFirst nt sdk target := by
  induction os with
  | nil =>
    refine ⟨fun _ o => ?_, fun _ v hv => nomatch hv⟩
    rintro ⟨before, after, he, -⟩
    exact absurd he.symm (List.append_ne_nil_of_right_ne_nil _ (List.cons_ne_nil _ _))
  | cons p os ih =>
    rw [firstDeploy_cons]
    cases hp : firstDeploy nt sdk target [p] with
    | none =>
      have hnone := firstDeploy_single_none.mp hp
      rw [Option.none_or, ih]
      constructor
      · intro h o ho
        rcases tried_cons.mp ho with rfl | ⟨-, ho⟩
        · exact fun i sender hi => absurd hi (hnone i sender)
        · exact h o ho
      · exact fun h o ho => h o (tried_cons.mpr (.inr ⟨hnone, ho⟩))
    | some v =>
      rw [Option.some_or]
      constructor
      · intro h o ho
        rcases tried_cons.mp ho with rfl | ⟨hnone, -⟩
        · exact (firstDeploy_single_own_iff hp).mp (h v rfl)
        · exact absurd (firstDeploy_single_none.mpr hnone) (by rw [hp]; exact Option.some_ne_none v)
      · rintro h _ ⟨⟩
        exact (firstDeploy_single_own_iff hp).mpr (h p (tried_cons.mpr (.inl rfl)))

end

section

variable (nt : NumberText) (sdk : Sdk) (env : Env Answer) (address64 : Text) (opts : LookupOpts)

/-- The first transaction that deploys to the address, among those the search would try. -/
def foundVisit : Option Visit :=
  firstDeploy nt sdk (h64 (.string address64)) ((openings nt address64 opts).run env []).1

theorem lookupContractCode_code :
    ((lookupContractCode nt sdk address64 opts).run env []).1.code =
      (foundVisit nt sdk env address64 opts).bind
        (Visit.code nt sdk (h64 (.string address64))) ∧
    ∀ v, foundVisit nt sdk env address64 opts = some v →
      v.InBlock ((lookupContractCode nt sdk address64 opts).run env []).2 := by
  have hinit : Cached ⟨opts.maxBlocks, []⟩
      ((allRows (h64 (.string address64)) 9).run env []).2 := by
    intro height
    rw [fetched_allRows]
    rfl
  rw [foundVisit, openings, lookupContractCode]
  simp only [Prog.run_bind]
  cases hr : ((allRows (h64 (.string address64)) 9).run env []).1 with
  | none =>
    refine ⟨rfl, ?_⟩
    rintro v ⟨⟩
  | some rows =>
    simp only [Prog.run_bind, Prog.run_pure]
    generalize (senders (rows.filter fun r => h64 r.contract = h64 (.string address64))
      opts.extraDeployers).take opts.maxDeployers = accounts
    cases hv : firstDeploy nt sdk (h64 (.string address64))
        ((openDeployers nt accounts ⟨opts.maxBlocks, []⟩).run env
          ((allRows (h64 (.string address64)) 9).run env []).2).1 with
    | none =>
      refine ⟨searchDeployers_none accounts _ _ hv, ?_⟩
      rintro v ⟨⟩
    | some w =>
      obtain ⟨hc, hw⟩ := searchDeployers_some accounts hinit hv
      refine ⟨hc, ?_⟩
      rintro v ⟨⟩
      exact hw

theorem attributed_iff_foundVisit :
    (∀ code, ((lookupContractCode nt sdk address64 opts).run env []).1.code = some code →
      Attributed nt sdk (h64 (.string address64))
        ((lookupContractCode nt sdk address64 opts).run env []).2 code) ↔
    ∀ v, foundVisit nt sdk env address64 opts = some v → v.account = txSender nt v.tx := by
  obtain ⟨hcode, hin⟩ := lookupContractCode_code nt sdk env address64 opts
  rw [hcode]
  cases hv : foundVisit nt sdk env address64 opts with
  | none =>
    refine ⟨?_, ?_⟩
    · rintro - v ⟨⟩
    · rintro - code ⟨⟩
  | some v =>
    obtain ⟨block, hb, ht⟩ := hin v hv
    obtain ⟨bytecodeHex, hd⟩ := Option.isSome_iff_exists.mp (firstDeploy_deploys hv)
    have hvcode : v.code nt sdk (h64 (.string address64)) =
        some ⟨bytecodeHex, v.account, v.height, v.txIndex⟩ := congrArg _ hd
    rw [Option.bind_some, hvcode]
    constructor
    · rintro h _ ⟨⟩
      obtain ⟨block', tx, hb', ht', hs, -⟩ := h _ rfl
      obtain rfl : block' = block := Option.some.inj (hb'.symm.trans hb)
      obtain rfl : tx = v.tx := Option.some.inj (ht'.symm.trans ht)
      exact hs
    · rintro h _ ⟨⟩
      exact ⟨block, v.tx, hb, ht, h v rfl, predicted_of_deploysTo hd⟩

/-- **The deployer is the sender of the deploy** exactly when, in every row the search opens up to
the first that leads to a deploy of the address, no other account's deploy of it comes before the
account's own. -/
theorem lookupContractCode_attributed_iff :
    (∀ code, ((lookupContractCode nt sdk address64 opts).run env []).1.code = some code →
      Attributed nt sdk (h64 (.string address64))
        ((lookupContractCode nt sdk address64 opts).run env []).2 code) ↔
    ∀ o, Tried nt sdk (h64 (.string address64)) ((openings nt address64 opts).run env []).1 o →
      o.OwnFirst nt sdk (h64 (.string address64)) := by
  rw [attributed_iff_foundVisit, foundVisit]
  exact firstDeploy_own_iff _

/-- Rows that name their account's own transaction, or blocks where no other account deploys to
the address, are enough. -/
theorem lookupContractCode_attributed_of_own_or_alone
    (h : ∀ o, Tried nt sdk (h64 (.string address64)) ((openings nt address64 opts).run env []).1 o →
      o.NamesOwn nt ∨ o.Alone nt sdk (h64 (.string address64)))
    {code : ContractCodeInfo}
    (hc : ((lookupContractCode nt sdk address64 opts).run env []).1.code = some code) :
    Attributed nt sdk (h64 (.string address64))
      ((lookupContractCode nt sdk address64 opts).run env []).2 code := by
  refine (attributed_iff_foundVisit nt sdk env address64 opts).mpr ?_ code hc
  refine (firstDeploy_own_iff _).mpr fun o ho => ?_
  rcases h o ho with h | h
  · exact h.ownFirst
  · exact h.ownFirst

end

/-! ## Two deploys in one block -/

namespace SharedBlock

def alice : Text := List.replicate 64 'a'

def bob : Text := List.replicate 64 'b'

def aliceDeploy : Text := "645eb86b941da9de86afcb525734ad7c1cad39c8aa4c606d678f4deffb2bcb17"

def bobDeploy : Text := "40a863580e9bcffb8d74d38c02e73291fa33485b2584f87d1574d3b33eebc79a"

def sdk : Sdk where
  hexToBytes _ := none
  validateHex32 := some
  predictCreate2ContractAddress _ _ _ := none
  predictNonceDerivedContractAddress sender nonce :=
    if sender = "0x" ++ alice ∧ nonce = 0 then some ("0x" ++ aliceDeploy)
    else if sender = "0x" ++ bob ∧ nonce = 0 then some ("0x" ++ bobDeploy)
    else none

def deployTx (sender : Text) : Value :=
  .object [("sender", .string ("0x" ++ sender)), ("nonce", .number (.ofNat 0)),
    ("payload", .object [("ContractDeploy",
      .object [("bytecode", .array [.number (.ofNat 96), .number (.ofNat 1)])])])]

def callRow : TxRow :=
  ⟨.number (.ofNat 9), .number (.ofNat 0), .string "in", .string ("0x" ++ alice),
    .string "contract_call", .string ("0x" ++ bobDeploy)⟩

def deployRow : TxRow :=
  ⟨.number (.ofNat 7), .undefined, .string "out", .string ("0x" ++ alice),
    .string "contract_deploy", .undefined⟩

def node : Env Answer := fun _ q =>
  match q with
  | .accountTransactions account _ =>
    show Option Page from
      if account = bobDeploy then some ⟨some [callRow], none⟩
      else if account = alice then some ⟨some [deployRow], none⟩
      else some ⟨some [], none⟩
  | .blockByHeight height =>
    show Option (Option Block) from
      if height = 7 then some (some ⟨some [deployTx alice, deployTx bob]⟩) else some none

def found : ContractCodeInfo := ⟨"6001", alice, 7, 1⟩

end SharedBlock

open SharedBlock in
set_option maxRecDepth 8000 in
/-- **Bob's contract, attributed to Alice**: both deployed in block 7. -/
theorem sharedBlock_misattributed :
    ((lookupContractCode integersOnly sdk bobDeploy {}).run node []).1.code = some found ∧
      ¬ Attributed integersOnly sdk bobDeploy
          ((lookupContractCode integersOnly sdk bobDeploy {}).run node []).2 found := by
  refine ⟨rfl, ?_⟩
  rintro ⟨block, tx, hb, ht, hs, -⟩
  obtain rfl : some ⟨some [deployTx alice, deployTx bob]⟩ = block := Option.some.inj hb
  obtain rfl : deployTx bob = tx := Option.some.inj ht
  exact absurd hs (by decide)

end BoingObserver.Deploy
