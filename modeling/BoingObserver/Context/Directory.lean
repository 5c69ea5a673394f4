import BoingObserver.Context.Query
import BoingObserver.Contract.Format
import BoingObserver.Js.Map
import BoingObserver.Oracle

/-!
# The DEX directory

What `loadDirectory` of `app/api/tx/context/route.ts` reads: the pages of pools and of tokens that
the SDK lists for a factory, as tables by id.

* `get_setAll`: of the entries for a key the last one counts.
-/

namespace BoingObserver.Context

open Js Oracle
open Contract (PoolMeta TokenMeta nonEmpty)

/-! ## Pages -/

/-- What the SDK throws: an error of the node's answer, another one, or no error at all. -/
inductive Failure
  | rpc (message : Text) (method : Option Text)
  | error (message : Text)
  | other

structure DexPool where
  poolHex : Text
  tokenAHex : Text
  tokenBHex : Text
  feeBps : Value

structure DexToken where
  id : Text
  symbol : Option Text
  name : Option Text
  decimals : Value
  metadataSource : Text

structure DexPage (β : Type) where
  items : List β
  nextCursor : Option Text

inductive DexQuery
  | pools (factory : Text) (cursor : Option Text)
  | tokens (factory : Text) (cursor : Option Text)

def DexAnswer : DexQuery → Type
  | .pools _ _ => Except Failure (DexPage DexPool)
  | .tokens _ _ => Except Failure (DexPage DexToken)

abbrev Lists (α : Type) : Type := Async DexAnswer Failure α

/-- `client.listDexPoolsPage` -/
def poolsPage (factory : Text) (cursor : Option Text) : Lists (DexPage DexPool) :=
  ExceptT.mk (Prog.query (DexQuery.pools factory cursor))

/-- `client.listDexTokensPage` -/
def tokensPage (factory : Text) (cursor : Option Text) : Lists (DexPage DexToken) :=
  ExceptT.mk (Prog.query (DexQuery.tokens factory cursor))

def maxPages : ℕ := 5

/-- The items of up to `n` pages. -/
def pagesFrom {β : Type} (page : Option Text → Lists (DexPage β)) :
    ℕ → Option Text → Lists (List β)
  | 0, _ => return []
  | n + 1, cursor => do
    let p ← page cursor
    match p.nextCursor with
    | some (c :: cs) => return p.items ++ (← pagesFrom page n (some (c :: cs)))
    | _ => return p.items

/-! ## Tables -/

/-- `typeof v === "number" ? v : null` -/
def numberOf : Value → Option Number
  | .number x => some x
  | _ => none

/-- A pool counts when its three ids are words. -/
def poolEntry (p : DexPool) : Option (Text × PoolMeta) :=
  let id := h64 p.poolHex
  let a := h64 p.tokenAHex
  let b := h64 p.tokenBHex
  if id ≠ [] ∧ a ≠ [] ∧ b ≠ [] then some (id, ⟨a, b, numberOf p.feeBps⟩) else none

/-- Placeholders of pool tokens ("Pool token 0x…") keep their decimals only. -/
def tokenEntry (t : DexToken) : Option (Text × TokenMeta) :=
  let id := h64 t.id
  let placeholder : Bool := t.metadataSource = "abbrev"
  if id ≠ [] then
    some (id,
      { symbol := if placeholder then none else nonEmpty t.symbol
        name := if placeholder then none else nonEmpty t.name
        decimals := numberOf t.decimals })
  else none

/-- `for (…) table[id] = value` -/
def setAll {β : Type} (entries : List (Text × β)) : Map Text β :=
  entries.foldl (fun m e => m.set e.1 e.2) Map.empty

def poolsOf (pools : List DexPool) : Map Text PoolMeta := setAll (pools.filterMap poolEntry)

def tokensOf (tokens : List DexToken) : Map Text TokenMeta := setAll (tokens.filterMap tokenEntry)

structure DexContents where
  pools : Map Text PoolMeta
  tokens : Map Text TokenMeta

def DexContents.empty : DexContents := ⟨Map.empty, Map.empty⟩

/-- The pages of a factory. -/
def readDex (factory : Text) : Lists DexContents := do
  let pools ← pagesFrom (poolsPage factory) maxPages none
  let tokens ← pagesFrom (tokensPage factory) maxPages none
  return ⟨poolsOf pools, tokensOf tokens⟩

/-! ## What a table knows -/

theorem get_foldl_set {β : Type} (entries : List (Text × β)) (m : Map Text β) (k : Text) :
    (entries.foldl (fun m e => m.set e.1 e.2) m).get k =
      (entries.reverse.lookup k).or (m.get k) := by
  induction entries using List.reverseRecOn with
  | nil => rfl
  | append_singleton entries e ih =>
    rw [List.foldl_append, List.foldl_cons, List.foldl_nil, Map.get_set, ih, List.reverse_append,
      List.reverse_singleton, List.singleton_append, List.lookup_cons]
    by_cases hk : k = e.1
    · rw [if_pos hk, beq_iff_eq.mpr hk]
      rfl
    · rw [if_neg hk, beq_eq_false_iff_ne.mpr hk]

/-- **Of the entries for a key the last one counts.** -/
theorem get_setAll {β : Type} (entries : List (Text × β)) (k : Text) :
    (setAll entries).get k = entries.reverse.lookup k := by
  rw [setAll, get_foldl_set, Map.get_empty, Option.or_none]

end BoingObserver.Context
