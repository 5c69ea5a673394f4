import BoingObserver.Rpc.Hex

/-!
# Voters and their votes

The hex shapes of `qa-reviewer-auth.ts`.  Who may vote is the node's decision.

* `normalizeVoterHex_of_isAccountHex`: an account is left as it is.
-/

namespace BoingObserver.Qa

open Js

def normalizeVoterHex (raw : Text) : Text := toLowerCase (strip0x (trim raw))

/-- `/^[0-9a-f]{64}$/` -/
def isAccountHex (hex : Text) : Bool := hex.length = 64 && hex.all isHexDigit

/-- The hex of a signed transaction (`0x` optional).  A weak length floor; the node decodes it. -/
def normalizeSignedTxHex (raw : Text) : Option Text :=
  let hex := toLowerCase (strip0x (trim raw))
  if hex.length < 64 ∨ hex.length % 2 ≠ 0 then none
  else if hex.all isHexDigit then some hex
  else none

def qaPoolVoteRpcParams (txHash voterHex vote : Text) (signedTxHex : Option Text) : List Value :=
  [.string ("0x" ++ txHash), .string ("0x" ++ voterHex), .string vote] ++
    ((signedTxHex.filter (· ≠ [])).map fun hex => Value.string ("0x" ++ hex)).toList

theorem isAccountHex_iff {hex : Text} : isAccountHex hex = true ↔ hex.length = 64 ∧ IsHex hex := by
  rw [isAccountHex, Bool.and_eq_true, decide_eq_true_eq, List.all_eq_true]
  exact Iff.rfl

/-- **An account is left as it is.** -/
theorem normalizeVoterHex_of_isAccountHex {hex : Text} (h : isAccountHex hex = true) :
    normalizeVoterHex hex = hex := by
  have hhex := (isAccountHex_iff.mp h).2
  rw [normalizeVoterHex, hhex.trim_eq, hhex.strip0x_eq, hhex.toLowerCase_eq]

end BoingObserver.Qa
