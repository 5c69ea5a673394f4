import BoingObserver.Js.Value

/-!
# Blocks

The parts of a block of `rpc-types.ts` that the explorer's summaries read.
-/

namespace BoingObserver.Rpc

open Js

structure BlockHeader where
  height : Option Number
  timestamp : Value
  proposer : Value

structure Block where
  header : BlockHeader
  transactions : Option (List Value)
  /-- Present when asked for; same order as `transactions`. -/
  receipts : Value

/-- `block.transactions ?? []` -/
def Block.txs (block : Block) : List Value := block.transactions.getD []

/-- `header.height ?? 0`, as a number to sort by. -/
def Block.sortHeight (block : Block) : ℚ :=
  match block.header.height with
  | some (.finite q) => q
  | _ => 0

end BoingObserver.Rpc
