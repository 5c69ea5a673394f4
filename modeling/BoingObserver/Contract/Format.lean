import BoingObserver.Js.Coerce

/-!
# Amounts, names and segments

The formatting helpers of `tx-decode.ts` and the `Segment` type a description is
made of.

A context record is a partial function here: it is read at the ids of a call,
which are its own keys or none.  Floating-point texts are a parameter
(`FloatText`): what the engine prints for a fee or a rate.
-/

namespace BoingObserver.Contract

open Js

/-! ## The context -/

structure TokenMeta where
  symbol : Option Text
  name : Option Text
  decimals : Option Number

structure PoolMeta where
  tokenA : Text
  tokenB : Text
  feeBps : Option Number

/-- An LP vault (v2): the custody pool it adds liquidity to and its token pair. -/
structure VaultMeta where
  pool : Text
  tokenA : Text
  tokenB : Text

/-- What is known about the addresses a transaction mentions. -/
structure DecodeContext where
  interfaceId : Option Text
  tokens : Text → Option TokenMeta
  pools : Text → Option PoolMeta
  vaults : Text → Option VaultMeta
  /-- Human labels for well-known addresses. -/
  labels : Text → Option Text

/-- `EMPTY_DECODE_CONTEXT` -/
def emptyDecodeContext : DecodeContext where
  interfaceId := none
  tokens _ := none
  pools _ := none
  vaults _ := none
  labels _ := none

structure FloatText where
  /-- `` `${(feeBps / 100).toFixed(2)}%` `` -/
  percent : Number → Text
  /-- `10000 - feeBps` -/
  afterFeeBps : Number → Number
  /-- `` `${Number(scaled.toPrecision(6))}` `` for the rate of two raw amounts in the decimals of
  their tokens; nothing when it is not finite and positive. -/
  rate : ℤ → ℤ → Number → Number → Option Text

def noFloatText : FloatText where
  percent _ := []
  afterFeeBps := id
  rate _ _ _ _ := none

/-! ## Texts -/

def nonEmpty (s : Option Text) : Option Text := s.filter (· ≠ [])

def isWordChar (c : Char) : Bool := c.isAlphanum || c = '_'

/-- `digits.replace(/\B(?=(\d{3})+(?!\d))/g, ",")`, with the character before the rest. -/
def groupFrom (before : Option Char) : Text → Text
  | [] => []
  | c :: s =>
    let run := ((c :: s).takeWhile Char.isDigit).length
    let inner := before.any isWordChar
    let rest := c :: groupFrom (some c) s
    if inner ∧ 0 < run ∧ run % 3 = 0 then ',' :: rest else rest

def group (digits : Text) : Text := groupFrom none digits

/-- The decimals `formatTokenAmount` uses: an integer from `1` to `36`, else `0`. -/
def usableDecimals (decimals : Option Number) : ℕ :=
  match decimals.bind (·.toInt?) with
  | some (.ofNat d) => if 0 < d ∧ d ≤ 36 then d else 0
  | _ => 0

/-- `raw` in token units: `decimals` fractional digits.  Trailing zeros are trimmed. -/
def formatTokenAmount (raw : ℤ) (decimals : Option Number) : Text :=
  let d := usableDecimals decimals
  let s := intText raw
  if d = 0 then group s
  else
    let padded := s.leftpad (d + 1) '0'
    let int := padded.take (padded.length - d)
    let frac := (padded.drop (padded.length - d)).rdropWhile (· = '0')
    if frac = [] then group int else group int ++ "." ++ frac

def shortId (id : Text) : Text :=
  if id.length > 18 then "0x" ++ slice id 0 6 ++ "…" ++ sliceEnd id 4 else "0x" ++ id

def tokenSymbol (id : Text) (ctx : DecodeContext) : Text :=
  let meta? := ctx.tokens id
  let symbol := (meta?.bind (·.symbol)).map trim
  let name := (meta?.bind (·.name)).map trim
  (orText symbol (orText name (orText (ctx.labels id) none))).getD ("token " ++ shortId id)

/-! ## Segments -/

inductive AccountRole
  | contract
  | account

inductive Segment
  | text (text : Text)
  | amount (text : Text) (title : Option Text)
  | token (id text : Text)
  | account (id : Option Text) (text : Text) (role : AccountRole)

structure DetailRow where
  label : Text
  value : List Segment

def Segment.shown : Segment → Text
  | .text s => s
  | .amount s _ => s
  | .token _ s => s
  | .account _ s _ => s

def segmentsToText (segs : List Segment) : Text := segs.flatMap Segment.shown

/-- `t(text)` -/
def txt (text : Text) : Segment := .text text

def tok (id : Text) (ctx : DecodeContext) : Segment := .token id (tokenSymbol id ctx)

def acctSeg (id : Text) (ctx : DecodeContext) (role : AccountRole := .account) : Segment :=
  .account (some id) ((ctx.labels id).getD (shortId id)) role

/-- `acct(id!, ctx)`: a `null` id is looked up as the key `"null"`, and has no short form. -/
def acctOrThrow (id : Option Text) (ctx : DecodeContext) : Except JsError Segment :=
  match id with
  | some id => .ok (acctSeg id ctx)
  | none =>
    match ctx.labels "null" with
    | some label => .ok (.account none label .account)
    | none => .error .typeError

/-- Address with no registry label. -/
def bare (id : Text) (role : AccountRole := .contract) : Segment :=
  .account (some id) (shortId id) role

/-- What the `title` of an amount says. -/
def rawUnits (raw : ℤ) : Text := intText raw ++ " raw units"

def amt (raw : ℤ) (token : Option Text) (ctx : DecodeContext) : Segment :=
  let decimals := ((nonEmpty token).bind ctx.tokens).bind (·.decimals)
  .amount (formatTokenAmount raw decimals) (some (rawUnits raw))

def amountTok (raw : ℤ) (token : Text) (ctx : DecodeContext) : List Segment :=
  [amt raw (some token) ctx, txt " ", tok token ctx]

def amountSegs (raw : ℤ) (token : Option Text) (ctx : DecodeContext) : List Segment :=
  match token with
  | some token => amountTok raw token ctx
  | none => [amt raw none ctx, txt " (raw units)"]

def joinSegs (parts : List (List Segment)) (sep : Text) : List Segment :=
  (parts.intersperse [txt sep]).flatten

/-! ## Raw units -/

/-- **The title of an amount determines the amount.** -/
theorem rawUnits_natCast_inj {m n : ℕ} : rawUnits m = rawUnits n ↔ m = n := by
  rw [rawUnits, rawUnits, List.append_left_inj, intText_natCast, intText_natCast,
    decimal_injective.eq_iff]

end BoingObserver.Contract
