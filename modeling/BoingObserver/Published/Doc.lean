import BoingObserver.Contract.Interfaces
import BoingObserver.Js.Coerce

/-!
# Published interface documents

`parsePublishedDoc` of `published-interface.ts`: a fetched JSON text as the
functions of a contract, or an error that names the field at fault.
-/

namespace BoingObserver.Published

open Js Contract

structure Engine where
  numberText : NumberText
  /-- `blake3(bytes)` -/
  blake3 : List ℕ → List ℕ
  /-- `new TextDecoder().decode(bytes)` -/
  decode : List ℕ → Text
  /-- `JSON.parse(text)` -/
  parse : Text → Except JsError Value
  inflateRaw : List ℕ → Except JsError (List ℕ)
  /-- The messages of errors the engine makes. -/
  engineMessage : JsError → Text

/-- `(e as Error).message` -/
def Engine.message (engine : Engine) : JsError → Text
  | .error message => message
  | e => engine.engineMessage e

def paramTypes : List (Text × AbiParamType) :=
  [("account", .account), ("u128", .u128), ("u64", .u64), ("bytes32", .bytes32), ("bool", .bool),
    ("u8", .u8)]

structure PublishedDoc where
  name : Option Text
  summary : Option Text
  functions : List ContractFunction

/-- `v.k`, which throws on `null` and `undefined`. -/
def prop (v : Value) (k : Text) : Except JsError Value :=
  if v.isNullish then .error .typeError else .ok (v.get k)

/-- `typeof v === "string" ? v : ""` -/
def textOr (v : Value) : Text := v.asString?.getD []

section

variable (engine : Engine)

/-- `functions[i]` -/
def functionPath (i : ℕ) : Text := "functions[" ++ decimal i ++ "]"

def parseParam (i : ℕ) (p : Value) (j : ℕ) : Except JsError AbiParam := do
  let type ← engine.numberText.toText (← prop p "type")
  match paramTypes.lookup type with
  | none => .error (.error (functionPath i ++ ".params[" ++ decimal j ++ "].type"))
  | some type =>
    let name ← engine.numberText.toText ((p.get "name").orElse (.string ("arg" ++ decimal j)))
    return { name, type, note := (p.get "note").asString? }

def parseSelector (i : ℕ) (selector : Number) : Except JsError ℕ :=
  match selector.toInt? with
  | some (.ofNat n) => if n ≤ 255 then .ok n else .error (.error (functionPath i ++ ".selector"))
  | _ => .error (.error (functionPath i ++ ".selector"))

def parseName (i : ℕ) (name : Value) : Except JsError Text :=
  match name with
  | .string (c :: cs) => .ok (c :: cs)
  | _ => .error (.error (functionPath i ++ ".name"))

def parseFunction (f : Value) (i : ℕ) : Except JsError ContractFunction := do
  let selector ← parseSelector i (← engine.numberText.toNumeric (← prop f "selector"))
  let name ← parseName i (f.get "name")
  let params ← ((f.get "params").asArray?.getD []).zipIdx.mapM fun (p, j) => parseParam engine i p j
  return { selector, name, params,
           kind := if (f.get "kind").asString? = some "read" then .read else .write,
           description := textOr (f.get "description"),
           access := textOr (f.get "access"),
           returns := (f.get "returns").asString? }

/-- Validate a fetched interface JSON into observer functions; throws on bad shape. -/
def parsePublishedDoc (text : Text) : Except JsError PublishedDoc := do
  let v ← engine.parse text
  match (← prop v "functions").asArray? with
  | none => .error (.error "missing functions array")
  | some fs =>
    let functions ← fs.zipIdx.mapM fun (f, i) => parseFunction engine f i
    return { name := (v.get "name").asString?, summary := (v.get "summary").asString?, functions }

end

end BoingObserver.Published
