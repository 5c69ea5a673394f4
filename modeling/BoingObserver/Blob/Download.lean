import BoingObserver.Http
import BoingObserver.Oracle
import BoingObserver.Rpc.Client
import BoingObserver.Rpc.Hex

/-!
# Blob downloads

`GET` of `app/api/blob/download/route.ts`: a download is asked of a node with a wallet
proof, or with a credential in exchange for a download token.

* `exec_download`: at most one request goes upstream, and which.
* `download_law`: who gets which credential attached.
-/

namespace BoingObserver.Blob

open Js Http Rpc NativeUnit Oracle

/-! ## Requests and answers -/

/-- The variables of `process.env` the handler reads. -/
structure DownloadEnv where
  operatorRpcToken : Option Text
  blobDownloadTokens : Option Text
  blobDownloadRpc : Option Text
  rpc : RpcEnv

structure DownloadRequest where
  header : Text → Option Text
  query : Text → Option Text

structure Fetch where
  url : Text
  headers : List (Text × Text)

/-- A body as it is read: the bytes that arrive, and whether they end without an error. -/
structure Body where
  bytes : List ℕ
  complete : Bool

structure Upstream where
  status : ℕ
  header : Text → Option Text
  body : Option Body

def Upstream.ok (u : Upstream) : Bool := 200 ≤ u.status && u.status ≤ 299

abbrev Outcome : Fetch → Type := fun _ => Except Thrown Upstream

abbrev Calls (α : Type) : Type := Async Outcome Thrown α

def fetch (q : Fetch) : Calls Upstream := ExceptT.mk (Prog.query q)

inductive Response
  | json (status : ℕ) (body : Value)
  | blob (headers : List (Text × Text)) (body : Body)

structure Platform where
  numberText : NumberText
  parse : Text → Option Value
  decode : List ℕ → Text

/-! ## Tokens and proofs -/

/-- `v?.trim()`, if that is truthy. -/
def nonBlank (v : Option Text) : Option Text :=
  match v.map trim with
  | some (c :: s) => some (c :: s)
  | _ => none

def configuredDownloadTokens (env : DownloadEnv) : List Text :=
  let extra := (env.blobDownloadTokens.map trim).getD []
  ((extra.splitOn ',').map trim).foldl addNew (nonBlank env.operatorRpcToken).toList

/-- Where `.` of a regular expression stops. -/
def isLineTerminator (c : Char) : Bool :=
  c = '\n' || c = '\r' || c.toNat = 0x2028 || c.toNat = 0x2029

/-- `auth.match(/^Bearer\s+(.+)$/i)?.[1]?.trim()`, for a trimmed text. -/
def bearerToken (auth : Text) : Option Text :=
  let rest := auth.drop 6
  let t := rest.dropWhile isSpace
  if toLowerCase (auth.take 6) = "bearer" ∧ t.length < rest.length ∧ t ≠ [] ∧
      t.all (!isLineTerminator ·) then some (trim t)
  else none

def presentedToken (req : DownloadRequest) : Option Text :=
  match nonBlank (req.header "x-boing-blob-download") with
  | some t => some t
  | none =>
    match bearerToken ((req.header "authorization").map trim |>.getD []) with
    | some bearer =>
      -- A bearer of the wallet proof is no operator token.
      if bearer ≠ [] ∧ ¬ ("boing-blob" : Text).isPrefixOf bearer then some bearer
      else nonBlank (req.query "token")
    | none => nonBlank (req.query "token")

/-- The four headers of a wallet proof, if all are there. -/
def presentedProofHeaders (req : DownloadRequest) : Option (List (Text × Text)) := do
  let downloader ← nonBlank (req.header "x-boing-blob-downloader")
  let expires ← nonBlank (req.header "x-boing-blob-expires")
  let nonce ← nonBlank (req.header "x-boing-blob-nonce")
  let signature ← nonBlank (req.header "x-boing-blob-signature")
  return [("X-Boing-Blob-Downloader", downloader), ("X-Boing-Blob-Expires", expires),
    ("X-Boing-Blob-Nonce", nonce), ("X-Boing-Blob-Signature", signature)]

def baseHeaders : List (Text × Text) :=
  [("Accept", "*/*"), ("User-Agent", "boing-observer/blob-download")]

def credential (env : DownloadEnv) (presented : Option Text) : List (Text × Text) :=
  match nonBlank env.operatorRpcToken, presented with
  | some operator, _ => [("X-Boing-Operator", operator)]
  | none, some token => [("X-Boing-Blob-Download", token), ("Authorization", "Bearer " ++ token)]
  | none, none => []

def upstreamAuthHeaders (env : DownloadEnv) (presented : Option Text)
    (proof : Option (List (Text × Text))) : List (Text × Text) :=
  baseHeaders ++ proof.getD (credential env presented)

/-! ## The request -/

/-- `{ error, hint }` -/
def refusal (status : ℕ) (error hint : Text) : Refusal :=
  ⟨status, .object [("error", .string error), ("hint", .string hint)]⟩

/-- A download needs a proof, or one of the configured tokens. -/
def permit (env : DownloadEnv) (req : DownloadRequest) : Except Refusal Unit :=
  match presentedProofHeaders req with
  | some _ => .ok ()
  | none => do
    let tokens := configuredDownloadTokens env
    refuseIf (tokens = []) (refusal 503 "Blob download is not configured on this explorer."
      (("Connect a publisher/grantee wallet (Phase 34 proof) or set " : Text) ++
        ("BOING_BLOB_DOWNLOAD_TOKENS / BOING_OPERATOR_RPC_TOKEN." : Text)))
    refuseIf (!(presentedToken req).any (· ∈ tokens)) (refusal 401 "Download permission required."
      (("Use Download with wallet (publisher/grantee), or provide Authorization: Bearer / " : Text) ++
        ("X-Boing-Blob-Download matching an allowed download token." : Text)))

/-- `downloadRpcBase`; the producing validator is asked, not the public gateway. -/
def downloadRpcBase (env : DownloadEnv) (network : NetworkId) : Except Thrown Text :=
  match nonBlank env.blobDownloadRpc with
  | some override =>
    if stripSlash override = [] then hosted else .ok (stripSlash override)
  | none => hosted
where
  hosted : Except Thrown Text :=
    match network with
    | .testnet => .ok (hostedTestnetRpcFallbacks.head?.getD [])
    | .mainnet =>
      (getRpcBaseUrl env.rpc .mainnet).mapError fun _ =>
        ⟨true, "Error", "Mainnet RPC is not configured yet."⟩

def target (env : DownloadEnv) (req : DownloadRequest) : Except Refusal (NetworkId × Text) := do
  permit env req
  let network ← orRefuse (networkOf (req.query "network"))
    (errorJson 400 "Missing or invalid network (testnet | mainnet)")
  refuseIf (network = .mainnet && !isMainnetConfigured env.rpc)
    (errorJson 400 "Mainnet RPC is not configured.")
  let blobId := normalizeHex64 ((req.query "id").getD [])
  refuseIf (blobId = []) (errorJson 400 "Invalid blob id (64 hex characters).")
  return (network, blobId)

/-- The URL of a blob; its id has hexadecimal digits only, which `encodeURIComponent` keeps. -/
def blobUrl (base blobId : Text) : Text :=
  stripSlash base ++ ("/v1/media/blob?id=0x" : Text) ++ blobId

/-! ## The answer -/

def maxProxyBytes : ℕ := 48 * 1048576

/-- `readTextCapped` of `bounded-body.ts`; nothing for a body that is too large or unreadable. -/
def readTextCapped (p : Platform) (u : Upstream) (maxBytes : ℕ) : Option Text :=
  if isMoreThan (p.numberText.number (.string ((u.header "content-length").getD []))) maxBytes then
    none
  else
    match u.body with
    | none => some []
    | some body =>
      if maxBytes < body.bytes.length ∨ body.complete = false then none
      else some (p.decode body.bytes)

/-- The fields of a response; `undefined` is left out. -/
def jsonFields (fields : List (Text × Value)) : Value :=
  .object (fields.filter fun f => match f.2 with
    | .undefined => false
    | _ => true)

/-- `{ error, upstreamStatus }` -/
def upstreamFailed (u : Upstream) (detail : Text) : Response :=
  .json 502 (.object [("error", .string detail), ("upstreamStatus", .number (.ofNat u.status))])

def respondError (p : Platform) (u : Upstream) : Response :=
  let http : Text := ("Upstream HTTP " : Text) ++ decimal u.status
  match readTextCapped p u 16384 with
  | none => upstreamFailed u http
  | some [] => upstreamFailed u http
  | some text =>
    match p.parse text with
    | none => upstreamFailed u (text.take 240)
    -- `j.error` throws.
    | some .null => upstreamFailed u (text.take 240)
    | some j =>
      let error := if (j.get "error").truthy then j.get "error" else .string http
      .json (if u.status = 401 ∨ u.status = 403 then 401 else if u.status = 404 then 404 else 502)
        (jsonFields [("error", error), ("hint", j.get "hint"),
          ("upstreamStatus", .number (.ofNat u.status))])

/-- `Number(header || 0)` -/
def contentLength (p : Platform) (u : Upstream) : Number :=
  match u.header "content-length" with
  | some (c :: s) => p.numberText.number (.string (c :: s))
  | _ => .ofNat 0

def tooLarge (length : Text) (rest : Text) : Text :=
  ("Blob is too large to proxy through the explorer (" : Text) ++ length ++ rest

def respond (p : Platform) (blobId : Text) (u : Upstream) : Response :=
  if !u.ok then respondError p u
  else
    let length := contentLength p u
    if exceeds length maxProxyBytes then
      .json 413 (.object [
        ("error", .string (tooLarge (p.numberText.text length)
          ((" bytes; max " : Text) ++ decimal maxProxyBytes ++ (")." : Text)))),
        ("hint", .string (
          ("Download directly from the validator with GET /v1/media/blob?id=… and a " : Text) ++
            ("wallet proof or operator token." : Text))),
        ("blobId", .string ("0x" ++ blobId))])
    else
      let optional (name upstreamName : Text) : List (Text × Text) :=
        match u.header upstreamName with
        | some (c :: s) => [(name, c :: s)]
        | _ => []
      let filename : Text :=
        ("attachment; filename=\"boing-blob-" : Text) ++ blobId.take 8 ++ (".bin\"" : Text)
      let headers : List (Text × Text) :=
        [("Content-Type",
            (orText (u.header "content-type") (some "application/octet-stream")).getD []),
          ("Content-Disposition",
            (orText (u.header "content-disposition") (some filename)).getD []),
          ("Cache-Control", "private, no-store"), ("X-Boing-Blob-Id", "0x" ++ blobId)]
      let length : List (Text × Text) :=
        if exceeds length 0 then [("Content-Length", p.numberText.text length)] else []
      -- A response without a body has nothing that could be too large.
      .blob (headers ++ optional "X-Boing-Blob-Size" "x-boing-blob-size" ++
        optional "X-Boing-Blob-Publisher" "x-boing-blob-publisher" ++ length)
        (u.body.getD ⟨[], true⟩)

/-! ## The handler -/

def askNode (p : Platform) (blobId : Text) (q : Fetch) : Calls Response := do
  match ← Async.attempt (fetch q) with
  | .error e =>
    return .json 502 (.object [("error",
      .string (if e.isError then e.message else "Blob download RPC unreachable"))])
  | .ok u => return respond p blobId u

def download (p : Platform) (env : DownloadEnv) (req : DownloadRequest) : Calls Response :=
  match target env req with
  | .error r => pure (.json r.status r.body)
  | .ok (network, blobId) => do
    let base ← Async.ofExcept (downloadRpcBase env network)
    askNode p blobId ⟨blobUrl base blobId,
      upstreamAuthHeaders env (presentedToken req) (presentedProofHeaders req)⟩

/-! ## What a request presents -/

def HasText (v : Option Text) (t : Text) : Prop := v.map trim = some t ∧ t ≠ []

theorem nonBlank_eq_some_iff {v : Option Text} {t : Text} : nonBlank v = some t ↔ HasText v t := by
  rw [nonBlank, HasText]
  rcases v.map trim with _ | _ | ⟨c, s⟩
  · exact iff_of_false (fun h => nomatch h) fun h => nomatch h.1
  · refine iff_of_false (fun h => nomatch h) ?_
    rintro ⟨h, hne⟩
    exact hne (Option.some.inj h).symm
  · refine ⟨fun h => ⟨h, ?_⟩, And.left⟩
    rw [← Option.some.inj h]
    exact List.cons_ne_nil c s

theorem nonBlank_eq_none_iff {v : Option Text} : nonBlank v = none ↔ ∀ t, ¬ HasText v t := by
  rw [Option.eq_none_iff_forall_ne_some]
  exact forall_congr' fun t => not_congr nonBlank_eq_some_iff

structure WalletProof where
  downloader : Text
  expires : Text
  nonce : Text
  signature : Text

structure WalletProof.PresentedBy (w : WalletProof) (req : DownloadRequest) : Prop where
  downloader : HasText (req.header "x-boing-blob-downloader") w.downloader
  expires : HasText (req.header "x-boing-blob-expires") w.expires
  nonce : HasText (req.header "x-boing-blob-nonce") w.nonce
  signature : HasText (req.header "x-boing-blob-signature") w.signature

def WalletProof.headers (w : WalletProof) : List (Text × Text) :=
  [("X-Boing-Blob-Downloader", w.downloader), ("X-Boing-Blob-Expires", w.expires),
    ("X-Boing-Blob-Nonce", w.nonce), ("X-Boing-Blob-Signature", w.signature)]

theorem presentedProofHeaders_eq_some_iff {req : DownloadRequest} {proof : List (Text × Text)} :
    presentedProofHeaders req = some proof ↔
      ∃ w : WalletProof, w.PresentedBy req ∧ proof = w.headers := by
  constructor
  · intro h
    rw [presentedProofHeaders] at h
    obtain ⟨downloader, hdownloader, h⟩ := Option.bind_eq_some_iff.mp h
    obtain ⟨expires, hexpires, h⟩ := Option.bind_eq_some_iff.mp h
    obtain ⟨nonce, hnonce, h⟩ := Option.bind_eq_some_iff.mp h
    obtain ⟨signature, hsignature, h⟩ := Option.bind_eq_some_iff.mp h
    exact ⟨⟨downloader, expires, nonce, signature⟩,
      ⟨nonBlank_eq_some_iff.mp hdownloader, nonBlank_eq_some_iff.mp hexpires,
        nonBlank_eq_some_iff.mp hnonce, nonBlank_eq_some_iff.mp hsignature⟩,
      (Option.some.inj h).symm⟩
  · rintro ⟨w, h, rfl⟩
    rw [presentedProofHeaders, nonBlank_eq_some_iff.mpr h.downloader,
      nonBlank_eq_some_iff.mpr h.expires, nonBlank_eq_some_iff.mpr h.nonce,
      nonBlank_eq_some_iff.mpr h.signature]
    rfl

theorem presentedProofHeaders_eq_none_iff {req : DownloadRequest} :
    presentedProofHeaders req = none ↔ ∀ w : WalletProof, ¬ w.PresentedBy req := by
  rw [Option.eq_none_iff_forall_ne_some]
  constructor
  · exact fun h w hw => h _ (presentedProofHeaders_eq_some_iff.mpr ⟨w, hw, rfl⟩)
  · intro h proof hproof
    obtain ⟨w, hw, -⟩ := presentedProofHeaders_eq_some_iff.mp hproof
    exact h w hw

/-- `Bearer`, white space, and a token on one line. -/
def IsBearer (auth token : Text) : Prop :=
  ∃ space rest, toLowerCase (auth.take 6) = "bearer" ∧ auth.drop 6 = space ++ rest ∧ space ≠ [] ∧
    (∀ c ∈ space, isSpace c) ∧ (∀ c ∈ rest.head?, ¬ isSpace c) ∧ rest ≠ [] ∧
    (∀ c ∈ rest, ¬ isLineTerminator c) ∧ token = trim rest

theorem bearerToken_eq_some_iff {auth token : Text} :
    bearerToken auth = some token ↔ IsBearer auth token := by
  rw [bearerToken, IsBearer]
  constructor
  · intro h
    split at h
    next hcond =>
      obtain ⟨hword, hlen, hne, hline⟩ := hcond
      refine ⟨(auth.drop 6).takeWhile isSpace, (auth.drop 6).dropWhile isSpace, hword,
        List.takeWhile_append_dropWhile.symm, ?_, fun c hc => List.mem_takeWhile_imp hc, ?_, hne, ?_,
        (Option.some.inj h).symm⟩
      · intro hnil
        have hsum := congrArg List.length (List.takeWhile_append_dropWhile (p := isSpace)
          (l := auth.drop 6))
        rw [hnil, List.nil_append] at hsum
        omega
      · intro c hc
        have hhead := List.head?_dropWhile_not isSpace (auth.drop 6)
        rw [hc] at hhead
        simpa using hhead
      · simpa using hline
    next => cases h
  · rintro ⟨space, rest, hword, hsplit, hne, hspace, hhead, hrest, hline, rfl⟩
    have hdrop : (auth.drop 6).dropWhile isSpace = rest := by
      rw [hsplit, List.dropWhile_append_of_pos hspace]
      exact List.dropWhile_eq_self_iff.mpr fun hlen => hhead _ (List.head?_eq_getElem? ▸ by simp)
    rw [hdrop, if_pos]
    refine ⟨hword, ?_, hrest, by simpa using hline⟩
    rw [hsplit, List.length_append]
    have hpos := List.length_pos_iff.mpr hne
    omega

/-- The token a request presents: its own header first, then a bearer that is no wallet proof, then
the parameter. -/
inductive Presented (req : DownloadRequest) (token : Text) : Prop
  | header (h : HasText (req.header "x-boing-blob-download") token)
  | bearer (hheader : ∀ t, ¬ HasText (req.header "x-boing-blob-download") t) {auth : Text}
      (hauth : (req.header "authorization").map trim = some auth) (h : IsBearer auth token)
      (hne : token ≠ []) (hproof : ¬ ("boing-blob" : Text) <+: token)
  | query (hheader : ∀ t, ¬ HasText (req.header "x-boing-blob-download") t)
      (hbearer : ∀ auth t, (req.header "authorization").map trim = some auth → IsBearer auth t →
        t = [] ∨ ("boing-blob" : Text) <+: t)
      (h : HasText (req.query "token") token)

theorem presented_of_presentedToken {req : DownloadRequest} {token : Text}
    (h : presentedToken req = some token) : Presented req token := by
  rw [presentedToken] at h
  split at h
  next t ht =>
    obtain rfl := Option.some.inj h
    exact .header (nonBlank_eq_some_iff.mp ht)
  next hheader =>
    rw [nonBlank_eq_none_iff] at hheader
    have hquery : (∀ auth t, (req.header "authorization").map trim = some auth → IsBearer auth t →
        t = [] ∨ ("boing-blob" : Text) <+: t) →
          nonBlank (req.query "token") = some token → Presented req token :=
      fun hbearer hq => .query hheader hbearer (nonBlank_eq_some_iff.mp hq)
    cases hauth : (req.header "authorization").map trim with
    | none =>
      rw [hauth] at h
      exact hquery (fun auth t ha => nomatch hauth.symm.trans ha) h
    | some auth =>
      rw [hauth, Option.getD_some] at h
      split at h
      next bearer hb =>
        split at h
        next hcond =>
          obtain rfl := Option.some.inj h
          exact .bearer hheader hauth (bearerToken_eq_some_iff.mp hb) hcond.1
            fun hp => hcond.2 (List.isPrefixOf_iff_prefix.mpr hp)
        next hcond =>
          refine hquery (fun auth' t ha ht => ?_) h
          obtain rfl : auth = auth' := Option.some.inj (hauth.symm.trans ha)
          obtain rfl : bearer = t :=
            Option.some.inj (hb.symm.trans (bearerToken_eq_some_iff.mpr ht))
          by_cases hne : bearer = []
          · exact .inl hne
          · exact .inr (List.isPrefixOf_iff_prefix.mp (not_not.mp fun hp => hcond ⟨hne, hp⟩))
      next hb =>
        refine hquery (fun auth' t ha ht => ?_) h
        obtain rfl : auth = auth' := Option.some.inj (hauth.symm.trans ha)
        cases hb.symm.trans (bearerToken_eq_some_iff.mpr ht)

def Configured (env : DownloadEnv) (token : Text) : Prop :=
  HasText env.operatorRpcToken token ∨
    token ≠ [] ∧ ∃ list part, env.blobDownloadTokens.map trim = some list ∧
      part ∈ list.splitOn ',' ∧ token = trim part

theorem mem_configuredDownloadTokens {env : DownloadEnv} {token : Text}
    (h : token ∈ configuredDownloadTokens env) : Configured env token := by
  rw [configuredDownloadTokens, mem_foldl_addNew, Option.mem_toList] at h
  rcases h with h | ⟨h, hne⟩
  · exact .inl (nonBlank_eq_some_iff.mp h)
  · obtain ⟨part, hpart, rfl⟩ := List.mem_map.mp h
    refine .inr ⟨hne, ?_⟩
    cases hlist : env.blobDownloadTokens.map trim with
    | some list =>
      rw [hlist] at hpart
      exact ⟨list, part, rfl, hpart, rfl⟩
    | none =>
      rw [hlist] at hpart
      obtain rfl := List.mem_singleton.mp hpart
      exact absurd rfl hne

/-! ## Who gets a credential -/

def credentialHeaders : List Text := ["X-Boing-Operator", "X-Boing-Blob-Download", "Authorization"]

def CarriesCredential (headers : List (Text × Text)) : Prop := ∃ h ∈ headers, h.1 ∈ credentialHeaders

/-- Neither the fixed headers nor those of a proof hold a credential. -/
theorem not_carriesCredential_proof (w : WalletProof) :
    ¬ CarriesCredential (baseHeaders ++ w.headers) := by
  rintro ⟨header, hmem, hname⟩
  have hmap : header.1 ∈ (baseHeaders ++ w.headers).map Prod.fst := List.mem_map_of_mem hmem
  have hnames : (baseHeaders ++ w.headers).map Prod.fst = ["Accept", "User-Agent",
      "X-Boing-Blob-Downloader", "X-Boing-Blob-Expires", "X-Boing-Blob-Nonce",
      "X-Boing-Blob-Signature"] := rfl
  rw [hnames] at hmap
  revert hname
  generalize header.1 = name at hmap
  revert name
  decide

/-- The server's secret goes upstream, or where there is none the token. -/
def Attached (env : DownloadEnv) (token : Text) (headers : List (Text × Text)) : Prop :=
  (∃ operator, HasText env.operatorRpcToken operator ∧
    headers = baseHeaders ++ [(("X-Boing-Operator" : Text), operator)]) ∨
  (∀ operator, ¬ HasText env.operatorRpcToken operator) ∧
    headers = baseHeaders ++
      [(("X-Boing-Blob-Download" : Text), token), ("Authorization", "Bearer " ++ token)]

theorem attached_credential (env : DownloadEnv) (token : Text) :
    Attached env token (upstreamAuthHeaders env (some token) none) := by
  rw [upstreamAuthHeaders, Option.getD_none]
  unfold credential
  cases h : nonBlank env.operatorRpcToken with
  | some operator => exact .inl ⟨operator, nonBlank_eq_some_iff.mp h, rfl⟩
  | none => exact .inr ⟨nonBlank_eq_none_iff.mp h, rfl⟩

theorem permit_ok {env : DownloadEnv} {req : DownloadRequest} {u : Unit}
    (h : permit env req = .ok u) (hproof : presentedProofHeaders req = none) :
    ∃ token, presentedToken req = some token ∧ token ∈ configuredDownloadTokens env := by
  rw [permit, hproof] at h
  obtain ⟨_, -, h⟩ := bind_eq_ok h
  have hany := refuseIf_eq_ok h
  rw [Bool.not_eq_false', Option.any_eq_true] at hany
  obtain ⟨token, htoken, hmem⟩ := hany
  exact ⟨token, htoken, of_decide_eq_true hmem⟩

theorem target_ok {env : DownloadEnv} {req : DownloadRequest} {network : NetworkId} {blobId : Text}
    (h : target env req = .ok (network, blobId)) :
    permit env req = .ok () ∧ blobId = normalizeHex64 ((req.query "id").getD []) := by
  rw [target] at h
  obtain ⟨_, hpermit, h⟩ := bind_eq_ok h
  obtain ⟨_, -, h⟩ := bind_eq_ok h
  obtain ⟨_, -, h⟩ := bind_eq_ok h
  obtain ⟨_, -, h⟩ := bind_eq_ok h
  exact ⟨hpermit, (congrArg Prod.snd (Except.ok.inj h)).symm⟩

variable {oracle : Env Outcome}

theorem exec_askNode (p : Platform) (blobId : Text) (q : Fetch) (tr : Trace Outcome) :
    (Async.exec oracle (askNode p blobId q) tr).2 = tr ++ [⟨q, oracle tr q⟩] := by
  have hfetch : Async.exec oracle (fetch q) tr = (oracle tr q, tr ++ [⟨q, oracle tr q⟩]) := rfl
  rw [askNode, Async.exec_bind, Async.exec_attempt, hfetch]
  cases oracle tr q with
  | error e => rfl
  | ok u => rfl

/-- **At most one request goes upstream**, with permission, to the URL of the blob. -/
theorem exec_download (oracle : Env Outcome) (p : Platform) (env : DownloadEnv)
    (req : DownloadRequest) :
    (Async.exec oracle (download p env req) []).2 = [] ∨
      ∃ network base o, permit env req = .ok () ∧ downloadRpcBase env network = .ok base ∧
        (Async.exec oracle (download p env req) []).2 =
          [⟨⟨blobUrl base (normalizeHex64 ((req.query "id").getD [])),
            upstreamAuthHeaders env (presentedToken req) (presentedProofHeaders req)⟩, o⟩] := by
  rw [download]
  cases htarget : target env req with
  | error r => exact Or.inl rfl
  | ok t =>
    obtain ⟨network, blobId⟩ := t
    obtain ⟨hpermit, rfl⟩ := target_ok htarget
    cases hbase : downloadRpcBase env network with
    | error e =>
      refine Or.inl ?_
      dsimp only
      rw [Async.exec_bind, hbase]
      rfl
    | ok base =>
      refine Or.inr ⟨network, base, oracle [] ⟨blobUrl base _, upstreamAuthHeaders env
        (presentedToken req) (presentedProofHeaders req)⟩, hpermit, hbase, ?_⟩
      dsimp only
      rw [Async.exec_bind, hbase]
      exact exec_askNode p _ _ []

/-- **Download secrets are gated.**  Whatever the node answers, at most one request goes upstream,
to the URL of the blob.  A request with the four headers of a wallet proof is passed on with those
values and no credential.  Without them it is passed on only for the token it presents, if that is
configured, with the server's secret or that token.  With neither, nothing is asked. -/
theorem download_law (p : Platform) (env : DownloadEnv) (req : DownloadRequest)
    (oracle : Env Outcome) :
    let asked := (Async.exec oracle (download p env req) []).2
    (asked.length ≤ 1 ∧ ∀ e ∈ asked, ∃ network base, downloadRpcBase env network = .ok base ∧
      e.1.url = blobUrl base (normalizeHex64 ((req.query "id").getD []))) ∧
    (∀ e ∈ asked, CarriesCredential e.1.headers → (∀ w : WalletProof, ¬ w.PresentedBy req) ∧
      ∃ token, Presented req token ∧ Configured env token ∧ Attached env token e.1.headers) ∧
    (∀ w : WalletProof, w.PresentedBy req → ∀ e ∈ asked,
      e.1.headers = baseHeaders ++ w.headers ∧ ¬ CarriesCredential e.1.headers) ∧
    ((∀ w : WalletProof, ¬ w.PresentedBy req) →
      (∀ token, Presented req token → ¬ Configured env token) → asked = []) := by
  intro asked
  rcases exec_download oracle p env req with hnone | ⟨network, base, o, hpermit, hbase, hone⟩
  · have hasked : asked = [] := hnone
    rw [hasked]
    refine ⟨⟨Nat.zero_le _, ?_⟩, ?_, ?_, fun _ _ => rfl⟩
    · rintro e ⟨⟩
    · rintro e ⟨⟩
    · rintro w - e ⟨⟩
  · have hasked : asked = _ := hone
    rw [hasked]
    refine ⟨⟨Nat.le_refl 1, ?_⟩, ?_, ?_, ?_⟩
    · intro e he
      obtain rfl := List.mem_singleton.mp he
      exact ⟨network, base, hbase, rfl⟩
    · intro e he hcarries
      obtain rfl := List.mem_singleton.mp he
      cases hproof : presentedProofHeaders req with
      | some proof =>
        obtain ⟨w, -, rfl⟩ := presentedProofHeaders_eq_some_iff.mp hproof
        rw [hproof] at hcarries
        exact absurd hcarries (not_carriesCredential_proof w)
      | none =>
        obtain ⟨token, htoken, hmem⟩ := permit_ok hpermit hproof
        refine ⟨presentedProofHeaders_eq_none_iff.mp hproof, token,
          presented_of_presentedToken htoken, mem_configuredDownloadTokens hmem, ?_⟩
        rw [htoken]
        exact attached_credential env token
    · intro w hw e he
      obtain rfl := List.mem_singleton.mp he
      rw [presentedProofHeaders_eq_some_iff.mpr ⟨w, hw, rfl⟩]
      exact ⟨rfl, not_carriesCredential_proof w⟩
    · intro hproof hbad
      obtain ⟨token, htoken, hmem⟩ := permit_ok hpermit (presentedProofHeaders_eq_none_iff.mpr hproof)
      exact absurd (mem_configuredDownloadTokens hmem)
        (hbad token (presented_of_presentedToken htoken))

end BoingObserver.Blob
