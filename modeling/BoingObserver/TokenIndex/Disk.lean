import BoingObserver.AtomicFile
import BoingObserver.Js.ToNumber
import BoingObserver.NativeUnit.Config

/-!
# The token index on disk

`cache-logic.ts` and `file-cache-store.ts`: an index that was built is kept in a file of its
network and range, for the requests that follow.  Several requests, of several processes, write
and read at the same time, and any of them may fail.

* `baseName_inj`: a range has a file of its own.
* `readTokenIndexDiskCache_exact`: what is read is what was saved last for the range, in full, as
  long as it is fresh.
-/

namespace BoingObserver.TokenIndex

open Js NativeUnit AtomicFile
open Overlap (run AllAllowed)

/-! ## Names -/

structure RangeKey where
  network : NetworkId
  fromHeight : ℕ
  toHeight : ℕ
  deriving DecidableEq

/-- `/[a-z0-9_-]/i` -/
def isSafeChar (c : Char) : Bool := c.isAlphanum || c = '_' || c = '-'

def tokenIndexCacheFileBaseName (network : Text) (fromHeight toHeight : ℕ) : Text :=
  (network.map fun c => if isSafeChar c then c else '_') ++ '_' :: decimal fromHeight ++
    '_' :: decimal toHeight

def RangeKey.baseName (k : RangeKey) : Text :=
  tokenIndexCacheFileBaseName k.network.text k.fromHeight k.toHeight

def cacheFile (base : Text) : Text := base ++ ".json"

def tmpFile (base : Text) (pid : ℕ) : Text := '.' :: base ++ '.' :: decimal pid ++ ".tmp"

/-- Temporary names start with a dot. -/
def IsTmp (name : Text) : Prop := name.head? = some '.'

theorem decimal_append_inj {m n : ℕ} {c : Char} {s t : Text} (hc : c.isDigit = false)
    (h : decimal m ++ c :: s = decimal n ++ c :: t) : m = n ∧ s = t := by
  have hcut : ∀ (k : ℕ) (r : Text), (decimal k ++ c :: r).takeWhile Char.isDigit = decimal k := by
    intro k r
    rw [List.takeWhile_append_of_pos (isDigits_decimal k).2,
      List.takeWhile_cons_of_neg (ne_true_of_eq_false hc), List.append_nil]
  have hfront : decimal m = decimal n := by rw [← hcut m s, h, hcut]
  refine ⟨decimal_injective hfront, ?_⟩
  rw [hfront] at h
  exact (List.cons.inj (List.append_cancel_left h)).2

/-- **A range has a file of its own.** -/
theorem baseName_inj {k k' : RangeKey} (h : k.baseName = k'.baseName) : k = k' := by
  obtain ⟨network, fromHeight, toHeight⟩ := k
  obtain ⟨network', fromHeight', toHeight'⟩ := k'
  rw [RangeKey.baseName, RangeKey.baseName, tokenIndexCacheFileBaseName,
    tokenIndexCacheFileBaseName, List.append_assoc, List.append_assoc] at h
  dsimp only at h
  have hname : ∀ n : NetworkId, n.text.map (fun c => if isSafeChar c then c else '_') = n.text := by
    intro n
    cases n <;> decide
  rw [hname, hname] at h
  have hnetwork : network = network' := by
    cases network <;> cases network' <;> first | rfl | exact absurd (List.cons.inj h).1 (by decide)
  rw [hnetwork] at h
  have hrest := (List.cons.inj (List.append_cancel_left h)).2
  obtain ⟨hfrom, hto⟩ := decimal_append_inj (by decide) hrest
  rw [hnetwork, hfrom, decimal_injective hto]

theorem cacheFile_inj {base base' : Text} (h : cacheFile base = cacheFile base') : base = base' :=
  List.append_cancel_right h

theorem isTmp_tmpFile (base : Text) (pid : ℕ) : IsTmp (tmpFile base pid) := rfl

theorem not_isTmp_cacheFile (k : RangeKey) : ¬ IsTmp (cacheFile k.baseName) := by
  obtain ⟨network, fromHeight, toHeight⟩ := k
  intro h
  cases network <;> exact absurd (Option.some.inj h) (by decide)

/-! ## Freshness -/

/-- The variables of `process.env` that the cache reads. -/
structure CacheEnv where
  dir : Option Text
  ttlSec : Option Text
  ttlSeconds : Option Text

def defaultTokenIndexCacheTtlSeconds (env : CacheEnv) : Number :=
  match env.ttlSec.orElse fun _ => env.ttlSeconds with
  | none => .ofNat 600
  | some raw =>
    if raw = [] then .ofNat 600
    else
      match parseInt10 raw with
      | .finite n => if n < 0 then .ofNat 600 else .finite (min n (86400 * 7))
      | _ => .ofNat 600

/-- What the platform does with texts: `JSON.stringify`, `JSON.parse` and `Date.parse`. -/
structure Platform where
  stringify : Value → Text
  parse : Text → Option Value
  dateParse : Text → Option ℤ

section

variable (P : Platform)

def isCacheFresh (savedAtIso : Text) (ttlSeconds : Number) (nowMs : ℤ) : Bool :=
  match ttlSeconds, P.dateParse savedAtIso with
  | .finite ttl, some t => 0 < ttl ∧ ((nowMs - t : ℤ) : ℚ) < ttl * 1000
  | .infinite negative, some _ => !negative
  | _, _ => false

/-! ## Reading -/

/-- What `readFile` gives. -/
inductive FileRead
  | missing
  | failed
  | text (raw : Text)

inductive ReadDiskCacheResult
  | ok (envelope : Value)
  | disabled
  | missing
  | expired
  | corrupt

/-- `TOKEN_INDEX_CACHE_DIR` does not turn the cache off. -/
def cacheEnabled (flag : Option Text) : Bool :=
  ¬ (flag = some "off" ∨ flag = some "false" ∨ flag = some "0")

/-- `v` is 1, there is a result, and `savedAt` is a text. -/
def isEnvelope (parsed : Value) : Bool :=
  (match parsed.get "v" with
    | .number x => x = .finite 1
    | _ => false) && (parsed.get "result").truthy && (parsed.get "savedAt").asString?.isSome

def readTokenIndexDiskCache (env : CacheEnv) (file : FileRead) (nowMs : ℤ) : ReadDiskCacheResult :=
  if cacheEnabled env.dir = false then .disabled
  else
    match file with
    | .missing => .missing
    | .failed => .corrupt
    | .text raw =>
      match P.parse raw with
      | none => .corrupt
      | some parsed =>
        if isEnvelope parsed = false then .corrupt
        else
          let ttl := match parsed.get "ttlSeconds" with
            | .number x => x
            | _ => defaultTokenIndexCacheTtlSeconds env
          if isCacheFresh P ((parsed.get "savedAt").asString?.getD []) ttl nowMs then .ok parsed
          else .expired

/-! ## Writing -/

structure TokenIndexDiskEnvelope where
  key : RangeKey
  savedAt : Text
  ttlSeconds : Number
  /-- The chain's tip right after the scan. -/
  headHeightWhenBuilt : ℕ
  note : Text
  result : Value

def TokenIndexDiskEnvelope.toValue (e : TokenIndexDiskEnvelope) : Value :=
  .object [("v", .number (.finite 1)), ("network", .string e.key.network.text),
    ("fromHeight", .number (.ofNat e.key.fromHeight)), ("toHeight", .number (.ofNat e.key.toHeight)),
    ("savedAt", .string e.savedAt), ("ttlSeconds", .number e.ttlSeconds),
    ("headHeightWhenBuilt", .number (.ofNat e.headHeightWhenBuilt)), ("note", .string e.note),
    ("result", e.result)]

/-- `writeTokenIndexDiskCache` of a process begins. -/
def writeTokenIndexDiskCache {ι : Type} (id : ι) (pid : ℕ) (e : TokenIndexDiskEnvelope) :
    Event Text Char ι :=
  .create id (tmpFile e.key.baseName pid) (cacheFile e.key.baseName) (P.stringify e.toValue)

structure TokenIndexDiskEnvelope.ReadsBack (e : TokenIndexDiskEnvelope) : Prop where
  result : e.result.truthy = true
  parse : P.parse (P.stringify e.toValue) = some e.toValue

/-- The cache is the only writer, and a process writes a range once at a time. -/
def Allowed {ι : Type} [DecidableEq ι] (d : Disk Text Char ι) : Event Text Char ι → Prop
  | .create id tmp final text => d.writers id = none ∧
      (∃ pid e, e.ReadsBack P ∧
        Event.create id tmp final text = writeTokenIndexDiskCache P id pid e) ∧
      ∀ id' w, d.writers id' = some w → w.tmp ≠ tmp
  | _ => True

/-- What `readFile` gives of a file that is opened on one disk and read on a later one. -/
def fileRead {ι : Type} (opened later : Disk Text Char ι) (name : Text) : FileRead :=
  match opened.dir name with
  | none => .missing
  | some n => .text (later.data n)

variable {P}

/-- **An envelope is read as it is written.** -/
theorem read_envelope {env : CacheEnv} (henabled : cacheEnabled env.dir = true)
    {e : TokenIndexDiskEnvelope} (h : e.ReadsBack P) (nowMs : ℤ) :
    readTokenIndexDiskCache P env (.text (P.stringify e.toValue)) nowMs =
      if isCacheFresh P e.savedAt e.ttlSeconds nowMs then .ok e.toValue else .expired := by
  have hresult : e.toValue.get "result" = e.result := rfl
  have hsaved : e.toValue.get "savedAt" = .string e.savedAt := rfl
  have httl : e.toValue.get "ttlSeconds" = .number e.ttlSeconds := rfl
  have hv : e.toValue.get "v" = .number (.finite 1) := rfl
  have henvelope : isEnvelope e.toValue = true := by
    rw [isEnvelope, hv, hresult, hsaved, h.result]
    rfl
  rw [readTokenIndexDiskCache, if_neg (ne_false_of_eq_true henabled)]
  dsimp only
  rw [h.parse]
  dsimp only
  rw [if_neg (ne_false_of_eq_true henvelope), httl, hsaved]
  rfl

/-! ## The route -/

def maxBlocksPerRequest : ℕ := 2048

structure IndexQuery where
  network : NetworkId
  refresh : Bool
  fromHeight : Option Text
  toHeight : Option Text
  window : Option Text

def integersNeeded : Text := "fromHeight and toHeight must be integers"

def invalidRange : Text := "Invalid range (need 0 ≤ fromHeight ≤ toHeight ≤ head)"

def rangeTooLarge (span : ℕ) : Text :=
  "Range too large (" ++ decimal span ++ " blocks). Max " ++ decimal maxBlocksPerRequest ++
    " blocks per request — paginate with fromHeight/toHeight."

/-- The window in blocks: 512 unless it is a number of at least 1. -/
def windowOf (raw : Option Text) : ℤ :=
  match (parseInt10 (raw.getD "512")).toInt? with
  | some w => if w < 1 then 512 else min w maxBlocksPerRequest
  | none => 512

def rangeOf (q : IndexQuery) (currentHead : ℕ) : Except Text RangeKey :=
  match q.fromHeight, q.toHeight with
  | some a, some b =>
    match (parseInt10 a).toInt?, (parseInt10 b).toInt? with
    | some fromHeight, some toHeight =>
      if fromHeight < 0 ∨ toHeight < fromHeight ∨ (currentHead : ℤ) < toHeight then
        .error invalidRange
      else
        let span := (toHeight - fromHeight + 1).toNat
        if maxBlocksPerRequest < span then .error (rangeTooLarge span)
        else .ok ⟨q.network, fromHeight.toNat, toHeight.toNat⟩
    | _, _ => .error integersNeeded
  | _, _ =>
    .ok ⟨q.network, (max 0 ((currentHead : ℤ) - windowOf q.window + 1)).toNat, currentHead⟩

structure RangeKey.Valid (k : RangeKey) (currentHead : ℕ) : Prop where
  from_le : k.fromHeight ≤ k.toHeight
  to_le : k.toHeight ≤ currentHead
  span : k.toHeight + 1 - k.fromHeight ≤ maxBlocksPerRequest

theorem windowOf_bounds (raw : Option Text) :
    1 ≤ windowOf raw ∧ windowOf raw ≤ maxBlocksPerRequest := by
  rw [windowOf]
  have hmax : (maxBlocksPerRequest : ℤ) = 2048 := rfl
  split
  · split_ifs <;> omega
  · omega

/-- **Every range is valid.** -/
theorem rangeOf_valid {q : IndexQuery} {currentHead : ℕ} {k : RangeKey}
    (h : rangeOf q currentHead = .ok k) : k.network = q.network ∧ k.Valid currentHead := by
  have hmax : maxBlocksPerRequest = 2048 := rfl
  rw [rangeOf] at h
  split at h
  · split at h
    · next fromHeight toHeight _ _ =>
      dsimp only at h
      split_ifs at h with hrange hspan
      obtain rfl := Except.ok.inj h
      exact ⟨rfl, by dsimp only; omega, by dsimp only; omega, by dsimp only; omega⟩
    · cases h
  · obtain rfl := Except.ok.inj h
    have hwindow := windowOf_bounds q.window
    exact ⟨rfl, by dsimp only; omega, Nat.le_refl _, by dsimp only; omega⟩

/-- What a request is answered from: its range, and the envelope if the cache has it. -/
def indexRoute (P : Platform) (env : CacheEnv) (q : IndexQuery) (currentHead : ℕ)
    (file : Text → FileRead) (nowMs : ℤ) : Except Text (RangeKey × Option Value) := do
  let k ← rangeOf q currentHead
  if ¬ q.refresh ∧ cacheEnabled env.dir then
    match readTokenIndexDiskCache P env (file (cacheFile k.baseName)) nowMs with
    | .ok envelope => return (k, some envelope)
    | _ => return (k, none)
  else return (k, none)

/-! ## Runs -/

variable {ι : Type} [DecidableEq ι]

/-- The envelope was saved for the range, and nothing has been saved for it since. -/
def SavedLast (P : Platform) (events : List (Event Text Char ι)) (k : RangeKey)
    (envelope : TokenIndexDiskEnvelope) : Prop :=
  ∃ before e after, events = before ++ e :: after ∧
    committed (run Disk.step Disk.empty before) e =
      some (cacheFile k.baseName, P.stringify envelope.toValue) ∧
    Untouched (cacheFile k.baseName) (before ++ [e]) after

theorem exclusive_of_allowed {d : Disk Text Char ι} {e : Event Text Char ι} (h : Allowed P d e) :
    Exclusive IsTmp d e := by
  cases e with
  | create id tmp final text =>
    obtain ⟨hid, ⟨pid, envelope, -, heq⟩, hothers⟩ := h
    obtain ⟨-, rfl, rfl, -⟩ := Event.create.inj heq
    exact ⟨hid, isTmp_tmpFile _ _, not_isTmp_cacheFile _, hothers⟩
  | _ => trivial

def IsEnvelopeText (P : Platform) (name text : Text) : Prop :=
  ∃ envelope : TokenIndexDiskEnvelope, envelope.ReadsBack P ∧
    name = cacheFile envelope.key.baseName ∧ text = P.stringify envelope.toValue

theorem writes_of_allowed {d : Disk Text Char ι} {e : Event Text Char ι} (h : Allowed P d e) :
    Writes (IsEnvelopeText P) e := by
  cases e with
  | create id tmp final text =>
    obtain ⟨-, ⟨pid, envelope, hback, heq⟩, -⟩ := h
    obtain ⟨-, -, rfl, rfl⟩ := Event.create.inj heq
    exact ⟨envelope, hback, rfl, rfl⟩
  | _ => trivial

/-- **What is read of a range** that is opened after a run, whatever happens before it is read: a
file that was never saved is missing, and any other holds the envelope that was saved last. -/
theorem fileRead_cases {events later : List (Event Text Char ι)}
    (h : AllAllowed Disk.step (Allowed P) Disk.empty (events ++ later)) (k : RangeKey) :
    let file := fileRead (run Disk.step Disk.empty events)
      (run Disk.step Disk.empty (events ++ later)) (cacheFile k.baseName)
    (file = .missing ∧ Untouched (cacheFile k.baseName) [] events) ∨
      ∃ envelope, envelope.ReadsBack P ∧ envelope.key = k ∧ SavedLast P events k envelope ∧
        file = .text (P.stringify envelope.toValue) := by
  have hexclusive : AllAllowed Disk.step (Exclusive IsTmp) Disk.empty (events ++ later) :=
    fun earlier e he => exclusive_of_allowed (h earlier e he)
  have hfinal := not_isTmp_cacheFile k
  have hread := refines (hexclusive.before (List.prefix_append events later)) hfinal
  intro file
  rcases savedBy_cases events (cacheFile k.baseName) with
    ⟨hnone, huntouched⟩ | ⟨before, e, after, text, hevents, hcommitted, hafter, hsome⟩
  · rw [hnone] at hread
    refine .inl ⟨?_, huntouched⟩
    have hdir := Option.map_eq_none_iff.mp hread
    change fileRead _ _ _ = _
    rw [fileRead, hdir]
  · rw [hsome] at hread
    obtain ⟨n, hdir, hdata⟩ := Option.map_eq_some_iff.mp hread
    have hwrites : ∀ e ∈ before, Writes (IsEnvelopeText P) e := by
      intro e' he'
      obtain ⟨front, back, rfl⟩ := List.append_of_mem he'
      refine writes_of_allowed (h front e' ?_)
      exact ⟨back ++ e :: after ++ later, by rw [hevents]; simp⟩
    obtain ⟨envelope, hback, hname, rfl⟩ := committed_writes hwrites hcommitted
    have hkey := baseName_inj (cacheFile_inj hname)
    refine .inr ⟨envelope, hback, hkey.symm, ⟨before, e, after, hevents, hcommitted, hafter⟩, ?_⟩
    change fileRead _ _ _ = _
    rw [fileRead, hdir]
    dsimp only
    rw [data_stable hexclusive hfinal hdir, hdata]

/-- **The token index from disk.**  Whatever writes of other requests and processes are under way,
no two of them with one temporary file, fail or are cut off, when the file of a range is opened and
until it is read: a request that is not refused is for a valid range, and is answered from the cache
exactly if the index saved last for that very range is still fresh, with that index; otherwise the
range is scanned. -/
theorem indexRoute_exact {events later : List (Event Text Char ι)}
    (h : AllAllowed Disk.step (Allowed P) Disk.empty (events ++ later)) {env : CacheEnv}
    {q : IndexQuery} {currentHead : ℕ} {nowMs : ℤ} {k : RangeKey} {hit : Option Value}
    (hroute : indexRoute P env q currentHead (fileRead (run Disk.step Disk.empty events)
      (run Disk.step Disk.empty (events ++ later))) nowMs = .ok (k, hit)) :
    k.network = q.network ∧ k.Valid currentHead ∧
      ((hit = none ∧ (q.refresh = true ∨ cacheEnabled env.dir = false ∨
          Untouched (cacheFile k.baseName) [] events)) ∨
        ∃ envelope, envelope.key = k ∧ SavedLast P events k envelope ∧
          hit = if isCacheFresh P envelope.savedAt envelope.ttlSeconds nowMs then
            some envelope.toValue else none) := by
  obtain ⟨k', hk', hroute⟩ := bind_eq_ok hroute
  obtain ⟨hnetwork, hvalid⟩ := rangeOf_valid hk'
  split_ifs at hroute with huse
  · obtain ⟨hrefresh, henabled⟩ := huse
    rcases fileRead_cases h k' with ⟨hmissing, huntouched⟩ | ⟨envelope, hback, hkey, hsaved, htext⟩
    · have hresult : readTokenIndexDiskCache P env .missing nowMs = .missing := by
        rw [readTokenIndexDiskCache, if_neg (ne_false_of_eq_true henabled)]
      rw [hmissing, hresult] at hroute
      obtain ⟨rfl, rfl⟩ := Prod.mk.inj (Except.ok.inj hroute)
      exact ⟨hnetwork, hvalid, .inl ⟨rfl, .inr (.inr huntouched)⟩⟩
    · rw [htext, read_envelope henabled hback] at hroute
      cases hfresh : isCacheFresh P envelope.savedAt envelope.ttlSeconds nowMs with
      | true =>
        rw [hfresh] at hroute
        obtain ⟨rfl, rfl⟩ := Prod.mk.inj (Except.ok.inj hroute)
        exact ⟨hnetwork, hvalid, .inr ⟨envelope, hkey, hsaved, by rw [hfresh]; rfl⟩⟩
      | false =>
        rw [hfresh] at hroute
        obtain ⟨rfl, rfl⟩ := Prod.mk.inj (Except.ok.inj hroute)
        exact ⟨hnetwork, hvalid, .inr ⟨envelope, hkey, hsaved, by rw [hfresh]; rfl⟩⟩
  · obtain ⟨rfl, rfl⟩ := Prod.mk.inj (Except.ok.inj hroute)
    refine ⟨hnetwork, hvalid, .inl ⟨rfl, ?_⟩⟩
    rcases not_and_or.mp huse with hrefresh | hdisabled
    · exact .inl (not_not.mp hrefresh)
    · exact .inr (.inl (Bool.eq_false_of_not_eq_true hdisabled))

end

/-! ## A run -/

namespace OneSave

def envelope : TokenIndexDiskEnvelope where
  key := ⟨.testnet, 0, 10⟩
  savedAt := "1970-01-01T00:00:00.000Z"
  ttlSeconds := .ofNat 600
  headHeightWhenBuilt := 10
  note := []
  result := .object [("entries", .array [])]

def raw : Text :=
  "\x7b\"v\":1,\"network\":\"testnet\",\"fromHeight\":0,\"toHeight\":10," ++
    "\"savedAt\":\"1970-01-01T00:00:00.000Z\",\"ttlSeconds\":600,\"headHeightWhenBuilt\":10," ++
    "\"note\":\"\",\"result\":\x7b\"entries\":[]\x7d\x7d"

def platform : Platform where
  stringify _ := raw
  parse s := if s = raw then some envelope.toValue else none
  dateParse s := if s = "1970-01-01T00:00:00.000Z".toList then some 0 else none

theorem readsBack_envelope : envelope.ReadsBack platform where
  result := rfl
  parse := by
    generalize hv : envelope.toValue = v
    rw [platform]
    dsimp only
    rw [if_pos rfl, hv]

def saving : List (Event Text Char ℕ) :=
  [writeTokenIndexDiskCache platform 0 7 envelope, writeTokenIndexDiskCache platform 1 8 envelope,
    .write 1 5, .write 0 1000, .rename 0]

theorem allowed_saving :
    AllAllowed Disk.step (Allowed platform) Disk.empty (saving ++ [.write 1 5]) := by
  refine Overlap.allAllowed_cons ⟨rfl, ⟨7, envelope, readsBack_envelope, rfl⟩, ?_⟩ ?_
  · intro id w hw
    cases hw
  refine Overlap.allAllowed_cons ⟨rfl, ⟨8, envelope, readsBack_envelope, rfl⟩, ?_⟩ ?_
  · intro id w hw
    rcases writers_changed (d := Disk.empty) hw with ⟨-, rfl⟩ | ⟨-, hw'⟩
    · change tmpFile envelope.key.baseName 7 ≠ tmpFile envelope.key.baseName 8
      decide
    · cases hw'
  refine Overlap.allAllowed_cons trivial (Overlap.allAllowed_cons trivial ?_)
  exact Overlap.allAllowed_cons trivial
    (Overlap.allAllowed_cons trivial Overlap.allAllowed_nil)

def query : IndexQuery := ⟨.testnet, false, some "0", some "10", none⟩

def answer : Except Text (RangeKey × Option Value) :=
  indexRoute platform ⟨none, none, none⟩ query 12 (fileRead (run Disk.step Disk.empty saving)
    (run Disk.step Disk.empty (saving ++ [.write 1 5]))) 5000

theorem answer_hit : ∃ v, answer = .ok (envelope.key, some v) := by
  have hcheck : (answer.toOption.any fun p => decide (p.1 = envelope.key) && p.2.isSome) = true := by
    decide +kernel
  cases hanswer : answer with
  | error e =>
    rw [hanswer] at hcheck
    cases hcheck
  | ok p =>
    rw [hanswer] at hcheck
    obtain ⟨hkey, hsome⟩ := Bool.and_eq_true_iff.mp hcheck
    obtain ⟨v, hv⟩ := Option.isSome_iff_exists.mp hsome
    exact ⟨v, congrArg Except.ok (Prod.ext (of_decide_eq_true hkey) hv)⟩

end OneSave

open OneSave in
/-- A request while another process saves the same range. -/
theorem indexRoute_exact_saving : ∃ v, answer = .ok (envelope.key, some v) ∧
    envelope.key.Valid 12 ∧ ∃ e, SavedLast platform saving envelope.key e := by
  obtain ⟨v, hv⟩ := answer_hit
  obtain ⟨-, hvalid, ⟨hnone, -⟩ | ⟨e, -, hsaved, -⟩⟩ := indexRoute_exact allowed_saving hv
  · cases hnone
  · exact ⟨v, hv, hvalid, e, hsaved⟩

end BoingObserver.TokenIndex
