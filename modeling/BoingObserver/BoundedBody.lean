import BoingObserver.Blob.Download
import BoingObserver.Js.ToNumber

/-!
# Bodies with a cap

`readTextCapped` of `bounded-body.ts`: the body of a response is read chunk by chunk, and
given up as soon as more bytes than the cap have come.

* `readChunks_eq`: what the loop gives, for any chunks and any end.
* `readTextCapped_eq`: with a length that is absent or correct, only the bytes matter.
* `readTextCapped_upstream`: a capped reading of whole bytes is this one.
-/

namespace BoingObserver.BoundedBody

open Js Http

/-! ## Decoders -/

/-- A `TextDecoder`, with what it holds back between two calls. -/
structure TextDecoder where
  State : Type
  init : State
  /-- `decode(chunk, { stream: true })` -/
  decode : State → List ℕ → Text × State
  /-- `decode()` -/
  flush : State → Text

namespace TextDecoder

/-- The texts of the chunks one after the other, and what is left at the end. -/
def stream (d : TextDecoder) : d.State → List (List ℕ) → Text
  | s, [] => d.flush s
  | s, chunk :: chunks => (d.decode s chunk).1 ++ d.stream (d.decode s chunk).2 chunks

/-- Decoding chunk by chunk is decoding the concatenation. -/
structure Decodes (d : TextDecoder) (whole : List ℕ → Text) : Prop where
  stream_eq (chunks : List (List ℕ)) : d.stream d.init chunks = whole chunks.flatten
  nil : whole [] = []

end TextDecoder

/-! ## Reading -/

/-- What `reader.read()` gives: the chunks, and whether they end without an error. -/
structure Body where
  chunks : List (List ℕ)
  complete : Bool

def Body.bytes (b : Body) : List ℕ := b.chunks.flatten

structure Response where
  /-- `res.headers.get("content-length")` -/
  contentLength : Option Text
  body : Option Body

def Response.bytes (res : Response) : List ℕ := (res.body.map Body.bytes).getD []

def Response.Ends (res : Response) : Prop := ∀ b, res.body = some b → b.complete = true

/-- `Number.isFinite(declared) && declared > maxBytes` -/
def declaresMore (declared maxBytes : Number) : Bool :=
  match declared with
  | .finite q => maxBytes.lt (.finite q)
  | _ => false

/-- The loop over `reader.read()`; an error while reading, like too many bytes, gives nothing. -/
def readChunks (d : TextDecoder) (maxBytes : Number) (complete : Bool) :
    ℕ → d.State → Text → List (List ℕ) → Option Text
  | _, s, out, [] => if complete then some (out ++ d.flush s) else none
  | total, s, out, value :: chunks =>
    let total := total + value.length
    if maxBytes.lt (.ofNat total) then none
    else
      let (text, s) := d.decode s value
      readChunks d maxBytes complete total s (out ++ text) chunks

/-- `readTextCapped`; what is cancelled, and whether that throws, changes no result. -/
def readTextCapped (d : TextDecoder) (res : Response) (maxBytes : Number) : Option Text :=
  let declared := stringToNumber (res.contentLength.getD [])
  if declaresMore declared maxBytes then none
  else
    match res.body with
    | none => some []
    | some body => readChunks d maxBytes body.complete 0 d.init [] body.chunks

/-! ## The loop -/

section

variable {maxBytes : Number}

theorem lt_ofNat_mono {m n : ℕ} (h : m ≤ n) (hlt : maxBytes.lt (.ofNat m) = true) :
    maxBytes.lt (.ofNat n) = true := by
  have hcast : (m : ℚ) ≤ n := Nat.cast_le.mpr h
  cases maxBytes with
  | finite q => exact decide_eq_true ((of_decide_eq_true hlt).trans_le hcast)
  | nan => cases hlt
  | infinite negative => exact hlt

theorem declaresMore_ofNat (n : ℕ) :
    declaresMore (.ofNat n) maxBytes = maxBytes.lt (.ofNat n) := rfl

variable {d : TextDecoder} {complete : Bool}

/-- **What the loop gives**, from a total that is within the cap: nothing if the bytes to come
exceed it or do not end, otherwise the text so far and what streaming makes of them. -/
theorem readChunks_eq (chunks : List (List ℕ)) {total : ℕ} (s : d.State) (out : Text)
    (h : maxBytes.lt (.ofNat total) = false) :
    readChunks d maxBytes complete total s out chunks =
      if maxBytes.lt (.ofNat (total + chunks.flatten.length)) = true ∨ complete = false then none
      else some (out ++ d.stream s chunks) := by
  induction chunks generalizing total s out with
  | nil =>
    have hnil : total + ([] : List (List ℕ)).flatten.length = total := rfl
    rw [readChunks, hnil, h]
    cases complete <;> rfl
  | cons value chunks ih =>
    have hlength : total + (value :: chunks).flatten.length =
        total + value.length + chunks.flatten.length := by
      rw [List.flatten_cons, List.length_append]
      omega
    rw [readChunks, hlength]
    dsimp only
    cases hvalue : maxBytes.lt (.ofNat (total + value.length)) with
    | true =>
      -- The cap is exceeded here, and so it is at the end.
      have hend := lt_ofNat_mono (Nat.le_add_right _ chunks.flatten.length) hvalue
      rw [if_pos rfl, if_pos (Or.inl hend)]
    | false =>
      rw [if_neg (by simp), ih _ _ hvalue, List.append_assoc]
      rfl

theorem readChunks_zero {whole : List ℕ → Text} (hd : d.Decodes whole) (body : Body)
    (h : maxBytes.lt (.ofNat 0) = false) :
    readChunks d maxBytes body.complete 0 d.init [] body.chunks =
      if maxBytes.lt (.ofNat body.bytes.length) = true ∨ body.complete = false then none
      else some (whole body.bytes) := by
  rw [readChunks_eq body.chunks d.init [] h, Nat.zero_add, List.nil_append, hd.stream_eq]
  rfl

end

/-! ## The whole body -/

def StatesLength (contentLength : Option Text) (n : ℕ) : Prop :=
  ∀ s, contentLength = some s → stringToNumber s = .ofNat n

/-- The number that stands for the stated length: the number of bytes, or zero. -/
theorem exists_declared {contentLength : Option Text} {n : ℕ} (h : StatesLength contentLength n) :
    ∃ m : ℕ, stringToNumber (contentLength.getD []) = .ofNat m ∧ (m = 0 ∨ m = n) := by
  cases contentLength with
  | none => exact ⟨0, rfl, Or.inl rfl⟩
  | some s => exact ⟨n, h s rfl, Or.inr rfl⟩

/-- **The body, or nothing if it has more bytes than the cap**, however it comes in chunks. -/
theorem readTextCapped_eq {d : TextDecoder} {whole : List ℕ → Text} (hd : d.Decodes whole)
    (res : Response) (hends : res.Ends)
    (hlength : StatesLength res.contentLength res.bytes.length) (maxBytes : Number) :
    readTextCapped d res maxBytes =
      if maxBytes.lt (.ofNat res.bytes.length) then none else some (whole res.bytes) := by
  obtain ⟨declared, hdeclared, hcases⟩ := exists_declared hlength
  rw [readTextCapped, hdeclared, declaresMore_ofNat]
  cases h0 : maxBytes.lt (.ofNat 0) with
  | true =>
    -- A cap below zero: the length in the header, or the one that is not there, exceeds it.
    rw [if_pos (lt_ofNat_mono declared.zero_le h0), if_pos (lt_ofNat_mono (Nat.zero_le _) h0)]
  | false =>
    have hread : (match res.body with
        | none => some []
        | some body => readChunks d maxBytes body.complete 0 d.init [] body.chunks) =
        if maxBytes.lt (.ofNat res.bytes.length) then none else some (whole res.bytes) := by
      cases hbody : res.body with
      | none =>
        have hbytes : res.bytes = [] := by rw [Response.bytes, hbody]; rfl
        rw [hbytes, List.length_nil, h0, hd.nil]
        rfl
      | some body =>
        have hbytes : res.bytes = body.bytes := by rw [Response.bytes, hbody]; rfl
        rw [hbytes]
        dsimp only
        rw [readChunks_zero hd body h0, hends body hbody]
        simp
    rw [hread]
    rcases hcases with rfl | rfl
    · rw [h0, if_neg (by simp)]
    · split <;> rfl

def asciiDecoder : TextDecoder where
  State := Unit
  init := ()
  decode _ value := (value.map Char.ofNat, ())
  flush _ := []

theorem asciiDecoder_decodes : asciiDecoder.Decodes (List.map Char.ofNat) where
  stream_eq chunks := by
    induction chunks with
    | nil => rfl
    | cons value chunks ih =>
      rw [List.flatten_cons, List.map_append, ← ih]
      rfl
  nil := rfl

/-- Three bytes in two chunks, under a cap of three and of two. -/
theorem readTextCapped_three :
    readTextCapped asciiDecoder ⟨some "3", some ⟨[[0x61], [0x62, 0x63]], true⟩⟩ (.ofNat 3) =
        some "abc" ∧
      readTextCapped asciiDecoder ⟨some "3", some ⟨[[0x61], [0x62, 0x63]], true⟩⟩ (.ofNat 2) =
        none := by
  have hlength : StatesLength (some "3") 3 := by
    intro s hs
    obtain rfl := Option.some.inj hs
    decide +kernel
  have hends : Response.Ends ⟨some "3", some ⟨[[0x61], [0x62, 0x63]], true⟩⟩ := by
    intro b hb
    obtain rfl := Option.some.inj hb
    rfl
  have hread := readTextCapped_eq asciiDecoder_decodes _ hends hlength
  exact ⟨(hread (.ofNat 3)).trans (by decide), (hread (.ofNat 2)).trans (by decide)⟩

/-! ## Whole bytes -/

/-- **A reading of whole bytes is this one**: the error page of a blob's node is read so. -/
theorem readTextCapped_upstream {p : Blob.Platform} {d : TextDecoder} (hd : d.Decodes p.decode)
    (hnumber : ∀ s, p.numberText.number (.string s) = stringToNumber s)
    {res : Response} {u : Blob.Upstream} (hlength : u.header "content-length" = res.contentLength)
    (hbody : u.body = res.body.map fun b => ⟨b.bytes, b.complete⟩) (maxBytes : ℕ) :
    readTextCapped d res (.ofNat maxBytes) = Blob.readTextCapped p u maxBytes := by
  have hdeclares (x : Number) : declaresMore x (.ofNat maxBytes) = isMoreThan x maxBytes := by
    cases x <;> rfl
  have hlt (n : ℕ) : (Number.ofNat maxBytes).lt (.ofNat n) = decide (maxBytes < n) := by
    rw [Number.ofNat, Number.ofNat, Number.finite_lt_finite, decide_eq_decide]
    exact Nat.cast_lt
  rw [readTextCapped, Blob.readTextCapped, hdeclares, hlength, hnumber, hbody]
  congr 1
  cases res.body with
  | none => rfl
  | some body =>
    change _ = if maxBytes < body.bytes.length ∨ body.complete = false then none
      else some (p.decode body.bytes)
    have h0 : (Number.ofNat maxBytes).lt (.ofNat 0) = false := by
      rw [hlt]
      simp
    dsimp only
    rw [readChunks_zero hd body h0, hlt]
    simp only [decide_eq_true_eq]

end BoingObserver.BoundedBody
