import BoingObserver.Base64
import BoingObserver.Js.Text

/-!
# The content security policy

`csp.ts`: the policy of a page, with a nonce that is made for one request.

* `readDirectives_joinDirectives`: directives that are joined are read back.
* `readDirectives_buildCsp`: so a nonce can add no directive to a policy, and no source to the
  directive that it is in.
-/

namespace BoingObserver.Edge

open Js Base64

inductive CspMode
  | off
  | reportOnly
  | nonceReportOnly
  | nonceEnforce
  deriving DecidableEq

/-- The mode of `BOING_OBSERVER_CSP`; a value that is not known enforces. -/
def parseCspMode (v : Option Text) : CspMode :=
  let m := toLowerCase (trim (v.getD []))
  if m = "off" ∨ m = "0" ∨ m = "false" then .off
  else if m = "report-only" then .reportOnly
  else if m = "nonce-report-only" then .nonceReportOnly
  else .nonceEnforce

def generateNonce (bytes : List ℕ) : Text := btoa bytes

/-- Directives shared by every mode. -/
def commonDirectives : List Text :=
  ["default-src 'self'", "style-src 'self' 'unsafe-inline'", "img-src 'self' data: blob: https:",
    "media-src 'self' data: blob: https:", "font-src 'self' data:", "connect-src 'self'",
    "worker-src 'self' blob:", "frame-src 'self'", "object-src 'none'", "base-uri 'self'",
    "form-action 'self'", "frame-ancestors 'none'"]

def scriptDirective (mode : CspMode) (nonce : Text) : Text :=
  if mode = .reportOnly then "script-src 'self' 'unsafe-inline' 'wasm-unsafe-eval'"
  else ("script-src 'self' 'nonce-" : Text) ++ nonce ++
    ("' 'strict-dynamic' 'wasm-unsafe-eval'" : Text)

def reportDirective : Text := "report-uri /api/csp-report"

def directives (mode : CspMode) (nonce : Text) : List Text :=
  commonDirectives ++ [scriptDirective mode nonce, reportDirective]

/-- `items.join("; ")` -/
def joinDirectives (items : List Text) : Text := List.intercalate ("; " : Text) items

def buildCsp (mode : CspMode) (nonce : Text) : Option Text :=
  if mode = .off then none else some (joinDirectives (directives mode nonce))

def cspHeaderName : CspMode → Option Text
  | .off => none
  | .nonceEnforce => some "Content-Security-Policy"
  | _ => some "Content-Security-Policy-Report-Only"

/-! ## What a browser reads -/

/-- The directives of a policy: split at semicolons, spaces around them dropped. -/
def readDirectives (policy : Text) : List Text := (policy.splitOn ';').map trim

/-- A directive that stays one: no semicolon in it, and no space around it. -/
def IsDirective (s : Text) : Prop := ';' ∉ s ∧ trim s = s

instance (s : Text) : Decidable (IsDirective s) := inferInstanceAs (Decidable (_ ∧ _))

theorem trim_cons_space (s : Text) : trim (' ' :: s) = trim s := by
  rw [trim, List.dropWhile_cons_of_pos (by decide)]
  rfl

theorem joinDirectives_cons (s : Text) (items : List Text) :
    joinDirectives (s :: items) = List.intercalate [';'] (s :: items.map (' ' :: ·)) := by
  induction items generalizing s with
  | nil => rfl
  | cons t items ih =>
    have h := ih t
    rw [joinDirectives] at h
    rw [joinDirectives, List.intercalate_cons_cons, List.map_cons, List.intercalate_cons_cons, h]
    cases items with
    | nil => simp [List.intercalate]
    | cons u items => simp [List.intercalate]

theorem readDirectives_joinDirectives {s : Text} {items : List Text}
    (h : ∀ t ∈ s :: items, IsDirective t) : readDirectives (joinDirectives (s :: items)) = s :: items := by
  obtain ⟨hs, hitems⟩ := List.forall_mem_cons.mp h
  rw [readDirectives, joinDirectives_cons, List.splitOn_intercalate, List.map_cons, List.map_map,
    hs.2]
  · refine congrArg _ ((List.map_congr_left fun t ht => ?_).trans (List.map_id items))
    exact (trim_cons_space t).trans (hitems t ht).2
  · intro l hl
    rcases List.mem_cons.mp hl with rfl | hl
    · exact hs.1
    · obtain ⟨t, ht, rfl⟩ := List.mem_map.mp hl
      exact fun hmem => (hitems t ht).1 ((List.mem_cons.mp hmem).resolve_left (by decide))
  · exact List.cons_ne_nil _ _

/-! ## The nonce -/

theorem trim_of_ends {c d : Char} {s : Text} (hc : isSpace c = false) (hd : isSpace d = false) :
    trim (c :: s ++ [d]) = c :: s ++ [d] := by
  rw [trim, List.cons_append, List.dropWhile_cons_of_neg (ne_true_of_eq_false hc), ← List.cons_append,
    List.rdropWhile_concat_neg _ _ _ (ne_true_of_eq_false hd)]

theorem generateNonce_plain {bytes : List ℕ} (h : ∀ b ∈ bytes, b < 256) :
    ∀ c ∈ generateNonce bytes, c ≠ ';' ∧ c ≠ ' ' := by
  have hdigit : ∀ d < 64, digitChar d ≠ ';' ∧ digitChar d ≠ ' ' := by decide +kernel
  intro c hc
  rw [generateNonce, btoa, List.mem_append] at hc
  rcases hc with hc | hc
  · obtain ⟨d, hd, rfl⟩ := List.mem_map.mp hc
    exact hdigit d (sextets_lt h d hd)
  · rw [List.eq_of_mem_replicate hc]
    decide

def sources (directive : Text) : List Text := (directive.splitOn ' ').tail

/-- A script directive with a nonce allows that nonce and nothing else of it. -/
theorem sources_scriptDirective {mode : CspMode} (hmode : mode ≠ .reportOnly) {nonce : Text}
    (h : ' ' ∉ nonce) :
    sources (scriptDirective mode nonce) = (
      ["'self'", ("'nonce-" : Text) ++ nonce ++ ['\''], "'strict-dynamic'", "'wasm-unsafe-eval'"] : List Text) := by
  have hjoin : scriptDirective mode nonce = List.intercalate [' '] ["script-src", "'self'",
      ("'nonce-" : Text) ++ nonce ++ ['\''], "'strict-dynamic'", "'wasm-unsafe-eval'"] := by
    rw [scriptDirective, if_neg hmode]
    simp [List.intercalate]
  rw [sources, hjoin, List.splitOn_intercalate]
  · rfl
  · have hfixed : ∀ s ∈ (["script-src", "'self'", "'strict-dynamic'", "'wasm-unsafe-eval'", "'nonce-",
        "'"] : List Text), ' ' ∉ s := by decide
    intro s hs
    by_cases hnonce : s = ("'nonce-" : Text) ++ nonce ++ ['\'']
    · rw [hnonce, List.mem_append, List.mem_append, not_or, not_or]
      exact ⟨⟨hfixed "'nonce-" (by decide), h⟩, hfixed "'" (by decide)⟩
    · refine hfixed s ?_
      simp only [List.mem_cons, hnonce, false_or] at hs ⊢
      tauto
  · exact List.cons_ne_nil _ _

theorem isDirective_scriptDirective (mode : CspMode) {nonce : Text} (h : ';' ∉ nonce) :
    IsDirective (scriptDirective mode nonce) := by
  rw [scriptDirective]
  split
  · decide
  · refine ⟨?_, ?_⟩
    · have hfixed : ';' ∉ ("script-src 'self' 'nonce-" : Text) ∧
          ';' ∉ ("' 'strict-dynamic' 'wasm-unsafe-eval'" : Text) := by decide
      simp only [List.mem_append, not_or]
      exact ⟨⟨hfixed.1, h⟩, hfixed.2⟩
    · have hfront : ("script-src 'self' 'nonce-" : Text) =
          's' :: ("cript-src 'self' 'nonce-" : Text) := rfl
      have hback : ("' 'strict-dynamic' 'wasm-unsafe-eval'" : Text) =
          ("' 'strict-dynamic' 'wasm-unsafe-eval" : Text) ++ ['\''] := rfl
      rw [hfront, hback, ← List.append_assoc, List.cons_append, List.cons_append]
      exact trim_of_ends (by decide) (by decide)

/-- **What a browser reads of a policy** is the directives it was made of. -/
theorem readDirectives_buildCsp {mode : CspMode} {nonce policy : Text} (h : ';' ∉ nonce)
    (hpolicy : buildCsp mode nonce = some policy) :
    readDirectives policy = directives mode nonce := by
  rw [buildCsp] at hpolicy
  split at hpolicy
  · cases hpolicy
  · obtain rfl := Option.some.inj hpolicy
    refine readDirectives_joinDirectives (s := "default-src 'self'") ?_
    have hcommon : ∀ t ∈ commonDirectives ++ [reportDirective], IsDirective t := by decide
    intro t ht
    change t ∈ commonDirectives ++ [scriptDirective mode nonce, reportDirective] at ht
    rcases List.mem_append.mp ht with ht | ht
    · exact hcommon t (List.mem_append_left _ ht)
    · rcases List.mem_cons.mp ht with rfl | ht
      · exact isDirective_scriptDirective mode h
      · exact hcommon t (List.mem_append_right _ ht)

end BoingObserver.Edge
