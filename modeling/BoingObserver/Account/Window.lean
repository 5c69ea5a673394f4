import BoingObserver.Account.History

/-!
# What a history window holds

A node serves a history in pages; `fetchIndexedWindow` reads up to 16 of them, and
stops at the first row below the floor.

* `fetchPages_items`: the items are those of the rows read before that row.
* `filterMap_takeWhile`: in a newest-first history with heights, no row of the
  window comes after it.
* `fetchIndexedWindow_window`: so the items are the window's rows of those pages.
* `histories_incomplete`: what is lost, or shown, otherwise.
-/

namespace BoingObserver.Account

open Js Oracle

/-! ## Histories -/

def InWindow (fromHeight : ℚ) (row : IndexedAccountTxRow) : Prop :=
  ∃ h, row.blockHeight = some h ∧ h.den = 1 ∧ fromHeight ≤ h

def NewestFirst (rows : List IndexedAccountTxRow) : Prop :=
  rows.Pairwise fun r w =>
    ∀ h h', r.blockHeight = some h → w.blockHeight = some h' → h' ≤ h

/-- A height that is not below the floor is an integer. -/
def IntegerHeights (fromHeight : ℚ) (rows : List IndexedAccountTxRow) : Prop :=
  ∀ r ∈ rows, ∀ h, r.blockHeight = some h → fromHeight ≤ h → h.den = 1

/-- No row of the window comes after a row without a height, unless the floor is 0. -/
def NoGaps (fromHeight : ℚ) (rows : List IndexedAccountTxRow) : Prop :=
  0 < fromHeight → rows.Pairwise fun r w => r.blockHeight = none → ¬ InWindow fromHeight w

section

variable (nt : NumberText)

def windowItem (fromHeight : ℚ) (row : IndexedAccountTxRow) : Option AccountTxHistoryItem :=
  match row.blockHeight with
  | none => none
  | some h => if h.den = 1 ∧ fromHeight ≤ h then some (rowItem nt row h) else none

/-- The items are those of the window's rows, each once, in decreasing order. -/
def IsWindow (fromHeight : ℚ) (rows : List IndexedAccountTxRow)
    (items : List AccountTxHistoryItem) : Prop :=
  items.Perm (rows.filterMap (windowItem nt fromHeight)) ∧
    items.Pairwise fun a b => atLeast a b

end

/-! ## Serving -/

/-- The cursor that leads to page `i`. -/
def pageCursor (cursors : ℕ → Text) (i : ℕ) : Option Text :=
  if i = 0 then none else some (cursors i)

def pageOf (env : Env PageAnswer) (tr : Trace PageAnswer) (address64 : Text)
    (cursor : Option Text) : Option IndexedPage :=
  env tr ⟨address64, cursor⟩

/-- A call for page `i` is answered with its rows and the cursor of the next page, or fails. -/
def ServesPage (env : Env PageAnswer) (address64 : Text)
    (pages : List (List IndexedAccountTxRow)) (cursors : ℕ → Text) (i : ℕ) : Prop :=
  ∀ tr page, pageOf env tr address64 (pageCursor cursors i) = some page →
    pages[i]? = some (page.transactions.getD []) ∧
      page.nextCursor.getD [] = if i + 1 < pages.length then cursors (i + 1) else []

def Serves (env : Env PageAnswer) (address64 : Text) (pages : List (List IndexedAccountTxRow)) :
    Prop :=
  pages ≠ [] ∧ ∃ cursors : ℕ → Text, (∀ i, cursors i ≠ []) ∧
    ∀ i, i < pages.length → ServesPage env address64 pages cursors i

/-! ## The rows read -/

section

variable {nt : NumberText} {env : Env PageAnswer} {address64 : Text} {fromHeight : ℚ}

theorem takeWhile_append_stop {α : Type} {p : α → Bool} {l l' : List α}
    (h : (l.takeWhile p).length ≠ l.length) : (l ++ l').takeWhile p = l.takeWhile p := by
  rw [List.takeWhile_append, if_neg h]

theorem takeWhile_append_go {α : Type} {p : α → Bool} {l l' : List α}
    (h : (l.takeWhile p).length = l.length) :
    (l ++ l').takeWhile p = l.takeWhile p ++ l'.takeWhile p := by
  rw [List.takeWhile_append, if_pos h, (List.takeWhile_prefix p).eq_of_length h]

theorem run_getAccountTransactions (cursor : Option Text) (tr : Trace PageAnswer) :
    (getAccountTransactions address64 cursor).run env tr =
      (pageOf env tr address64 cursor,
        tr ++ [⟨⟨address64, cursor⟩, pageOf env tr address64 cursor⟩]) := rfl

theorem nextCursor_cases {cursors : ℕ → Text} (hne : ∀ i, cursors i ≠ []) {next : Option Text}
    {i count : ℕ} (h : next.getD [] = if i + 1 < count then cursors (i + 1) else []) :
    (i + 1 < count ∧ ∃ c cs, next = some (c :: cs) ∧ pageCursor cursors (i + 1) = some (c :: cs)) ∨
      count ≤ i + 1 ∧ (next = none ∨ next = some []) := by
  by_cases hlast : i + 1 < count
  · rw [if_pos hlast] at h
    have hcursor : pageCursor cursors (i + 1) = some (cursors (i + 1)) := if_neg (by omega)
    rcases next with _ | _ | ⟨c, cs⟩
    · exact absurd h.symm (hne _)
    · exact absurd h.symm (hne _)
    · exact Or.inl ⟨hlast, c, cs, rfl, hcursor.trans (congrArg some h.symm)⟩
  · rw [if_neg hlast] at h
    refine Or.inr ⟨by omega, ?_⟩
    rcases next with _ | _ | ⟨c, cs⟩
    · exact Or.inl rfl
    · exact Or.inr rfl
    · cases h

/-- **The loop reads the pages down to the first row below the floor**, or a call fails. -/
theorem fetchPages_items (nt : NumberText) (fromHeight : ℚ)
    {pages : List (List IndexedAccountTxRow)} {cursors : ℕ → Text}
    (hne : ∀ i, cursors i ≠ [])
    (hserves : ∀ i, i < pages.length → ServesPage env address64 pages cursors i)
    (n : ℕ) {i : ℕ} (hi : i < pages.length) (rows : List IndexedAccountTxRow) (k : ℕ)
    (tr : Trace PageAnswer) :
    let w := ((fetchPages nt address64 fromHeight n (pageCursor cursors i) rows k).run env tr).1
    w.items = [] ∨ w.items = collectIndexedAccountTxHistory nt
      (rows ++ (((pages.drop i).take n).flatten).takeWhile (aboveFloor fromHeight)) fromHeight := by
  induction n generalizing i rows k tr with
  | zero =>
    refine Or.inr ?_
    rw [List.take_zero, List.flatten_nil, List.takeWhile_nil, List.append_nil]
    rfl
  | succ n ih =>
    rw [fetchPages, Prog.run_bind, run_getAccountTransactions]
    cases hpage : pageOf env tr address64 (pageCursor cursors i) with
    | none => exact Or.inl rfl
    | some page =>
      obtain ⟨hrows, hnext⟩ := hserves i hi tr page hpage
      have hdrop : pages.drop i = page.transactions.getD [] :: pages.drop (i + 1) :=
        List.drop_eq_getElem?_toList_append.trans (by rw [hrows]; rfl)
      rw [hdrop, List.take_succ_cons, List.flatten_cons]
      by_cases hkept : ((page.transactions.getD []).takeWhile (aboveFloor fromHeight)).length =
          (page.transactions.getD []).length
      · -- the whole page is above the floor: on to the next page, if there is one
        rw [takeWhile_append_go hkept, ← List.append_assoc]
        simp only [if_pos hkept]
        rcases nextCursor_cases hne hnext with ⟨hlast, c, cs, hc, hcursor⟩ | ⟨hlast, hc⟩
        · rw [hc]
          have hrest := ih hlast
            (rows ++ (page.transactions.getD []).takeWhile (aboveFloor fromHeight)) (k + 1)
            (tr ++ [⟨⟨address64, pageCursor cursors i⟩, some page⟩])
          rw [hcursor] at hrest
          exact hrest
        · rw [List.drop_eq_nil_of_le hlast, List.take_nil, List.flatten_nil,
            List.takeWhile_nil, List.append_nil]
          rcases hc with hc | hc
          · rw [hc]
            exact Or.inr rfl
          · rw [hc]
            exact Or.inr rfl
      · -- the page crosses the floor
        rw [takeWhile_append_stop hkept]
        simp only [if_neg hkept]
        exact Or.inr rfl

/-! ## The rows of the window -/

theorem windowItem_eq_none {row : IndexedAccountTxRow} (h : ¬ InWindow fromHeight row) :
    windowItem nt fromHeight row = none := by
  rw [windowItem]
  cases hh : row.blockHeight with
  | none => rfl
  | some q => exact if_neg fun hq => h ⟨q, hh, hq⟩

/-- A row above the floor has the same item in the window and in the collection. -/
theorem windowItem_eq_collectItem (nt : NumberText) {row : IndexedAccountTxRow}
    (hint : ∀ h, row.blockHeight = some h → fromHeight ≤ h → h.den = 1) :
    windowItem nt fromHeight row = collectItem nt fromHeight row := by
  rw [windowItem, collectItem]
  cases hh : row.blockHeight with
  | none => rfl
  | some q =>
    by_cases hq : q < fromHeight
    · exact (if_neg fun h => not_le.mpr hq h.2).trans (if_pos hq).symm
    · have hle : fromHeight ≤ q := not_lt.mp hq
      exact (if_pos ⟨hint q hh hle, hle⟩).trans (if_neg hq).symm

/-- **The window's rows come before the first row below the floor.** -/
theorem filterMap_takeWhile {rows : List IndexedAccountTxRow} (hnew : NewestFirst rows)
    (hint : IntegerHeights fromHeight rows) (hgaps : NoGaps fromHeight rows) :
    (rows.takeWhile (aboveFloor fromHeight)).filterMap (collectItem nt fromHeight) =
      rows.filterMap (windowItem nt fromHeight) := by
  induction rows with
  | nil => rfl
  | cons r rows ih =>
    have hnew' := List.pairwise_cons.mp hnew
    have hgaps' : 0 < fromHeight → _ := fun h => List.pairwise_cons.mp (hgaps h)
    have hr := windowItem_eq_collectItem nt (hint r List.mem_cons_self)
    by_cases ha : aboveFloor fromHeight r
    · have ih' := ih hnew'.2 (fun w hw => hint w (List.mem_cons_of_mem r hw))
        fun h => (hgaps' h).2
      rw [List.takeWhile_cons_of_pos ha, List.filterMap_cons, List.filterMap_cons, ih', hr]
    · have hbelow : r.blockHeight.getD 0 < fromHeight := by
        rw [aboveFloor, Bool.not_eq_true, Bool.not_eq_false'] at ha
        exact of_decide_eq_true ha
      have hout : ∀ w ∈ r :: rows, windowItem nt fromHeight w = none := by
        intro w hw
        refine windowItem_eq_none ?_
        rintro ⟨q, hq, hden, hle⟩
        rcases List.mem_cons.mp hw with rfl | hw
        · rw [hq] at hbelow
          exact absurd hbelow (not_lt.mpr hle)
        · cases hh : r.blockHeight with
          | none =>
            rw [hh] at hbelow
            exact (hgaps' hbelow).1 w hw hh ⟨q, hq, hden, hle⟩
          | some p =>
            rw [hh] at hbelow
            exact absurd ((hle.trans (hnew'.1 w hw p q hh hq)).trans_lt hbelow) (lt_irrefl _)
      rw [List.takeWhile_cons_of_neg ha, List.filterMap_nil, List.filterMap_eq_nil_iff.mpr hout]

theorem atLeast_iff {a b : AccountTxHistoryItem} : atLeast a b = true ↔
    b.blockHeight < a.blockHeight ∨ (b.blockHeight = a.blockHeight ∧ b.txIndex ≤ a.txIndex) := by
  rw [atLeast, Bool.or_eq_true, Bool.and_eq_true, decide_eq_true_iff, decide_eq_true_iff,
    decide_eq_true_iff]

instance : IsTrans AccountTxHistoryItem fun a b => atLeast a b := by
  refine ⟨?_⟩
  intro a b c hab hbc
  rw [atLeast_iff] at hab hbc ⊢
  rcases hab with hab | ⟨hab, hab'⟩
  · rcases hbc with hbc | ⟨hbc, -⟩
    · exact Or.inl (hbc.trans hab)
    · exact Or.inl (hbc.trans_lt hab)
  · rcases hbc with hbc | ⟨hbc, hbc'⟩
    · exact Or.inl (hbc.trans_eq hab)
    · exact Or.inr ⟨hbc.trans hab, hbc'.trans hab'⟩

instance : Std.Total fun a b : AccountTxHistoryItem => atLeast a b = true := by
  refine ⟨?_⟩
  intro a b
  rw [atLeast_iff, atLeast_iff]
  rcases lt_trichotomy a.blockHeight b.blockHeight with h | h | h
  · exact Or.inr (Or.inl h)
  · rcases le_total a.txIndex b.txIndex with hi | hi
    · exact Or.inr (Or.inr ⟨h, hi⟩)
    · exact Or.inl (Or.inr ⟨h.symm, hi⟩)
  · exact Or.inl (Or.inl h)

/-- **The window of the first 16 pages**: for a newest-first history whose window has integer
heights and no row without a height before its end. -/
theorem fetchIndexedWindow_window (nt : NumberText) (env : Env PageAnswer) (address64 : Text)
    (fromHeight : ℚ) (pages : List (List IndexedAccountTxRow))
    (hserves : Serves env address64 pages) (hnew : NewestFirst pages.flatten)
    (hint : IntegerHeights fromHeight (pages.take 16).flatten)
    (hgaps : NoGaps fromHeight (pages.take 16).flatten) :
    let w := ((fetchIndexedWindow nt address64 fromHeight).run env []).1
    w.supported = true → w.items ≠ [] →
      IsWindow nt fromHeight (pages.take 16).flatten w.items := by
  intro w _ hitems
  obtain ⟨hpages, cursors, hne, hserves⟩ := hserves
  have hsplit : pages.flatten = (pages.take 16).flatten ++ (pages.drop 16).flatten := by
    rw [← List.flatten_append, List.take_append_drop]
  have hnew16 : NewestFirst (pages.take 16).flatten := by
    rw [NewestFirst, hsplit] at hnew
    exact (List.pairwise_append.mp hnew).1
  rcases fetchPages_items nt fromHeight hne hserves 16
    (List.length_pos_iff.mpr hpages) [] 0 [] with h | h
  · exact absurd h hitems
  · rw [List.nil_append, List.drop_zero, collectIndexedAccountTxHistory,
      filterMap_takeWhile hnew16 hint hgaps] at h
    have hw : w.items = _ := h
    rw [IsWindow, hw]
    exact ⟨List.perm_insertionSort _ _, List.pairwise_insertionSort _ _⟩

end

/-! ## A node with numbered pages -/

def serve (pages : List (List IndexedAccountTxRow)) : Env PageAnswer := fun _ q =>
  let i := (q.cursor.map (numeral 10)).getD 0
  show Option IndexedPage from (pages[i]?).map fun rows =>
    ⟨some rows, if i + 1 < pages.length then some (decimal (i + 1)) else none⟩

theorem serve_serves (address64 : Text) {pages : List (List IndexedAccountTxRow)}
    (h : pages ≠ []) : Serves (serve pages) address64 pages := by
  refine ⟨h, decimal, ?_, ?_⟩
  · intro i
    exact Nat.toDigits_ne_nil
  · intro i hi tr page hpage
    have hnum : ((pageCursor decimal i).map (numeral 10)).getD 0 = i := by
      rw [pageCursor]
      split
      next h0 => exact h0.symm
      next => exact numeral_decimal i
    rw [pageOf, serve] at hpage
    simp only [hnum] at hpage
    obtain ⟨rows, hrows, rfl⟩ := Option.map_eq_some_iff.mp hpage
    refine ⟨hrows, ?_⟩
    by_cases hlast : i + 1 < pages.length
    · rw [if_pos hlast, if_pos hlast]
      rfl
    · rw [if_neg hlast, if_neg hlast]
      rfl

/-! ## Rows outside the window's reach -/

def rowAt (blockHeight : Option ℚ) : IndexedAccountTxRow where
  txId := .undefined
  blockHeight := blockHeight
  txIndex := none
  timestamp := none
  sender := .undefined
  roles := none
  payload := none
  success := .undefined

def historyAt (heights : List (List (Option ℚ))) : List (List IndexedAccountTxRow) :=
  heights.map fun page => page.map rowAt

theorem flatten_historyAt (heights : List (List (Option ℚ))) :
    (historyAt heights).flatten = heights.flatten.map rowAt := List.map_flatten.symm

theorem newestFirst_historyAt {heights : List (List (Option ℚ))}
    (h : heights.flatten.Pairwise fun r w => ∀ q ∈ r, ∀ q' ∈ w, q' ≤ q) :
    NewestFirst (historyAt heights).flatten := by
  rw [NewestFirst, flatten_historyAt, List.pairwise_map]
  exact h.imp fun h q q' hq hq' => h q hq q' hq'

theorem integerHeights_historyAt {fromHeight : ℚ} {heights : List (List (Option ℚ))}
    (h : ∀ r ∈ heights.flatten, ∀ q ∈ r, fromHeight ≤ q → q.den = 1) :
    IntegerHeights fromHeight (historyAt heights).flatten := by
  intro r hr q hq hle
  rw [flatten_historyAt] at hr
  obtain ⟨height, hmem, rfl⟩ := List.mem_map.mp hr
  exact h height hmem q hq hle

theorem noGaps_historyAt {fromHeight : ℚ} {heights : List (List (Option ℚ))}
    (h : heights.flatten.Pairwise fun r w => r = none → ∀ q ∈ w, ¬ fromHeight ≤ q) :
    NoGaps fromHeight (historyAt heights).flatten := by
  intro _
  rw [flatten_historyAt, List.pairwise_map]
  refine h.imp ?_
  rintro r w hrw hr ⟨q, hq, -, hle⟩
  exact hrw hr q hq hle

def fetched (fromHeight : ℚ) (heights : List (List (Option ℚ))) : IndexedWindow :=
  ((fetchIndexedWindow integersOnly [] fromHeight).run (serve (historyAt heights)) []).1

/-- A newest-first history, from which items are shown that are not its window. -/
def Incomplete (fromHeight : ℚ) (heights : List (List (Option ℚ))) : Prop :=
  Serves (serve (historyAt heights)) [] (historyAt heights) ∧
    NewestFirst (historyAt heights).flatten ∧
    (fetched fromHeight heights).supported = true ∧ (fetched fromHeight heights).items ≠ [] ∧
    ¬ IsWindow integersOnly fromHeight (historyAt heights).flatten
      (fetched fromHeight heights).items

theorem incomplete_of_length {fromHeight : ℚ} {heights : List (List (Option ℚ))}
    (hne : heights ≠ [])
    (hnew : heights.flatten.Pairwise fun r w => ∀ q ∈ r, ∀ q' ∈ w, q' ≤ q)
    (hsup : (fetched fromHeight heights).supported = true)
    (hitems : (fetched fromHeight heights).items.length ≠ 0)
    (hlen : (fetched fromHeight heights).items.length ≠
      ((historyAt heights).flatten.filterMap (windowItem integersOnly fromHeight)).length) :
    Incomplete fromHeight heights := by
  refine ⟨serve_serves [] (by simpa [historyAt] using hne), newestFirst_historyAt hnew, hsup,
    ?_, ?_⟩
  · intro h
    exact hitems (congrArg List.length h)
  · intro h
    exact hlen h.1.length_eq

/-- Seventeen pages of one row each, at heights 117 to 101. -/
def cappedHistory : List (List (Option ℚ)) :=
  (List.range 17).map fun i => [some ((117 - i : ℕ) : ℚ)]

/-- A row without a height between two rows of the window. -/
def gapHistory : List (List (Option ℚ)) := [[some 50, none, some 49]]

def halfHistory : List (List (Option ℚ)) := [[some 50, some (91 / 2)]]

/-- **Rows of the window are lost** behind the sixteenth page and behind a row without a height,
and one at no integer height is shown. -/
theorem histories_incomplete :
    Incomplete 100 cappedHistory ∧ Incomplete 40 gapHistory ∧ Incomplete 40 halfHistory := by
  refine ⟨?_, ?_, ?_⟩
  · apply incomplete_of_length <;> decide +kernel
  · apply incomplete_of_length <;> decide +kernel
  · apply incomplete_of_length <;> decide +kernel

/-- Two pages, of which the second crosses the floor. -/
def twoPages : List (List (Option ℚ)) := [[some 50, some 45], [some 41, some 30, none]]

/-- A history across two pages. -/
theorem fetchIndexedWindow_window_twoPages :
    IsWindow integersOnly 40 ((historyAt twoPages).take 16).flatten
      (fetched 40 twoPages).items := by
  have hint : IntegerHeights 40 (historyAt twoPages).flatten :=
    integerHeights_historyAt (by decide +kernel)
  have hgaps : NoGaps 40 (historyAt twoPages).flatten := noGaps_historyAt (by decide +kernel)
  refine fetchIndexedWindow_window integersOnly (serve (historyAt twoPages)) [] 40
    (historyAt twoPages) (serve_serves [] (List.cons_ne_nil _ _))
    (newestFirst_historyAt (by decide +kernel)) hint hgaps (by decide +kernel) ?_
  intro h
  have hlen : (fetched 40 twoPages).items.length = 3 := by decide +kernel
  rw [fetched, h] at hlen
  cases hlen

end BoingObserver.Account
