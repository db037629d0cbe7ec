import Athena.Lib.Transaction
import Mathlib.Algebra.Order.Ring.Nat
import Mathlib.Data.Set.Finite.List
import Mathlib.Data.Set.Card

/-!
# Lists that are read page by page

A list is read from its first page to the one that names no next page.  Each page says where the
next one begins by a cursor, which is a text of a bounded length that must not have been seen
before; an item is refused when it is not acceptable or when its key was read already.

A list that was read is complete and free of duplicates (`lists_of_read`), and reading stops
whatever the pages say, since there are only finitely many cursors (`exists_read`).
-/

namespace Athena.Lib.Paging

open List

variable {ε α β : Type} {entries : List β}

structure Page (α : Type) where
  items : List α
  limit : ℤ
  nextCursor : Option String

/-- The page that begins at `next`, or no further page. -/
def Page.next (page : Page α) : Option String := page.nextCursor.filter (· ≠ "")

/-- What a call answers: nothing when it fails, and then maybe no page. -/
abbrev Reply (α : Type) := Option (Option (Page α))

inductive PagingError (ε : Type)
  | unavailable
  | invalidPage
  | item (e : ε)
  | duplicateKey
  | limitMismatch
  | invalidCursor
  | cursorDidNotAdvance

structure Reader (ε α β : Type) where
  pageSize : ℕ
  maxCursorSize : ℕ
  canonical : String → Bool
  accept : α → Except ε β
  key : β → String

structure Progress (β : Type) where
  cursor : String
  seen : List String
  entries : List β

namespace Reader

variable (r : Reader ε α β)

def addItem (entries : List β) (a : α) : Except (PagingError ε) (List β) := do
  let b ← (r.accept a).mapError .item
  ensure (r.key b ∉ entries.map r.key) .duplicateKey
  pure (entries ++ [b])

def nextCursor (s : Progress β) (page : Page α) : Except (PagingError ε) (Option String) := do
  ensure (page.limit = r.pageSize) .limitMismatch
  match page.next with
  | none => pure none
  | some next =>
    ensure (r.canonical next ∧ next.utf8ByteSize ≤ r.maxCursorSize ∧ next ≠ s.cursor)
      .invalidCursor
    ensure (next ∉ s.seen) .cursorDidNotAdvance
    pure (some next)

def readPage (s : Progress β) (reply : Reply α) :
    Except (PagingError ε) (List β × Option String) := do
  let response ← found reply .unavailable
  let page ← found response .invalidPage
  ensure (page.items.length ≤ r.pageSize) .invalidPage
  let entries ← page.items.foldlM r.addItem s.entries
  let next ← r.nextCursor s page
  pure (entries, next)

/-- The calls from the `n`-th on, of which at most `fuel` are made. -/
def readFrom (replies : ℕ → Reply α) :
    ℕ → ℕ → Progress β → Option (Except (PagingError ε) (List β))
  | 0, _, _ => none
  | fuel + 1, n, s =>
    match r.readPage s (replies n) with
    | .error e => some (.error e)
    | .ok (entries, none) => some (.ok entries)
    | .ok (entries, some next) => readFrom replies fuel (n + 1) ⟨next, next :: s.seen, entries⟩

def read (replies : ℕ → Reply α) (fuel : ℕ) : Option (Except (PagingError ε) (List β)) :=
  r.readFrom replies fuel 0 ⟨"", [], []⟩

end Reader

/-! ## Complete lists -/

/-- The answers from the `n`-th on, up to the first that names no next page. -/
inductive Complete (replies : ℕ → Reply α) : ℕ → List (Page α) → Prop
  | last {n : ℕ} {page : Page α} (h : replies n = some (some page)) (hlast : page.next = none) :
      Complete replies n [page]
  | more {n : ℕ} {page : Page α} {pages : List (Page α)} (h : replies n = some (some page))
      (hmore : page.next ≠ none) (hrest : Complete replies (n + 1) pages) :
      Complete replies n (page :: pages)

/-- The items of all pages are accepted one by one, and no two have the same key. -/
def Reader.Lists (r : Reader ε α β) (replies : ℕ → Reply α) (entries : List β) : Prop :=
  ∃ pages, Complete replies 0 pages ∧ (pages.flatMap Page.items).mapM r.accept = .ok entries ∧
    (entries.map r.key).Nodup

namespace Reader

variable {r : Reader ε α β}

theorem of_addItems {items : List α} {entries' : List β}
    (h : items.foldlM r.addItem entries = .ok entries') :
    ∃ added, items.mapM r.accept = .ok added ∧ entries' = entries ++ added ∧
      ((entries.map r.key).Nodup → (entries'.map r.key).Nodup) := by
  induction items generalizing entries with
  | nil =>
    cases h
    exact ⟨[], rfl, (append_nil _).symm, id⟩
  | cons a _ ih =>
    simp only [foldlM_cons, committed, addItem, mapError_eq_ok] at h
    obtain ⟨_, ⟨b, hb, hfresh, rfl⟩, h⟩ := h
    obtain ⟨added, hadded, rfl, hnodup⟩ := ih h
    refine ⟨b :: added, ?_, by simp, fun hentries => hnodup ?_⟩
    · rw [mapM_cons, hb, hadded]
      rfl
    · rw [map_append, map_singleton, nodup_append]
      refine ⟨hentries, nodup_singleton _, fun x hx y hy hxy => hfresh ?_⟩
      rw [← mem_singleton.mp hy, ← hxy]
      exact hx

/-- A page that was read, with the place where reading goes on. -/
theorem of_readPage {s : Progress β} {reply : Reply α} {next : Option String}
    (h : r.readPage s reply = .ok (entries, next)) :
    ∃ page, reply = some (some page) ∧ page.next = next ∧
      page.items.foldlM r.addItem s.entries = .ok entries ∧
      ∀ c ∈ next, c.utf8ByteSize ≤ r.maxCursorSize ∧ c ∉ s.seen := by
  simp only [readPage, committed] at h
  obtain ⟨_, rfl, page, rfl, -, _, hentries, _, hnext, rfl, rfl⟩ := h
  refine ⟨page, rfl, ?_⟩
  obtain ⟨-, hnext⟩ := of_ensure hnext
  cases hpage : page.next with
  | none =>
    rw [hpage] at hnext
    cases hnext
    exact ⟨rfl, hentries, by simp⟩
  | some =>
    simp only [hpage, committed] at hnext
    obtain ⟨⟨-, hsize, -⟩, hseen, rfl⟩ := hnext
    refine ⟨rfl, hentries, fun c' hc => ?_⟩
    cases hc
    exact ⟨hsize, hseen⟩

theorem of_readFrom {replies : ℕ → Reply α} {fuel n : ℕ} {s : Progress β}
    (h : r.readFrom replies fuel n s = some (.ok entries)) :
    ∃ pages added, Complete replies n pages ∧
      (pages.flatMap Page.items).mapM r.accept = .ok added ∧ entries = s.entries ++ added ∧
      ((s.entries.map r.key).Nodup → (entries.map r.key).Nodup) := by
  induction fuel generalizing n s with
  | zero => cases h
  | succ _ ih =>
    unfold readFrom at h
    split at h
    · cases h
    · rename_i hpage
      cases h
      obtain ⟨page, hreply, hnext, hitems, -⟩ := of_readPage hpage
      obtain ⟨added, hadded, rfl, hnodup⟩ := of_addItems hitems
      exact ⟨[page], added, .last hreply hnext, by simpa using hadded, rfl, hnodup⟩
    · rename_i read next hpage
      obtain ⟨page, hreply, hnext, hitems, -⟩ := of_readPage hpage
      obtain ⟨added, hadded, hread, hnodup⟩ := of_addItems hitems
      obtain ⟨pages, rest, hpages, hrest, rfl, hnodup'⟩ := ih h
      refine ⟨page :: pages, added ++ rest, .more hreply (by simp [hnext]) hpages, ?_, ?_,
        fun hentries => hnodup' (hnodup hentries)⟩
      · rw [flatMap_cons, mapM_append, hadded, hrest]
        rfl
      · rw [← append_assoc, ← hread]

/-- What was read is complete and has no duplicates. -/
theorem lists_of_read {replies : ℕ → Reply α} {fuel : ℕ}
    (h : r.read replies fuel = some (.ok entries)) : r.Lists replies entries := by
  obtain ⟨pages, added, hpages, hadded, rfl, hnodup⟩ := of_readFrom h
  exact ⟨pages, hpages, hadded, hnodup nodup_nil⟩

end Reader

/-! ## Reading stops -/

instance finiteUInt8 : Finite UInt8 :=
  Finite.of_injective UInt8.toFin fun _ _ h => UInt8.toFin_inj.mp h

theorem finite_texts (n : ℕ) : {s : String | s.utf8ByteSize ≤ n}.Finite := by
  have hinj : Function.Injective fun s : String => s.toByteArray.data.toList := by
    intro s t h
    apply String.toByteArray_inj.mp
    exact ByteArray.ext (Array.toList_inj.mp h)
  exact (finite_length_le UInt8 n).preimage hinj.injOn

/-- The number of cursors that a reader could ever follow. -/
noncomputable def Reader.cursors (r : Reader ε α β) : ℕ :=
  {s : String | s.utf8ByteSize ≤ r.maxCursorSize}.ncard

theorem length_le_cursors {r : Reader ε α β} {seen : List String} (hnodup : seen.Nodup)
    (hsize : ∀ c ∈ seen, c.utf8ByteSize ≤ r.maxCursorSize) : seen.length ≤ r.cursors := by
  have hsubset : ((seen.toFinset : Finset String) : Set String) ⊆
      {s : String | s.utf8ByteSize ≤ r.maxCursorSize} := by
    intro c hc
    exact hsize c (by simpa using hc)
  have hle := Set.ncard_le_ncard hsubset (finite_texts _)
  rwa [Set.ncard_coe_finset, toFinset_card_of_nodup hnodup] at hle

theorem Reader.readFrom_ne_none {r : Reader ε α β} {replies : ℕ → Reply α} {fuel n : ℕ}
    {s : Progress β} (hnodup : s.seen.Nodup)
    (hsize : ∀ c ∈ s.seen, c.utf8ByteSize ≤ r.maxCursorSize)
    (hfuel : r.cursors < fuel + s.seen.length) : r.readFrom replies fuel n s ≠ none := by
  induction fuel generalizing n s with
  | zero =>
    have := length_le_cursors hnodup hsize
    omega
  | succ _ ih =>
    unfold readFrom
    split
    · simp
    · simp
    · rename_i hpage
      obtain ⟨-, -, -, -, hnew⟩ := of_readPage hpage
      obtain ⟨hnext, hfresh⟩ := hnew _ rfl
      -- each page that is followed by another uses up one cursor
      apply ih (nodup_cons.mpr ⟨hfresh, hnodup⟩)
      · simpa using ⟨hnext, hsize⟩
      · simp only [length_cons]
        omega

/-- Reading stops after as many pages as there are cursors. -/
theorem Reader.exists_read (r : Reader ε α β) (replies : ℕ → Reply α) :
    ∃ result, r.read replies (r.cursors + 1) = some result :=
  Option.ne_none_iff_exists'.mp (readFrom_ne_none nodup_nil (by simp) (by simp))

end Athena.Lib.Paging
