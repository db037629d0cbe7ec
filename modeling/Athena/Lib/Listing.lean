import Mathlib.Data.List.Sort
import Mathlib.Data.List.TakeWhile
import Mathlib.Data.Prod.Lex

/-!
# Listings

`SELECT … WHERE p ORDER BY order LIMIT n`: the first rows of those that satisfy a condition,
in an order.  A row that satisfies the condition is listed as soon as fewer than `n` others
come before it (`mem_listing_of_rank`), so a row that is not listed waits for its turn and
is not passed over.
-/

namespace Athena.Lib

open List

variable {α β : Type} [LinearOrder β]

/-- The first `n` rows that satisfy `p`, in the order of `order`. -/
def listing (order : α → β) (p : α → Bool) (n : ℕ) (rows : List α) : List α :=
  ((rows.filter p).insertionSort fun a b => order a ≤ order b).take n

/-- The number of rows that satisfy `p` and come before a row. -/
def rank (order : α → β) (p : α → Bool) (rows : List α) (b : α) : ℕ :=
  (rows.filter p).countP fun a => order a < order b

variable {order : α → β} {rows : List α}

theorem mem_of_mem_listing {p : α → Bool} {n : ℕ} {a : α} (h : a ∈ listing order p n rows) :
    a ∈ rows ∧ p a := by
  have h := mem_of_mem_take h
  rw [mem_insertionSort] at h
  exact mem_filter.mp h

theorem mem_listing_of_rank {p : α → Bool} {n : ℕ} {b : α}
    (hinj : ∀ a ∈ rows, ∀ c ∈ rows, order a = order c → a = c) (hnodup : rows.Nodup) (hb : b ∈ rows)
    (hp : p b) (hrank : rank order p rows b < n) : b ∈ listing order p n rows := by
  let sorted := (rows.filter p).insertionSort fun a b => order a ≤ order b
  have hperm : sorted.Perm (rows.filter p) := perm_insertionSort _ _
  have hpairwise : sorted.Pairwise fun a b => order a ≤ order b := pairwise_insertionSort _ _
  have hmem : b ∈ sorted := hperm.mem_iff.mpr (mem_filter.mpr ⟨hb, hp⟩)
  obtain ⟨before, after, hsplit⟩ := append_of_mem hmem
  -- what stands before the row in the sorted list comes before it in the order
  have hbefore (a : α) (ha : a ∈ before) : order a < order b := by
    rw [hsplit] at hpairwise
    have hle := (pairwise_append.mp hpairwise).2.2 a ha b (by simp)
    refine lt_of_le_of_ne hle fun heq => ?_
    have hrows : a ∈ rows := by
      have : a ∈ sorted := by rw [hsplit]; simp [ha]
      exact (mem_filter.mp (hperm.mem_iff.mp this)).1
    obtain rfl : a = b := hinj a hrows b hb heq
    have hnodup' : sorted.Nodup := hperm.nodup_iff.mpr (hnodup.filter p)
    rw [hsplit] at hnodup'
    exact (nodup_append.mp hnodup').2.2 a ha a (by simp) rfl
  have hlength : before.length ≤ rank order p rows b := by
    calc before.length
        = before.countP (fun a => order a < order b) :=
          (countP_eq_length.mpr fun a ha => decide_eq_true (hbefore a ha)).symm
      _ ≤ sorted.countP (fun a => order a < order b) := by
          rw [hsplit, countP_append]
          omega
      _ = rank order p rows b := hperm.countP_eq _
  have hlisted : b ∈ sorted.take n := by
    rw [hsplit, take_append, mem_append]
    right
    obtain ⟨m, hm⟩ : ∃ m, n - before.length = m + 1 := ⟨n - before.length - 1, by omega⟩
    rw [hm, take_succ_cons]
    simp
  exact hlisted

/-! ## Rows in an order -/

/-- `ORDER BY`: the rows in the order of `order`. -/
def orderBy (order : α → β) (rows : List α) : List α :=
  rows.insertionSort fun a b => order a ≤ order b

theorem perm_orderBy (order : α → β) (rows : List α) : (orderBy order rows).Perm rows :=
  perm_insertionSort _ _

@[simp] theorem mem_orderBy {a : α} :
    a ∈ orderBy order rows ↔ a ∈ rows := (perm_orderBy order rows).mem_iff

@[simp] theorem length_orderBy (order : α → β) (rows : List α) :
    (orderBy order rows).length = rows.length := (perm_orderBy order rows).length_eq

theorem pairwise_orderBy (order : α → β) (rows : List α) :
    (orderBy order rows).Pairwise fun a b => order a ≤ order b := pairwise_insertionSort _ _

theorem map_orderBy {γ : Type} {order' : γ → β} {f : α → γ}
    (h : ∀ a ∈ rows, order' (f a) = order a) :
    (orderBy order rows).map f = orderBy order' (rows.map f) := by
  apply map_insertionSort
  intro a ha b hb
  rw [h a ha, h b hb]

/-- No two rows have one place: their order does not matter. -/
theorem orderBy_eq_of_perm {rows' : List α} (h : rows.Perm rows')
    (hinj : ∀ a ∈ rows, ∀ b ∈ rows, order a = order b → a = b) :
    orderBy order rows = orderBy order rows' := by
  refine Perm.eq_of_pairwise ?_ (pairwise_orderBy order rows) (pairwise_orderBy order rows')
    ((perm_orderBy order rows).trans (h.trans (perm_orderBy order rows').symm))
  intro a b ha hb hab hba
  exact hinj a (mem_orderBy.mp ha) b (h.mem_iff.mpr (mem_orderBy.mp hb)) (le_antisymm hab hba)

/-- Where a value falls along a list, the rows that have the value of the first row are those
that stand before the first other. -/
theorem mem_takeWhile_of_pairwise {f : α → ℕ} {a : α} {l : List α}
    (h : (a :: l).Pairwise fun b c => f c ≤ f b) {b : α} :
    b ∈ (a :: l).takeWhile (fun c => f c = f a) ↔ b ∈ a :: l ∧ f b = f a := by
  constructor
  · intro hb
    exact ⟨(takeWhile_sublist _).subset hb, by simpa using mem_takeWhile_imp hb⟩
  · rintro ⟨hb, hfb⟩
    rw [← takeWhile_append_dropWhile (p := fun c => f c = f a) (l := a :: l),
      mem_append] at hb
    refine hb.resolve_right fun hdrop => ?_
    -- the first row that is dropped has a smaller value, and so has every row after it
    obtain ⟨c, rest, hsplit⟩ := exists_cons_of_ne_nil (ne_nil_of_mem hdrop)
    have hc : f c ≠ f a := by
      have := head?_dropWhile_not (fun c => decide (f c = f a)) (a :: l)
      simpa [hsplit] using this
    have hdropped : (c :: rest).Pairwise fun b c => f c ≤ f b :=
      hsplit ▸ h.sublist (dropWhile_sublist _)
    have hca : f c ≤ f a := by
      have hmem : c ∈ a :: l := (dropWhile_sublist _).subset (hsplit ▸ mem_cons_self)
      rcases mem_cons.mp hmem with rfl | hmem
      · exact le_rfl
      · exact (pairwise_cons.mp h).1 c hmem
    have hbc : f b ≤ f c := by
      rw [hsplit] at hdrop
      rcases mem_cons.mp hdrop with rfl | hb
      · exact le_rfl
      · exact (pairwise_cons.mp hdropped).1 b hb
    omega

end Athena.Lib
