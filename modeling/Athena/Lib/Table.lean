import Athena.Lib.Transaction
import Mathlib.Data.List.Find
import Mathlib.Data.List.Nodup

/-!
# Keyed tables

A relational table with a primary key, as a list of rows in insertion order
whose keys are pairwise distinct.  The distinctness is a field of the table, so
no operation can produce two rows with one key, and a row is determined by its
key in every table a program can reach.
-/

namespace Athena.Lib

open List

/-- The largest value of a `bigint` column, which is `math.MaxInt64`. -/
def maxInt64 : ℕ := 9223372036854775807

/-- A table whose rows are told apart by `key`. -/
structure Table {α κ : Type} (key : α → κ) where
  rows : List α
  nodup : (rows.map key).Nodup

namespace Table

variable {α κ : Type} {key : α → κ}

instance : Membership α (Table key) := ⟨fun t a => a ∈ t.rows⟩

variable {t t' : Table key} {a b : α} {k : κ}

theorem mem_rows : a ∈ t.rows ↔ a ∈ t := Iff.rfl

theorem eq_of_rows_eq (h : t.rows = t'.rows) : t = t' := by
  cases t
  cases t'
  congr

def empty : Table key := ⟨[], List.nodup_nil⟩

@[simp] theorem not_mem_empty (a : α) : a ∉ (empty : Table key) := not_mem_nil

instance : Inhabited (Table key) := ⟨empty⟩

/-- A row is determined by its key. -/
theorem eq_of_key_eq (ha : a ∈ t) (hb : b ∈ t) (h : key a = key b) : a = b :=
  inj_on_of_nodup_map t.nodup ha hb h

def update (t : Table key) (f : α → α) (hf : ∀ a, key (f a) = key a) : Table key where
  rows := t.rows.map f
  nodup := by
    rw [List.map_map]
    have : key ∘ f = key := funext hf
    simpa only [this] using t.nodup

theorem mem_update {f : α → α} {hf : ∀ a, key (f a) = key a} :
    b ∈ t.update f hf ↔ ∃ a ∈ t, f a = b := by
  simp only [← mem_rows, update, mem_map]

def filter (t : Table key) (p : α → Bool) : Table key where
  rows := t.rows.filter p
  nodup := t.nodup.sublist (List.filter_sublist.map key)

@[simp] theorem mem_filter {p : α → Bool} : a ∈ t.filter p ↔ a ∈ t ∧ p a := List.mem_filter

def ofList? [DecidableEq κ] (l : List α) : Option (Table key) :=
  if h : (l.map key).Nodup then some ⟨l, h⟩ else none

theorem ofList?_eq_some [DecidableEq κ] {l : List α} : ofList? l = some t ↔ t.rows = l := by
  obtain ⟨rows, hrows⟩ := t
  unfold ofList?
  split
  · simp [eq_comm]
  · rename_i h
    simp only [reduceCtorEq, false_iff]
    rintro rfl
    exact h hrows

/-! ## Tables related row by row -/

def Rel (R : α → α → Prop) (t t' : Table key) : Prop := List.Forall₂ R t.rows t'.rows

section Rel
variable {R S T : α → α → Prop} {t t' t'' : Table key}

theorem Rel.refl (h : ∀ a ∈ t, R a a) : Rel R t t := forall₂_same.mpr h

theorem Rel.exists_of_mem (h : Rel R t t') {a : α} (ha : a ∈ t) : ∃ b ∈ t', R a b :=
  exists_of_forall₂ h ha

theorem Rel.exists_of_mem' (h : Rel R t t') {b : α} (hb : b ∈ t') : ∃ a ∈ t, R a b :=
  exists_of_forall₂ (Forall₂.flip h) hb

theorem Rel.mono (h : Rel R t t') (hRS : ∀ a ∈ t, ∀ b ∈ t', R a b → S a b) : Rel S t t' := by
  refine forall₂_iff_zip.mpr ⟨Forall₂.length_eq h, fun {a b} hab => ?_⟩
  obtain ⟨ha, hb⟩ := of_mem_zip hab
  exact hRS a ha b hb (forall₂_zip h hab)

theorem Rel.trans (h : Rel R t t') (h' : Rel S t' t'')
    (hT : ∀ a b c, R a b → S b c → T a c) : Rel T t t'' := by
  obtain ⟨l, hl⟩ := t
  obtain ⟨l', hl'⟩ := t'
  obtain ⟨l'', hl''⟩ := t''
  simp only [Rel] at h h' ⊢
  clear hl hl' hl''
  induction h generalizing l'' with
  | nil => cases h'; exact .nil
  | cons hR _ ih => cases h' with | cons hS hrest => exact .cons (hT _ _ _ hR hS) (ih _ hrest)

theorem rel_update (f : α → α) (hf : ∀ a, key (f a) = key a) (h : ∀ a ∈ t, R a (f a)) :
    Rel R t (t.update f hf) := by
  unfold Rel update
  exact forall₂_map_right_iff.mpr (forall₂_same.mpr h)

theorem Rel.map_eq {β : Type} {f : α → β} (h : Rel R t t') (hf : ∀ a b, R a b → f b = f a) :
    t'.rows.map f = t.rows.map f := by
  rw [← forall₂_eq_eq_eq, forall₂_map_left_iff, forall₂_map_right_iff]
  exact Forall₂.flip (Forall₂.imp hf h)

theorem Rel.countP (h : Rel R t t') {p : α → Bool} (hp : ∀ a b, R a b → p b = p a) :
    t'.rows.countP p = t.rows.countP p := by
  have hmap := congrArg (List.countP id) (h.map_eq hp)
  simpa only [List.countP_map, Function.id_comp] using hmap

end Rel

variable [DecidableEq κ]

/-- The row with key `k`, if there is one. -/
def get? (t : Table key) (k : κ) : Option α := t.rows.find? fun a => key a = k

theorem get?_eq_some : t.get? k = some a ↔ a ∈ t ∧ key a = k := by
  constructor
  · intro h
    exact ⟨mem_of_find?_eq_some h, by simpa using find?_some h⟩
  · rintro ⟨ha, rfl⟩
    cases hb : t.get? (key a) with
    | none =>
      have := find?_eq_none.mp hb a ha
      simp at this
    | some b =>
      have hkey : key b = key a := by simpa using find?_some hb
      rw [eq_of_key_eq (mem_of_find?_eq_some hb) ha hkey]

theorem get?_of_mem (ha : a ∈ t) : t.get? (key a) = some a :=
  get?_eq_some.mpr ⟨ha, rfl⟩

theorem mem_of_get? (h : t.get? k = some a) : a ∈ t :=
  (get?_eq_some.mp h).1

theorem key_of_get? (h : t.get? k = some a) : key a = k :=
  (get?_eq_some.mp h).2

theorem get?_eq_none : t.get? k = none ↔ ∀ a ∈ t, key a ≠ k := by
  simp [get?, ← mem_rows]

theorem map_get?_of_perm {γ : Type} {f : α → γ} {key' : γ → κ} (hf : ∀ a, key' (f a) = key a)
    (h : (t.rows.map f).Perm (t'.rows.map f)) (k : κ) : (t.get? k).map f = (t'.get? k).map f := by
  cases ha : t.get? k with
  | none =>
    have hnone : t'.get? k = none := by
      rw [get?_eq_none] at ha ⊢
      intro b hb hkey
      obtain ⟨a, hat, hab⟩ := mem_map.mp (h.mem_iff.mpr (mem_map_of_mem hb))
      exact ha a hat (by rw [← hf, hab, hf, hkey])
    rw [hnone]
  | some a =>
    obtain ⟨hat, rfl⟩ := get?_eq_some.mp ha
    obtain ⟨b, hb, hab⟩ := mem_map.mp (h.mem_iff.mp (mem_map_of_mem hat))
    have hkey : key b = key a := by rw [← hf, hab, hf]
    rw [get?_eq_some.mpr ⟨hb, hkey⟩, Option.map_some, Option.map_some, hab]

theorem get?_of_perm (h : t.rows.Perm t'.rows) (k : κ) : t.get? k = t'.get? k := by
  simpa using map_get?_of_perm (f := id) (fun _ => rfl) (by simpa using h) k

/-- Replace the row that has the key of `a`; without such a row, do nothing. -/
def put (t : Table key) (a : α) : Table key :=
  t.update (fun b => if key b = key a then a else b) (by intro b; split <;> simp_all)

/-- The rows after an update of one of them. -/
theorem mem_put : b ∈ t.put a ↔ (b = a ∧ ∃ c ∈ t, key c = key a) ∨ (b ∈ t ∧ key b ≠ key a) := by
  rw [put, mem_update]
  constructor
  · rintro ⟨c, hc, rfl⟩
    by_cases h : key c = key a
    · exact .inl ⟨by simp [h], c, hc, h⟩
    · exact .inr (by simpa [h] using hc)
  · rintro (⟨rfl, c, hc, h⟩ | ⟨hb, h⟩)
    · exact ⟨c, hc, by simp [h]⟩
    · exact ⟨b, hb, by simp [h]⟩

theorem mem_put_self (hb : b ∈ t) (h : key b = key a) : a ∈ t.put a :=
  mem_put.mpr (.inl ⟨rfl, b, hb, h⟩)

theorem eq_or_mem_of_mem_put (h : b ∈ t.put a) : b = a ∨ (b ∈ t ∧ key b ≠ key a) :=
  (mem_put.mp h).imp And.left id

@[simp] theorem keys_put (t : Table key) (a : α) :
    (t.put a).rows.map key = t.rows.map key := by
  rw [put, update, map_map]
  apply map_congr_left
  intro b _
  by_cases h : key b = key a <;> simp [h]

theorem find?_put {p : α → Bool} (h : ∀ b ∈ t, key b = key a → p a = p b) :
    (t.put a).rows.find? p = (t.rows.find? p).map fun b => if key b = key a then a else b := by
  rw [put, update, find?_map]
  congr 1
  apply find?_congr
  intro b hb
  by_cases hkey : key b = key a
  · simp [hkey, h b hb hkey]
  · simp [hkey]

@[simp] theorem length_put (t : Table key) (a : α) : (t.put a).rows.length = t.rows.length := by
  simp [put, update]

theorem put_eq_self (ha : a ∈ t) : t.put a = t := by
  obtain ⟨l, hl⟩ := t
  unfold put update
  congr 1
  conv_rhs => rw [← map_id l]
  apply map_congr_left
  intro b hb
  split
  · exact (eq_of_key_eq (t := ⟨l, hl⟩) hb ha ‹_›).symm
  · rfl

theorem put_ne_self (hb : b ∈ t) (hkey : key b = key a) (hne : a ≠ b) : t.put a ≠ t := by
  intro h
  have ha : a ∈ t := h ▸ mem_put_self hb hkey
  exact hne (eq_of_key_eq ha hb hkey.symm)

theorem put_put (h : key a = key b) : (t.put a).put b = t.put b := by
  unfold put update
  congr 1
  rw [map_map]
  apply map_congr_left
  intro c _
  by_cases hc : key c = key b <;> simp [h, hc]

/-- An update of one row relates every row to what becomes of it. -/
theorem rel_put {R : α → α → Prop} (hb : b ∈ t) (hkey : key a = key b) (hself : R b a)
    (hother : ∀ c ∈ t, key c ≠ key b → R c c) : Rel R t (t.put a) := by
  refine rel_update _ _ fun c hc => ?_
  split
  · rename_i h
    rwa [eq_of_key_eq hc hb (h.trans hkey)]
  · rename_i h
    exact hother c hc fun hc' => h (hc'.trans hkey.symm)

theorem get?_put_self (hb : b ∈ t) (h : key b = key a) : (t.put a).get? (key a) = some a :=
  get?_eq_some.mpr ⟨mem_put_self hb h, rfl⟩

theorem get?_put_of_ne (hk : k ≠ key a) : (t.put a).get? k = t.get? k := by
  cases hb : t.get? k with
  | none =>
    rw [get?_eq_none] at hb ⊢
    intro c hc
    rcases eq_or_mem_of_mem_put hc with rfl | ⟨hc, -⟩
    · exact Ne.symm hk
    · exact hb c hc
  | some =>
    obtain ⟨hbt, rfl⟩ := get?_eq_some.mp hb
    exact get?_of_mem (mem_put.mpr (.inr ⟨hbt, hk⟩))

def insert? (t : Table key) (a : α) : Option (Table key) :=
  if h : key a ∈ t.rows.map key then none
  else some ⟨t.rows ++ [a], by
    rw [List.map_append, List.nodup_append]
    refine ⟨t.nodup, by simp, ?_⟩
    intro x hx y hy hxy
    have hya : y = key a := by simpa using hy
    exact h (hya ▸ hxy ▸ hx)⟩

theorem insert?_eq_some (h : t.insert? a = some t') :
    (∀ b ∈ t, key b ≠ key a) ∧ t'.rows = t.rows ++ [a] := by
  unfold insert? at h
  split at h
  · cases h
  · rename_i hfresh
    cases h
    refine ⟨?_, rfl⟩
    intro b hb heq
    exact hfresh (heq ▸ mem_map_of_mem hb)

theorem insert?_eq_none : t.insert? a = none ↔ ∃ b ∈ t, key b = key a := by
  unfold insert?
  split
  · rename_i h
    simpa [mem_rows] using h
  · rename_i h
    simpa [mem_rows] using h

/-- The rows after an insertion. -/
theorem mem_insert? (h : t.insert? a = some t') : b ∈ t' ↔ b ∈ t ∨ b = a := by
  rw [← mem_rows, (insert?_eq_some h).2]
  simp [mem_rows]

theorem update_put {f : α → α} {hf : ∀ a, key (f a) = key a} (a : α) :
    (t.put a).update f hf = (t.update f hf).put (f a) := by
  apply eq_of_rows_eq
  simp only [put, update, map_map]
  refine map_congr_left fun b _ => ?_
  simp only [Function.comp_apply, hf]
  split <;> rfl

theorem update_insert? {f : α → α} {hf : ∀ a, key (f a) = key a} (a : α) :
    (t.insert? a).map (fun t => t.update f hf) = (t.update f hf).insert? (f a) := by
  have hkeys : (t.update f hf).rows.map key = t.rows.map key := by
    simp [update, Function.comp_def, hf]
  unfold insert?
  by_cases h : key a ∈ t.rows.map key
  · simp [h, hkeys, hf]
  · simp only [h, hkeys, hf, dite_false, Option.map_some, Option.some.injEq]
    apply eq_of_rows_eq
    simp [update]

def insertAll? (t : Table key) (l : List α) : Option (Table key) := l.foldlM insert? t

theorem insertAll?_eq_some {l : List α} (h : t.insertAll? l = some t') : t'.rows = t.rows ++ l := by
  induction l generalizing t with
  | nil =>
    obtain rfl : t = t' := by simpa [insertAll?] using h
    simp
  | cons a l ih =>
    obtain ⟨u, hu, h⟩ : ∃ u, t.insert? a = some u ∧ u.insertAll? l = some t' := by
      simpa [insertAll?, foldlM_cons, Option.bind_eq_some_iff] using h
    rw [ih h, (insert?_eq_some hu).2, append_assoc, singleton_append]

def upsert (t : Table key) (a : α) : Table key where
  rows := t.rows.filter (fun b => key b ≠ key a) ++ [a]
  nodup := by
    rw [List.map_append, List.nodup_append]
    refine ⟨t.nodup.sublist (List.filter_sublist.map key), by simp, ?_⟩
    intro x hx y hy hxy
    obtain ⟨b, hb, rfl⟩ := List.mem_map.mp hx
    have hne : key b ≠ key a := by simpa using (List.mem_filter.mp hb).2
    exact hne (hxy.trans (by simpa using hy))

@[simp] theorem mem_upsert : b ∈ t.upsert a ↔ b = a ∨ (b ∈ t ∧ key b ≠ key a) := by
  rw [← mem_rows, upsert]
  simp [mem_rows, or_comm]

theorem mem_foldl_upsert {l : List α} (h : (l.map key).Nodup) :
    a ∈ l.foldl upsert t ↔ a ∈ l ∨ (a ∈ t ∧ key a ∉ l.map key) := by
  induction l generalizing t with
  | nil => simp
  | cons b l ih =>
    have hl := List.nodup_cons.mp h
    rw [List.foldl_cons, ih hl.2, mem_upsert]
    grind

/-! ## Unique columns -/

omit [DecidableEq κ] in
def Unique {β : Type} (t : Table key) (f : α → β) : Prop := ∀ a ∈ t, ∀ b ∈ t, f a = f b → a = b

section Unique
variable {β : Type} {t : Table key} {f : α → β}

omit [DecidableEq κ]

theorem unique_empty : (empty : Table key).Unique f := by simp [Unique]

theorem Unique.filter (h : t.Unique f) (p : α → Bool) : (t.filter p).Unique f := by
  intro a ha b hb
  exact h a (mem_filter.mp ha).1 b (mem_filter.mp hb).1

theorem Unique.insert? [DecidableEq κ] {t' : Table key} {a : α} (h : t.Unique f)
    (hinsert : t.insert? a = some t') (hfresh : ∀ b ∈ t, f b ≠ f a) : t'.Unique f := by
  intro b hb c hc heq
  rw [mem_insert? hinsert] at hb hc
  rcases hb with hb | rfl <;> rcases hc with hc | rfl
  · exact h b hb c hc heq
  · exact absurd heq (hfresh b hb)
  · exact absurd heq.symm (hfresh c hc)
  · rfl

/-- No two rows that satisfy a condition share the value of a column, which is what a partial
unique index says. -/
def UniqueAmong (t : Table key) (p : α → Prop) (f : α → β) : Prop :=
  ∀ a ∈ t, ∀ b ∈ t, p a → p b → f a = f b → a = b

variable {p : α → Prop}

theorem uniqueAmong_empty : (empty : Table key).UniqueAmong p f := by simp [UniqueAmong]

theorem UniqueAmong.update (h : t.UniqueAmong p f) {g : α → α} {hg : ∀ a, key (g a) = key a}
    (hpg : ∀ a, p (g a) → p a) (hfg : ∀ a, f (g a) = f a) : (t.update g hg).UniqueAmong p f := by
  intro a ha b hb hpa hpb heq
  obtain ⟨a', ha', rfl⟩ := mem_update.mp ha
  obtain ⟨b', hb', rfl⟩ := mem_update.mp hb
  rw [hfg, hfg] at heq
  rw [h a' ha' b' hb' (hpg a' hpa) (hpg b' hpb) heq]

theorem UniqueAmong.upsert [DecidableEq κ] {a : α} (h : t.UniqueAmong p f)
    (hfresh : p a → ∀ b ∈ t, key b ≠ key a → p b → f b ≠ f a) : (t.upsert a).UniqueAmong p f := by
  intro b hb c hc hpb hpc heq
  rcases mem_upsert.mp hb with hba | ⟨hbt, hkb⟩ <;> rcases mem_upsert.mp hc with hca | ⟨hct, hkc⟩
  · rw [hba, hca]
  · subst hba
    exact absurd heq.symm (hfresh hpb c hct hkc hpc)
  · subst hca
    exact absurd heq (hfresh hpc b hbt hkb hpb)
  · exact h b hbt c hct hpb hpc heq

theorem unique_iff : t.Unique f ↔ t.UniqueAmong (fun _ => True) f := by
  simp [Unique, UniqueAmong]

theorem Unique.update (h : t.Unique f) {g : α → α} {hg : ∀ a, key (g a) = key a}
    (hfg : ∀ a, f (g a) = f a) : (t.update g hg).Unique f :=
  unique_iff.mpr ((unique_iff.mp h).update (fun _ _ => trivial) hfg)

theorem Unique.upsert [DecidableEq κ] {a : α} (h : t.Unique f)
    (hfresh : ∀ b ∈ t, key b ≠ key a → f b ≠ f a) : (t.upsert a).Unique f :=
  unique_iff.mpr ((unique_iff.mp h).upsert fun _ b hb hkey _ => hfresh b hb hkey)

end Unique

/-! ## Tables numbered from 1 -/

theorem countP_range' (m n : ℕ) : (range' 1 n).countP (fun k => m < k) = n - m := by
  induction n with
  | zero => simp
  | succ n ih =>
    rw [range'_concat, countP_append, ih]
    by_cases h : m < 1 + n
    · simp [h]; omega
    · simp [h]; omega

theorem countP_of_keys_eq_range' {number : α → ℕ} {t : Table number} {n m : ℕ}
    (h : t.rows.map number = range' 1 n) {p : α → Bool}
    (hp : ∀ a ∈ t, p a ↔ m < number a) : t.rows.countP p = n - m := by
  rw [← countP_range' m n, ← h, countP_map]
  apply countP_congr
  intro a ha
  simpa using hp a ha

end Table
end Athena.Lib
