import Mathlib.Data.List.Forall2

/-!
# Transactions that roll back

A transaction is a function into `Except`: an error carries no state, so what a
failing transaction wrote is gone.  `ensure` is a guard and `found` a lookup that
must succeed.  The lemmas below take a successful transaction apart, one
statement at a time, without unfolding the monad.
-/

namespace Athena.Lib

open Except List

variable {ε α β σ : Type} {f : α → Except ε β} {l : List α} {e : ε} {p : Prop} {a : α} {b : β}
  {l' : List β}

/-- Continue only when `p` holds. -/
def ensure (p : Prop) [Decidable p] (e : ε) : Except ε Unit := if p then .ok () else .error e

def found (o : Option α) (e : ε) : Except ε α :=
  match o with
  | some a => .ok a
  | none => .error e

@[simp] theorem ensure_eq_ok [Decidable p] {u : Unit} : ensure p e = .ok u ↔ p := by
  unfold ensure
  split <;> simp_all

@[simp] theorem ensure_eq_error [Decidable p] {e' : ε} : ensure p e = .error e' ↔ ¬p ∧ e = e' := by
  unfold ensure
  split <;> simp_all

theorem ensure_of [Decidable p] (h : p) (e : ε) : ensure p e = .ok () := by simp [h]

@[simp] theorem found_eq_ok {o : Option α} : found o e = .ok a ↔ o = some a := by
  cases o <;> simp [found]

@[simp] theorem found_some : found (some a) e = .ok a := rfl

@[simp] theorem found_none : found (none : Option α) e = .error e := rfl

@[simp] theorem bind_eq_ok {x : Except ε α} : (x >>= f) = .ok b ↔ ∃ a, x = .ok a ∧ f a = .ok b := by
  cases x with
  | error | ok => simp [bind, Except.bind]

theorem exists_ensure [Decidable p] {q : Unit → Prop} :
    (∃ u, ensure p e = .ok u ∧ q u) ↔ p ∧ q () := by
  simp only [ensure_eq_ok]
  exact ⟨fun ⟨_, h⟩ => h, fun h => ⟨(), h⟩⟩

theorem of_ensure [Decidable p] {f : Unit → Except ε β} (h : (ensure p e >>= f) = .ok b) :
    p ∧ f () = .ok b := exists_ensure.mp (bind_eq_ok.mp h)

@[simp] theorem bind_ok (a : α) (f : α → Except ε β) : (ok a >>= f) = f a := rfl

@[simp] theorem bind_error (e : ε) (f : α → Except ε β) :
    ((error e : Except ε α) >>= f) = .error e := rfl

@[simp] theorem map_eq_ok {x : Except ε α} {f : α → β} :
    (f <$> x) = .ok b ↔ ∃ a, x = .ok a ∧ f a = b := by
  cases x with
  | error | ok => simp [Functor.map, Except.map]

@[simp] theorem pure_eq_ok {b : α} : (pure a : Except ε α) = .ok b ↔ a = b := by
  simp [pure, Except.pure]

theorem pure_pair {c : α} {d : β} :
    (pure (a, b) : Except ε (α × β)) = .ok (c, d) ↔ a = c ∧ b = d := by
  rw [pure_eq_ok, Prod.mk.injEq]

/-- The rules that take a committed transaction apart. -/
theorem committed :
    (∀ {ε α β : Type} {x : Except ε α} {f : α → Except ε β} {b : β},
      (x >>= f) = .ok b ↔ ∃ a, x = .ok a ∧ f a = .ok b) ∧
    (∀ {ε : Type} {p : Prop} [Decidable p] {e : ε} {q : Unit → Prop},
      (∃ u, ensure p e = .ok u ∧ q u) ↔ p ∧ q ()) ∧
    (∀ {ε α : Type} {o : Option α} {e : ε} {a : α}, found o e = .ok a ↔ o = some a) ∧
    (∀ {ε α : Type} {a b : α}, (pure a : Except ε α) = .ok b ↔ a = b) ∧
    ∀ {α β : Type} {a c : α} {b d : β}, (a, b) = (c, d) ↔ a = c ∧ b = d :=
  ⟨bind_eq_ok, exists_ensure, found_eq_ok, pure_eq_ok, .of_eq (Prod.mk.injEq ..)⟩

/-- The rules that read a check as a proposition. -/
theorem check_iff : (∀ {a b : Bool}, (a && b) = true ↔ a = true ∧ b = true) ∧
    (∀ {a b : Bool}, (a || b) = true ↔ a = true ∨ b = true) ∧
    ∀ {p : Prop} [Decidable p], decide p = true ↔ p :=
  ⟨Bool.and_eq_true_iff, Bool.or_eq_true_iff, decide_eq_true_iff⟩

@[simp] theorem mapError_eq_ok {ε' : Type} {x : Except ε α} {f : ε → ε'} :
    x.mapError f = .ok a ↔ x = .ok a := by
  cases x with
  | ok => exact ⟨fun h => congrArg _ (ok.inj h), fun h => congrArg _ (ok.inj h)⟩
  | error => constructor <;> intro h <;> cases h

theorem mapError_ok {ε' : Type} {f : ε → ε'} (a : α) :
    (ok a : Except ε α).mapError f = .ok a := rfl

theorem cases_of_map_eq_map {f : α → β} {x y : Except ε α} (h : f <$> x = f <$> y) :
    (∃ e, x = .error e ∧ y = .error e) ∨ ∃ a b, x = .ok a ∧ y = .ok b ∧ f a = f b := by
  cases x <;> cases y <;> simp_all [Functor.map, Except.map]

theorem map_bind_congr {α' β' : Type} {x : Except ε α} {x' : Except ε α'} {f' : α' → Except ε β'}
    {g : α → α'} {k : β → β'} (hx : x.map g = x') (hf : ∀ a, (f a).map k = f' (g a)) :
    (x >>= f).map k = x' >>= f' := by
  subst hx
  cases x with
  | error => rfl
  | ok a => exact hf a

theorem map_bind_congr_right {γ : Type} {x : Except ε α} {f' : α → Except ε γ} {k : β → γ}
    (hf : ∀ a, x = .ok a → (f a).map k = f' a) : (x >>= f).map k = x >>= f' := by
  cases x with
  | error => rfl
  | ok a => exact hf a rfl

theorem map_foldlM_congr {σ' : Type} {f : σ → α → Except ε σ} {f' : σ' → β → Except ε σ'}
    {g : σ → σ'} {k : α → β} (hf : ∀ s, ∀ a ∈ l, (f s a).map g = f' (g s) (k a)) (s : σ) :
    (l.foldlM f s).map g = (l.map k).foldlM f' (g s) := by
  induction l generalizing s with
  | nil => rfl
  | cons a l ih =>
    simp only [map_cons, foldlM_cons]
    exact map_bind_congr (hf s a mem_cons_self)
      fun s => ih (fun s a ha => hf s a (mem_cons_of_mem _ ha)) s

theorem map_foldlM_congr_state {σ' : Type} {f : σ → α → Except ε σ} {f' : σ' → α → Except ε σ'}
    {g : σ → σ'} (hf : ∀ s, ∀ a ∈ l, (f s a).map g = f' (g s) a) (s : σ) :
    (l.foldlM f s).map g = l.foldlM f' (g s) := by
  simpa using map_foldlM_congr (k := id) hf s

/-- The rule of a loop that may fail. -/
theorem of_foldlM {P : σ → Prop} {f : σ → α → Except ε σ} {s s' : σ} (h : l.foldlM f s = .ok s')
    (hs : P s) (hf : ∀ s, ∀ a ∈ l, ∀ s', P s → f s a = .ok s' → P s') : P s' := by
  induction l generalizing s with
  | nil =>
    obtain rfl : s = s' := by simpa using h
    exact hs
  | cons a l ih =>
    simp only [foldlM_cons, bind_eq_ok] at h
    obtain ⟨t, ht, h⟩ := h
    exact ih h (hf s a mem_cons_self t hs ht)
      fun s a ha => hf s a (mem_cons_of_mem _ ha)

theorem forall₂_of_mapM (h : l.mapM f = .ok l') : Forall₂ (fun a b => f a = .ok b) l l' := by
  induction l generalizing l' with
  | nil =>
    obtain rfl : [] = l' := by simpa using h
    exact .nil
  | cons a l ih =>
    simp only [mapM_cons, bind_eq_ok, pure_eq_ok] at h
    obtain ⟨b, hb, l', hl', rfl⟩ := h
    exact .cons hb (ih hl')

/-- The results of a loop that did not fail. -/
theorem mem_of_mapM (h : l.mapM f = .ok l') : b ∈ l' ↔ ∃ a ∈ l, f a = .ok b := by
  have hall := forall₂_of_mapM h
  clear h
  induction hall with
  | nil => simp
  | cons hac _ ih =>
    simp only [mem_cons, exists_eq_or_imp, hac, ok.injEq, ih]
    exact or_congr_left eq_comm

theorem exists_of_forall₂ {R : α → β → Prop} (h : Forall₂ R l l') (ha : a ∈ l) :
    ∃ b ∈ l', R a b := by
  induction h with
  | nil => cases ha
  | @cons _ b _ _ hab _ ih =>
    rcases mem_cons.mp ha with rfl | ha
    · exact ⟨b, mem_cons_self, hab⟩
    · obtain ⟨b', hb', h'⟩ := ih ha
      exact ⟨b', mem_cons_of_mem b hb', h'⟩

theorem exists_of_mapM (h : l.mapM f = .ok l') (ha : a ∈ l) : ∃ b ∈ l', f a = .ok b :=
  exists_of_forall₂ (forall₂_of_mapM h) ha

theorem dite_eq_ok [Decidable p] {f : p → α} :
    (if h : p then ok (f h) else .error e) = .ok a ↔ ∃ h : p, f h = a := by
  split <;> simp_all

/-- A transaction as its caller sees it.  It commits with a result or fails with an error,
or the connection is lost, and then the caller does not know whether it was committed. -/
def Served {σ : Type} (x : Except ε (σ × α)) (lost : ε) (s : σ) (r : Except ε α) (s' : σ) : Prop :=
  (∃ a, x = .ok (s', a) ∧ (r = .ok a ∨ r = .error lost)) ∨
    (s' = s ∧ (r = .error lost ∨ ∃ e, x = .error e ∧ r = .error e))

theorem Served.cases {x : Except ε (σ × α)} {lost : ε} {s s' : σ} {r : Except ε α}
    (h : Served x lost s r s') : s' = s ∨ ∃ a, x = .ok (s', a) :=
  h.symm.imp And.left fun ⟨a, ha, _⟩ => ⟨a, ha⟩

/-- The result of a transaction and the state it leaves, when the connection holds. -/
def outcome {σ : Type} (x : Except ε (σ × α)) (s : σ) : Except ε α × σ :=
  match x with
  | .ok (s', a) => (.ok a, s')
  | .error e => (.error e, s)

theorem served_outcome (x : Except ε (σ × α)) (lost : ε) (s : σ) :
    Served x lost s (outcome x s).1 (outcome x s).2 := by
  cases x with
  | ok a => exact .inl ⟨a.2, rfl, .inl rfl⟩
  | error e => exact .inr ⟨rfl, .inr ⟨e, rfl, rfl⟩⟩

def commitsWith {ε α : Type} (x : Except ε α) (p : α → Bool) : Bool :=
  match x with
  | .ok a => p a
  | .error _ => false

theorem exists_of_commitsWith {ε α : Type} {x : Except ε α} {p : α → Bool}
    (h : commitsWith x p) : ∃ a, x = .ok a ∧ p a := by
  cases x with
  | ok a => exact ⟨a, rfl, h⟩
  | error => cases h

end Athena.Lib
