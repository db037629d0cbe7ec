import Mathlib.Data.List.Forall2
import Mathlib.Data.List.Infix

/-!
# Programs that call their environment

A program is a tree of calls: at every node it makes a call and goes on with the
reply, whatever that is.  So a statement about a program holds for every behaviour of
the environment.

The history of a program is the list of its calls with their replies, oldest first.
`Program.Guards P Q p h` says of a program `p` that is started after the history `h`
that it makes a call only when `P` allows it after the history so far, and that `Q`
holds of the final history and the result.
-/

namespace Athena.Lib

/-- A program over the calls `C`, whose replies have the types `R`. -/
inductive Program (C : Type) (R : C → Type) (ε α : Type) : Type
  | pure (a : α)
  | fail (e : ε)
  | call (c : C) (next : R c → Program C R ε α)

namespace Program

variable {C : Type} {R : C → Type} {ε α β : Type}

abbrev Entry (R : C → Type) : Type := (c : C) × R c

def bind : Program C R ε α → (α → Program C R ε β) → Program C R ε β
  | .pure a, f => f a
  | .fail e, _ => .fail e
  | .call c next, f => .call c fun r => (next r).bind f

instance : Monad (Program C R ε) where
  pure := .pure
  bind := .bind

def ask (c : C) : Program C R ε (R c) := .call c .pure

def attempt : Program C R ε α → Program C R ε (Except ε α)
  | .pure a => .pure (.ok a)
  | .fail e => .pure (.error e)
  | .call c next => .call c fun r => (next r).attempt

def ofExcept : Except ε α → Program C R ε α
  | .ok a => .pure a
  | .error e => .fail e

def result? : Program C R ε α → Option (Except ε α)
  | .pure a => some (.ok a)
  | .fail e => some (.error e)
  | .call _ _ => none

variable {p : Program C R ε α} {c : C}

theorem result?_eq_some {x : Except ε α} : p.result? = some x ↔ p = ofExcept x := by
  cases p <;> cases x <;> simp [result?, ofExcept]

/-- What a program ends with when the environment has one answer to every call. -/
def eval (answer : (c : C) → R c) : Program C R ε α → Except ε α
  | .pure a => .ok a
  | .fail e => .error e
  | .call c next => eval answer (next (answer c))

theorem eval_bind (answer : (c : C) → R c) (f : α → Program C R ε β) :
    (p >>= f).eval answer = p.eval answer >>= fun a => (f a).eval answer := by
  induction p with
  | pure => rfl
  | fail => rfl
  | call c _ ih => exact ih (answer c)

theorem eval_ofExcept (answer : (c : C) → R c) (x : Except ε α) : (ofExcept x).eval answer = x := by
  cases x <;> rfl

def deferring (p : Program C R ε α) (c : C) : Program C R ε α := do
  let result ← p.attempt
  let _ ← ask c
  ofExcept result

def each {γ : Type} (f : γ → Program C R ε α) : List γ → Program C R ε (List α)
  | [] => .pure []
  | c :: l => do
      let a ← f c
      let as ← each f l
      Pure.pure (a :: as)

/-! ## Guarded calls -/

variable {P : List (Entry R) → C → Prop} {Q Q' : List (Entry R) → Except ε α → Prop}
  {T : List (Entry R) → Except ε β → Prop} {h : List (Entry R)} {x : Except ε α}
  {f : α → Program C R ε β}

/-- After the history `h`, every call of the program is allowed by `P`, and `Q` holds
at its end. -/
def Guards (P : List (Entry R) → C → Prop) (Q : List (Entry R) → Except ε α → Prop) :
    Program C R ε α → List (Entry R) → Prop
  | .pure a, h => Q h (.ok a)
  | .fail e, h => Q h (.error e)
  | .call c next, h => P h c ∧ ∀ r, Guards P Q (next r) (h ++ [⟨c, r⟩])

@[simp] theorem guards_pure {a : α} : Guards P Q (Pure.pure a) h ↔ Q h (.ok a) := Iff.rfl

@[simp] theorem guards_fail {e : ε} : Guards P Q (.fail e) h ↔ Q h (.error e) := Iff.rfl

@[simp] theorem guards_ask {Q : List (Entry R) → Except ε (R c) → Prop} :
    Guards P Q (ask c) h ↔ P h c ∧ ∀ r, Q (h ++ [⟨c, r⟩]) (.ok r) := Iff.rfl

theorem guards_of_forall (hP : ∀ h c, P h c) (hQ : ∀ h r, Q h r) : Guards P Q p h := by
  induction p generalizing h with
  | pure => exact hQ h _
  | fail => exact hQ h _
  | call c _ ih => exact ⟨hP h c, fun r => ih r⟩

/-- The rule of consequence. -/
theorem Guards.conseq (hp : Guards P Q p h) (hQ : ∀ h' r, h <+: h' → Q h' r → Q' h' r) :
    Guards P Q' p h := by
  induction p generalizing h with
  | pure a => exact hQ h (.ok a) (List.prefix_refl h) hp
  | fail e => exact hQ h (.error e) (List.prefix_refl h) hp
  | call c _ ih =>
    refine ⟨hp.1, fun r => ih r (hp.2 r) fun h' r' hh' => hQ h' r' ?_⟩
    exact (List.prefix_append h [⟨c, r⟩]).trans hh'

/-- The rule of sequence, as an equivalence. -/
theorem guards_bind : Guards P T (p >>= f) h ↔
      Guards P (fun h' r => match r with
        | .ok a => Guards P T (f a) h'
        | .error e => T h' (.error e)) p h := by
  induction p generalizing h with
  | pure => rfl
  | fail => rfl
  | call _ _ ih => exact and_congr_right fun _ => forall_congr' fun r => ih r

theorem Guards.bind (hp : Guards P Q p h)
    (hok : ∀ h' a, h <+: h' → Q h' (.ok a) → Guards P T (f a) h')
    (herr : ∀ h' e, h <+: h' → Q h' (.error e) → T h' (.error e)) : Guards P T (p >>= f) h := by
  refine guards_bind.mpr (hp.conseq fun h' r hh' hr => ?_)
  cases r with
  | ok a => exact hok h' a hh' hr
  | error e => exact herr h' e hh' hr

theorem guards_ask_bind {f : R c → Program C R ε β} :
    Guards P T (ask c >>= f) h ↔ P h c ∧ ∀ r, Guards P T (f r) (h ++ [⟨c, r⟩]) := Iff.rfl

theorem guards_map {f : α → β} :
    Guards P T (f <$> p) h ↔ Guards P (fun h' r => T h' (r.map f)) p h := by
  induction p generalizing h with
  | pure => rfl
  | fail => rfl
  | call _ _ ih => exact and_congr_right fun _ => forall_congr' fun r => ih r

theorem guards_attempt {Q : List (Entry R) → Except ε (Except ε α) → Prop} :
    Guards P Q p.attempt h ↔ Guards P (fun h' r => Q h' (.ok r)) p h := by
  induction p generalizing h with
  | pure => rfl
  | fail => rfl
  | call _ _ ih => exact and_congr_right fun _ => forall_congr' fun r => ih r

@[simp] theorem guards_ofExcept : Guards P Q (ofExcept x) h ↔ Q h x := by
  cases x <;> rfl

theorem guards_ofExcept_bind : Guards P T (ofExcept x >>= f) h ↔
      (∀ a, x = .ok a → Guards P T (f a) h) ∧ ∀ e, x = .error e → T h (.error e) := by
  cases x with
  | ok a => exact ⟨fun hf => ⟨by rintro _ ⟨rfl⟩; exact hf, nofun⟩, fun hf => hf.1 a rfl⟩
  | error e => exact ⟨fun hf => ⟨nofun, by rintro _ ⟨rfl⟩; exact hf⟩, fun hf => hf.2 e rfl⟩

/-- A deferred call is made whatever happened before. -/
theorem guards_deferring : Guards P Q (p.deferring c) h ↔
      Guards P (fun h' r => P h' c ∧ ∀ reply, Q (h' ++ [⟨c, reply⟩]) r) p h := by
  rw [deferring, guards_bind, guards_attempt]
  simp only [guards_bind, guards_ask, guards_ofExcept]

/-! ## Values that are returned -/

/-- After the history `h`, every call of the program is allowed by `P`, and `Q` holds of every
value that it returns.  Nothing is said of its failures.  As a structure it is not unfolded
when the program is long. -/
structure Yields (P : List (Entry R) → C → Prop) (p : Program C R ε α) (h : List (Entry R))
    (Q : List (Entry R) → α → Prop) : Prop where
  guarded : Guards P (fun h' r => ∀ a, r = .ok a → Q h' a) p h

section Yields
variable {Q : List (Entry R) → α → Prop} {Q' : List (Entry R) → β → Prop}

theorem yields_pure {a : α} (hQ : Q h a) : Yields P (Pure.pure a : Program C R ε α) h Q := by
  refine ⟨guards_pure.mpr ?_⟩
  rintro _ ⟨rfl⟩
  exact hQ

theorem yields_fail {e : ε} : Yields P (.fail e : Program C R ε α) h Q := by
  refine ⟨guards_fail.mpr fun a ha => ?_⟩
  cases ha

theorem yields_ask_bind {c : C} {f : R c → Program C R ε β} (hc : P h c)
    (hf : ∀ r, Yields P (f r) (h ++ [⟨c, r⟩]) Q') : Yields P (ask c >>= f) h Q' :=
  ⟨guards_ask_bind.mpr ⟨hc, fun r => (hf r).guarded⟩⟩

theorem yields_ofExcept (hQ : ∀ a, x = .ok a → Q h a) :
    Yields P (ofExcept x) h Q := ⟨guards_ofExcept.mpr hQ⟩

theorem yields_ofExcept_bind (hf : ∀ a, x = .ok a → Yields P (f a) h Q') :
    Yields P (ofExcept x >>= f) h Q' := by
  refine ⟨guards_ofExcept_bind.mpr ⟨fun a ha => (hf a ha).guarded, fun e _ b hb => ?_⟩⟩
  cases hb

variable {p : Program C R ε α}

theorem Yields.conseq {Q₁ : List (Entry R) → α → Prop} (hp : Yields P p h Q)
    (hQ : ∀ h' a, h <+: h' → Q h' a → Q₁ h' a) : Yields P p h Q₁ :=
  ⟨hp.guarded.conseq fun h' _ hh' hr a ha => hQ h' a hh' (hr a ha)⟩

theorem Yields.bind (hp : Yields P p h Q)
    (hf : ∀ h' a, h <+: h' → Q h' a → Yields P (f a) h' Q') : Yields P (p >>= f) h Q' := by
  refine ⟨hp.guarded.bind (fun h' a hh' hQ => (hf h' a hh' (hQ a rfl)).guarded) ?_⟩
  intro h' e _ _ b hb
  cases hb

theorem Yields.attempt_bind {f : Except ε α → Program C R ε β} (hp : Yields P p h Q)
    (hok : ∀ h' a, h <+: h' → Q h' a → Yields P (f (.ok a)) h' Q')
    (herror : ∀ h' e, h <+: h' → Yields P (f (.error e)) h' Q') :
    Yields P (p.attempt >>= f) h Q' := by
  have hattempt : Yields P p.attempt h fun h' x => ∀ a, x = .ok a → Q h' a := by
    refine ⟨guards_attempt.mpr (hp.guarded.conseq fun h' r _ hr x hx a ha => ?_)⟩
    cases hx
    exact hr a ha
  refine hattempt.bind fun h' x hh' hQ => ?_
  cases x with
  | ok a => exact hok h' a hh' (hQ a rfl)
  | error e => exact herror h' e hh'

/-- The rule of a loop over a list. -/
theorem yields_each {γ : Type} {f : γ → Program C R ε α} {T : List (Entry R) → γ → α → Prop}
    (hmono : ∀ {h h' c a}, h <+: h' → T h c a → T h' c a)
    (hf : ∀ h c, Yields P (f c) h fun h' a => T h' c a) (l : List γ) :
    Yields P (each f l) h fun h' as => List.Forall₂ (T h') l as := by
  induction l generalizing h with
  | nil => exact yields_pure .nil
  | cons c l ih =>
    refine (hf h c).bind fun h' a _ ha => ih.bind fun h'' as hh'' has => yields_pure ?_
    exact .cons (hmono hh'' ha) has

theorem Yields.guards (hp : Yields P p h Q) :
    Guards P (fun _ _ => True) p h := hp.guarded.conseq fun _ _ _ _ => trivial

end Yields

end Program
end Athena.Lib
