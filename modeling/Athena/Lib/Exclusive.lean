import Mathlib.Logic.Basic

/-!
# Exclusive holders

A relation `holds p k` between places and keys is exclusive when no key is held at
two places: a lock has one owner, an identifier names one row.  A change keeps the
relation exclusive when whatever it adds is added at one place, with keys that
nobody held.
-/

namespace Athena.Lib

def Exclusive {P K : Type} (holds : P → K → Prop) : Prop :=
  ∀ ⦃p q k⦄, holds p k → holds q k → p = q

namespace Exclusive

variable {P K : Type} {holds holds' : P → K → Prop}

/-- Keys that nobody held can be taken at one place. -/
theorem take (h : Exclusive holds) (p₀ : P)
    (hstep : ∀ p k, holds' p k → holds p k ∨ (p = p₀ ∧ ∀ q, ¬holds q k)) : Exclusive holds' := by
  intro p q k hp hq
  rcases hstep p k hp with hp | ⟨rfl, hfree⟩ <;> rcases hstep q k hq with hq | ⟨rfl, hfree'⟩
  · exact h hp hq
  · exact absurd hp (hfree' p)
  · exact absurd hq (hfree q)
  · rfl

end Exclusive
end Athena.Lib
