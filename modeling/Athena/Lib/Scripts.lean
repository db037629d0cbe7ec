import Athena.Lib.Turns

/-!
# Scripts of interleavings

An interleaving can be written down act by act.  An act is a function on worlds that leads
from reachable worlds to reachable worlds, so what a script of acts leads to can be
computed and is reachable.  A call that the pool does not serve now waits: the act leaves
the world as it is.
-/

namespace Athena.Lib
namespace Pool

variable {σ C : Type} {R : C → Type} {ε : Type} {S : Pool σ C R ε} {w : World σ R ε}

variable (S)

structure Responder where
  answer : σ → (c : C) → Option (R c × σ)
  lawful : ∀ {s c r s'}, answer s c = some (r, s') → S.serves s c r s'

/-- A function on worlds that keeps to the steps of the pool. -/
structure Act where
  run : World σ R ε → World σ R ε
  reachable : ∀ {w}, S.Reachable w → S.Reachable (run w)

variable {S}

def Responder.serve (o : S.Responder) (i : ℕ) (w : World σ R ε) : World σ R ε :=
  match w.turns i with
  | some (.call c next) =>
    match o.answer w.shared c with
    | some (r, s) =>
      ⟨s, Function.update w.turns i (some (next r)), w.log ++ [⟨some (i, ⟨c, r⟩), w.shared, s⟩]⟩
    | none => w
  | _ => w

theorem Responder.reachable_serve (o : S.Responder) (i : ℕ) (h : S.Reachable w) :
    S.Reachable (o.serve i w) := by
  unfold Responder.serve
  split
  · rename_i c next running
    split
    · rename_i r s hanswer
      exact h.tail (.serve i r s running (o.lawful hanswer))
    · exact h
  · exact h

namespace Act

def start (i : ℕ) (p : Program C R ε Unit) (starts : S.starts i p) : S.Act where
  run w := w.begin i p
  reachable h := h.begin starts

/-- A turn makes up to `n` calls. -/
def calls (o : S.Responder) (i : ℕ) : ℕ → S.Act
  | 0 => ⟨id, id⟩
  | n + 1 =>
    { run := fun w => (calls o i n).run (o.serve i w)
      reachable := fun h => (calls o i n).reachable (o.reachable_serve i h) }

def drift (f : σ → Option σ) (drifts : ∀ {s s'}, f s = some s' → S.drifts s s') : S.Act where
  run w :=
    match f w.shared with
    | some s => { w with shared := s, log := w.log ++ [⟨none, w.shared, s⟩] }
    | none => w
  reachable {w} h := by
    split
    · rename_i s hs
      exact h.tail (.drift s (drifts hs))
    · exact h

end Act

def script (acts : List S.Act) : World σ R ε := acts.foldl (fun w act => act.run w) S.initial

/-- What a script leads to is reachable. -/
theorem reachable_script (acts : List S.Act) : S.Reachable (script acts) := by
  suffices h : ∀ w : World σ R ε, S.Reachable w →
      S.Reachable (acts.foldl (fun w act => act.run w) w) from h _ .refl
  intro w hw
  induction acts generalizing w with
  | nil => exact hw
  | cons act _ ih => exact ih _ (act.reachable hw)

theorem split_at_first {α : Type} {l : List α} {p : α → Bool} (h : l.any p) :
    ∃ d, l = l.takeWhile (fun a => !p a) ++ d :: (l.dropWhile fun a => !p a).tail ∧ p d := by
  induction l with
  | nil => simp at h
  | cons a l ih =>
    by_cases ha : p a
    · exact ⟨a, by simp [ha], ha⟩
    · obtain ⟨d, hl, hd⟩ := ih (by simpa [ha] using h)
      refine ⟨d, ?_, hd⟩
      simp only [ha, Bool.not_false, List.takeWhile_cons_of_pos, List.dropWhile_cons_of_pos,
        List.cons_append, List.cons.injEq, true_and]
      exact hl

end Pool
end Athena.Lib
