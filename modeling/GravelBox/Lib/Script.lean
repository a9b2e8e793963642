/-
# Programs that consult somebody, and the script of what they were told

A live program is told what it wants to know by somebody it talks to.  A scripted program takes it
from a script in its state.  `Scripted put I p x y s` says that where the live program `x` is run
from `s`, some script makes the scripted program `y` do the same, and it leaves in its state
whatever follows in the script.  `put` makes a state of `y` of a state of `x` and a script, and of
the ways to throw only those in `p` count.

Scripts form a monoid: what was told to one program and then to another is the product.  So the
rules below follow the structure of the programs, and `Run.scripted` the steps of a run.

That some script does it would say little of where the script comes from.  So the invariant of the
live program, `I s k`, is about its state and all that it was told so far: where the program
records what it is told, `I` can say that `k` is the record, and then the script of a run is what
is in the record at its end.

Nothing is claimed of who is consulted, who may say anything, nor of a program that throws in
another way than `p`: the scripted program may then have no counterpart for what was said last.
-/
import GravelBox.Lib.Projection
import GravelBox.Lib.Runs
import Mathlib.Algebra.Group.Defs
import Mathlib.Data.List.Forall2

namespace Stateful

variable {E S S' T T' α β M : Type} [Monoid M]

/-! ## 1. Programs -/

/-- From `s` on, after `k` was told, some script makes `y` do what `x` does; what follows in it
is left. -/
def Scripted (put : S → M → T) (I : S → M → Prop) (p : E → Prop) (x : EStateM E S α)
    (y : EStateM E T α) (s : S) : Prop :=
  ∀ k, I s k → Ends x s
    (fun a s' => ∃ m, I s' (k * m) ∧ ∀ rest, y.run (put s (m * rest)) = .ok a (put s' rest))
    (fun e s' => p e → ∃ m, I s' (k * m) ∧
      ∀ rest, y.run (put s (m * rest)) = .error e (put s' rest))

section Rules

variable {put : S → M → T} {I : S → M → Prop} {p : E → Prop} {s : S}

/-- A program that nobody is consulted in. -/
theorem scripted_of_mirrors {x : EStateM E S α} {y : EStateM E T α}
    (h : ∀ m, Mirrors (put · m) x y s)
    (hI : ∀ k, I s k → Ends x s (fun _ s' => I s' k) fun _ s' => I s' k) :
    Scripted put I p x y s := by
  intro k hs
  have hrun : ∀ rest, y.run (put s (1 * rest)) = seen (put · rest) (x.run s) := by
    intro rest
    rw [one_mul]
    exact h rest
  have hends := hI k hs
  rw [← mul_one k] at hends
  cases hx : x.run s with
  | ok a s' =>
    rw [hx] at hrun
    rw [ends_of_run_ok hx] at hends ⊢
    exact ⟨1, hends, hrun⟩
  | error e s' =>
    rw [hx] at hrun
    have hs' := hends.of_error hx
    unfold Ends
    rw [hx]
    exact fun _ => ⟨1, hs', hrun⟩

theorem scripted_pure (a : α) : Scripted put I p (pure a : EStateM E S α) (pure a) s :=
  scripted_of_mirrors (fun _ => mirrors_pure a) fun _ => id

theorem scripted_throw (e : E) : Scripted put I p (throw e : EStateM E S α) (throw e) s :=
  scripted_of_mirrors (fun _ => mirrors_throw e) fun _ => id

theorem scripted_modify {f : S → S} {g : T → T} (h : ∀ m, g (put s m) = put (f s) m)
    (hI : ∀ k, I s k → I (f s) k) :
    Scripted put I p (modify f : EStateM E S PUnit) (modify g) s :=
  scripted_of_mirrors (fun m => mirrors_modify (h m)) hI

/-- The rule for reading the state, of which the script does not matter. -/
theorem scripted_get_bind {f : S → EStateM E S α} {g : T → EStateM E T α}
    (hg : ∀ m, g (put s m) = g (put s 1)) (h : Scripted put I p (f s) (g (put s 1)) s) :
    Scripted put I p (get >>= f) (get >>= g) s := by
  intro k hs
  rw [ends_bind, ends_get]
  refine (h k hs).mono ?_ ?_
  · rintro a s' ⟨m, hs', hm⟩
    refine ⟨m, hs', fun rest => ?_⟩
    rw [run_get_bind, hg, hm]
  · intro e s' he hp
    obtain ⟨m, hs', hm⟩ := he hp
    refine ⟨m, hs', fun rest => ?_⟩
    rw [run_get_bind, hg, hm]

/-- The rule for a sequence: one script after the other. -/
theorem scripted_bind {x : EStateM E S α} {y : EStateM E T α} {f : α → EStateM E S β}
    {g : α → EStateM E T β} (hx : Scripted put I p x y s)
    (hf : ∀ a s', Scripted put I p (f a) (g a) s') :
    Scripted put I p (x >>= f) (y >>= g) s := by
  intro k hs
  rw [ends_bind]
  refine (hx k hs).mono ?_ ?_
  · rintro a s₁ ⟨m₁, hs₁, hm₁⟩
    refine (hf a s₁ (k * m₁) hs₁).mono ?_ ?_
    · rintro b s₂ ⟨m₂, hs₂, hm₂⟩
      rw [mul_assoc] at hs₂
      refine ⟨m₁ * m₂, hs₂, fun rest => ?_⟩
      rw [EStateM.run_bind, mul_assoc, hm₁]
      exact hm₂ rest
    · intro e s₂ he hp
      obtain ⟨m₂, hs₂, hm₂⟩ := he hp
      rw [mul_assoc] at hs₂
      refine ⟨m₁ * m₂, hs₂, fun rest => ?_⟩
      rw [EStateM.run_bind, mul_assoc, hm₁]
      exact hm₂ rest
  · intro e s₁ he hp
    obtain ⟨m₁, hs₁, hm₁⟩ := he hp
    refine ⟨m₁, hs₁, fun rest => ?_⟩
    rw [EStateM.run_bind, hm₁]

/-- The rule for a program on one component of the state. -/
theorem scripted_zoom {get : S → S'} {set : S → S' → S} {get' : T → T'} {set' : T → T' → T}
    {put' : S' → M → T'} {I' : S' → M → Prop} {x : EStateM E S' α} {y : EStateM E T' α}
    (hget : ∀ m, get' (put s m) = put' (get s) m)
    (hset : ∀ m m' u, set' (put s m) (put' u m') = put (set s u) m')
    (hI : ∀ k, I s k → I' (get s) k) (hI' : ∀ u k k', I s k → I' u k' → I (set s u) k')
    (hx : Scripted put' I' p x y (get s)) :
    Scripted put I p (zoom get set x) (zoom get' set' y) s := by
  intro k hs
  rw [ends_zoom]
  refine (hx k (hI k hs)).mono ?_ ?_
  · rintro a u ⟨m, hu, hm⟩
    refine ⟨m, hI' u k _ hs hu, fun rest => ?_⟩
    rw [run_zoom, hget, hm]
    simp only [hset]
  · intro e u he hp
    obtain ⟨m, hu, hm⟩ := he hp
    refine ⟨m, hI' u k _ hs hu, fun rest => ?_⟩
    rw [run_zoom, hget, hm]
    simp only [hset]

end Rules

end Stateful

namespace Runs

variable {S T L M : Type} [Monoid M]

/-! ## 2. Runs -/

/-- **The script of a run.**  If each step is one of the scripted system, for some script, then so
is each run, with the same labels, through the same states but for their scripts. -/
theorem Run.scripted {step : S → L → S → Prop} {step' : T → L → T → Prop} (put : S → M → T)
    (I : S → M → Prop) {s₀ s : S} {tr : List (S × L)} (hI₀ : I s₀ 1)
    (hstep : ∀ s l s' k, I s k → step s l s' →
      ∃ m, I s' (k * m) ∧ ∀ rest, step' (put s (m * rest)) l (put s' rest))
    (h : Run step s₀ tr s) :
    ∃ m, I s m ∧ ∀ rest, ∃ tr', Run step' (put s₀ (m * rest)) tr' (put s rest) ∧
      List.Forall₂ (fun e e' => ∃ m', e' = (put e.1 m', e.2)) tr tr' := by
  induction h with
  | nil => exact ⟨1, hI₀, fun rest => ⟨[], by rw [one_mul]; exact .nil, .nil⟩⟩
  | @snoc tr s s' l _ hs ih =>
    obtain ⟨m₁, hI, hm₁⟩ := ih
    obtain ⟨m₂, hI', hm₂⟩ := hstep s l s' m₁ hI hs
    refine ⟨m₁ * m₂, hI', fun rest => ?_⟩
    obtain ⟨tr', hrun, htr⟩ := hm₁ (m₂ * rest)
    refine ⟨tr' ++ [(put s (m₂ * rest), l)], ?_, List.rel_append htr (.cons ⟨_, rfl⟩ .nil)⟩
    rw [mul_assoc]
    exact hrun.snoc (hm₂ rest)

end Runs
