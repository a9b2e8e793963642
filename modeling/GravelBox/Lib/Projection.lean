/-
# Programs seen through a projection of their state

A projection `π : S -> T` shows part of a state.  A program `x` over `S` is mirrored by a
program `y` over `T` if `y`, run on what `π` shows, ends as `x` does, in what `π` shows of the
state `x` ends in: what `π` hides has no influence on what it shows.  The rules below follow
the structure of the programs.

This is the usual square, for programs that may throw.  An exception is a way of ending like any
other here, so it has to be the same exception, and what was done to the state before it counts on
both sides: a program that hides a change and then throws is mirrored only if the change is hidden
too.

It is a relation between two programs and a projection, at one state.  At one state, and not at all
of them, because a program often looks at what it has just read: the rule for a sequence asks for
the rest only at the states that the first part can end in, so that facts about these are at hand.

What it is for is noninterference.  That one of several participants is not disturbed by the others
is the statement that the program that serves all of them is mirrored, for each, by one that serves
only this one; and to prove it there is one lemma for each piece of the program, with no case split
on what the others do.

Nothing is claimed in the other direction: `y` may end in ways for which no state that is hidden
accounts, if there is none that `π` shows it from.
-/
import GravelBox.Lib.Stateful

namespace Stateful

variable {E S S' T T' α β : Type}

/-- The end of a program, its state seen through `π`. -/
def seen (π : S → T) : EStateM.Result E S α → EStateM.Result E T α
  | .ok a s => .ok a (π s)
  | .error e s => .error e (π s)

/-- From `s` on, `y` does on what `π` shows what `x` does. -/
def Mirrors (π : S → T) (x : EStateM E S α) (y : EStateM E T α) (s : S) : Prop :=
  y.run (π s) = seen π (x.run s)

/-- A program mirrors itself, seen as a whole. -/
theorem mirrors_id (x : EStateM E S α) (s : S) : Mirrors id x x s := by
  unfold Mirrors
  cases h : x.run s <;> exact h

section Rules

variable {π : S → T} {s : S}

theorem mirrors_pure (a : α) : Mirrors π (pure a : EStateM E S α) (pure a) s := rfl

theorem mirrors_throw (e : E) : Mirrors π (throw e : EStateM E S α) (throw e) s := rfl

theorem mirrors_modify {f : S → S} {g : T → T} (h : g (π s) = π (f s)) :
    Mirrors π (modify f : EStateM E S PUnit) (modify g) s :=
  congrArg (EStateM.Result.ok PUnit.unit) h

/-- The rule for a change of what `π` hides. -/
theorem mirrors_hidden {f : S → S} {x : EStateM E S α} {y : EStateM E T α} (hf : π (f s) = π s)
    (h : Mirrors π x y (f s)) : Mirrors π (modify f >>= fun _ => x) y s := by
  unfold Mirrors at h ⊢
  rw [← hf, h]
  rfl

/-- The rule for reading the state. -/
theorem mirrors_get_bind {f : S → EStateM E S α} {g : T → EStateM E T α}
    (h : Mirrors π (f s) (g (π s)) s) : Mirrors π (get >>= f) (get >>= g) s := by
  unfold Mirrors at h ⊢
  rw [EStateM.run_bind, EStateM.run_bind, EStateM.run_get, EStateM.run_get]
  exact h

/-- The rule for a sequence: the rest has to be mirrored in the states where the first part
can end. -/
theorem mirrors_bind {x : EStateM E S α} {y : EStateM E T α} {f : α → EStateM E S β}
    {g : α → EStateM E T β} (hx : Mirrors π x y s)
    (hf : Ends x s (fun a s' => Mirrors π (f a) (g a) s') fun _ _ => True) :
    Mirrors π (x >>= f) (y >>= g) s := by
  unfold Mirrors at hx ⊢
  rw [EStateM.run_bind, EStateM.run_bind, hx]
  cases h : x.run s with
  | ok a s' => exact hf.of_ok h
  | error e s' => rfl

/-- The same, where the rest is mirrored in every state. -/
theorem mirrors_bind_of_forall {x : EStateM E S α} {y : EStateM E T α} {f : α → EStateM E S β}
    {g : α → EStateM E T β} (hx : Mirrors π x y s) (hf : ∀ a s', Mirrors π (f a) (g a) s') :
    Mirrors π (x >>= f) (y >>= g) s :=
  mirrors_bind hx (ends_of_forall hf fun _ _ => trivial)

/-- The rule for a program on one component of the state. -/
theorem mirrors_zoom {get : S → S'} {put : S → S' → S} {get' : T → T'} {put' : T → T' → T}
    {ρ : S' → T'} {x : EStateM E S' α} {y : EStateM E T' α} (hget : get' (π s) = ρ (get s))
    (hput : ∀ u, put' (π s) (ρ u) = π (put s u)) (hx : Mirrors ρ x y (get s)) :
    Mirrors π (zoom get put x) (zoom get' put' y) s := by
  unfold Mirrors at hx ⊢
  rw [run_zoom, run_zoom, hget, hx]
  cases x.run (get s) with
  | ok a u => exact congrArg (EStateM.Result.ok a) (hput u)
  | error e u => exact congrArg (EStateM.Result.error e) (hput u)

end Rules

end Stateful
