/-
# Programs with a state that survives an exception

`EStateM E S` is a program over a state `S` that may throw an `E`; as in C++, what it did to
the state before the throw stays done.  Here are the three things the models need of it
beyond the core library: how a sequence can end, running a program on one component of a
larger state, and catching.

`Ends x s Q R` says how the program `x` ends from `s`: with a result and a state that satisfy `Q`,
or with an exception and a state that satisfy `R`.  It is a weakest precondition with two ways to
end, and the `ends_` rules compute it: a goal about a program becomes one about its parts, without a
case split on what they return.  Both ways are needed throughout.  A handler runs in the state that
the exception left behind, and so does every destructor on the way to it.

`zoom` runs a program on a component, given how to get and to set it.  It needs no laws of these,
since all it is used for is to say what becomes of the component; the rules give back the set of
what the program made of it.

A handler is `tryCatch`, whose rule gives it the state at the throw; to change an exception on its
way, as a `noexcept` function does, is a function on exceptions, and leaves the state alone.

Nothing is claimed about programs that do not end: a program in `EStateM` is a function.
-/
import Mathlib.Logic.Basic

namespace Stateful

variable {E S T α β : Type}

/-- A sequence that returned: both parts returned. -/
theorem run_bind_eq_ok {x : EStateM E S α} {f : α → EStateM E S β} {s s'' : S} {b : β} :
    (x >>= f).run s = .ok b s'' ↔
      ∃ a s', x.run s = .ok a s' ∧ (f a).run s' = .ok b s'' := by
  rw [EStateM.run_bind]
  cases hx : x.run s with
  | ok a s' => simp [and_assoc]
  | error e s' => simp

/-- A value that was mapped. -/
theorem run_map_eq_ok {x : EStateM E S α} {f : α → β} {s s' : S} {b : β} :
    (f <$> x).run s = .ok b s' ↔ ∃ a, x.run s = .ok a s' ∧ f a = b := by
  rw [← bind_pure_comp, run_bind_eq_ok]
  constructor
  · rintro ⟨a, s'', hx, hpure⟩
    cases hpure
    exact ⟨a, hx, rfl⟩
  · rintro ⟨a, hx, rfl⟩
    exact ⟨a, s', hx, rfl⟩

theorem run_get_bind {f : S → EStateM E S β} {s : S} : (get >>= f).run s = (f s).run s := rfl

/-- A program whose value is known returned in some state. -/
theorem exists_of_run'_eq_some {x : EStateM E S α} {s : S} {a : α} (h : x.run' s = some a) :
    ∃ s', x.run s = .ok a s' := by
  unfold EStateM.run' at h
  cases hx : x.run s with
  | ok b s' =>
    rw [hx] at h
    cases h
    exact ⟨s', rfl⟩
  | error e s' =>
    rw [hx] at h
    cases h

/-- A `try .. catch` whose handler throws: it returns just what the program did. -/
theorem run_tryCatch_eq_ok {x : EStateM E S α} {f : E → EStateM E S α}
    (hf : ∀ e s, ∃ e' s', (f e).run s = .error e' s') {s s' : S} {a : α} :
    (tryCatch x f).run s = .ok a s' ↔ x.run s = .ok a s' := by
  simp only [EStateM.run, tryCatch, tryCatchThe, MonadExceptOf.tryCatch]
  delta EStateM.tryCatch
  cases hx : x s with
  | ok b s₁ => rfl
  | error e s₁ =>
    obtain ⟨e', s₂, hthrow⟩ := hf e s₁
    constructor
    · intro h
      have hrun : (f e).run s₁ = .ok a s' := h
      rw [hthrow] at hrun
      cases hrun
    · intro h
      cases h

/-! ## 1. A program on one component of the state -/

/-- Run `x` on the component that `get` reads and `put` writes. -/
def zoom (get : S → T) (put : S → T → S) (x : EStateM E T α) : EStateM E S α := fun s =>
  match x (get s) with
  | .ok a t => .ok a (put s t)
  | .error e t => .error e (put s t)

theorem run_zoom (get : S → T) (put : S → T → S) (x : EStateM E T α) (s : S) :
    (zoom get put x).run s =
      match x.run (get s) with
      | .ok a t => .ok a (put s t)
      | .error e t => .error e (put s t) := rfl

/-! ## 2. Changing an exception -/

variable {E' : Type}

/-- An exception that leaves `x` becomes another one. -/
def mapError (g : E → E') (x : EStateM E S α) : EStateM E' S α := fun s =>
  match x s with
  | .ok a s' => .ok a s'
  | .error e s' => .error (g e) s'

theorem run_mapError_eq_ok {g : E → E'} {x : EStateM E S α} {s s' : S} {a : α} :
    (mapError g x).run s = .ok a s' ↔ x.run s = .ok a s' := by
  simp only [EStateM.run, mapError]
  cases x s with
  | ok b s₁ => simp
  | error e s₁ => simp

/-! ## 3. How a program can end

`Ends x s Q R`: run from `s`, the program `x` either returns with `Q` or throws with `R`.
The rules below take it apart along the structure of `x`. -/

/-- The outcome of `x` from `s` satisfies `Q` if it returned and `R` if it threw. -/
def Ends (x : EStateM E S α) (s : S) (Q : α → S → Prop) (R : E → S → Prop) : Prop :=
  match x.run s with
  | .ok a s' => Q a s'
  | .error e s' => R e s'

variable {Q : α → S → Prop} {R : E → S → Prop} {s : S}

theorem Ends.of_ok {x : EStateM E S α} {a : α} {s' : S} (h : Ends x s Q R)
    (hx : x.run s = .ok a s') : Q a s' := by
  simpa [Ends, hx] using h

theorem Ends.of_error {x : EStateM E S α} {e : E} {s' : S} (h : Ends x s Q R)
    (hx : x.run s = .error e s') : R e s' := by
  simpa [Ends, hx] using h

/-- A program whose end is known. -/
theorem ends_of_run_ok {x : EStateM E S α} {a : α} {s' : S} (hx : x.run s = .ok a s') :
    Ends x s Q R ↔ Q a s' := by
  unfold Ends
  rw [hx]

/-- The strongest postconditions. -/
theorem ends_run (x : EStateM E S α) (s : S) :
    Ends x s (fun a s' => x.run s = .ok a s') (fun e s' => x.run s = .error e s') := by
  unfold Ends
  cases x.run s with
  | ok a s' => rfl
  | error e s' => rfl

/-- Weaken both postconditions. -/
theorem Ends.mono {x : EStateM E S α} {Q' : α → S → Prop} {R' : E → S → Prop}
    (h : Ends x s Q R) (hq : ∀ a s', Q a s' → Q' a s') (hr : ∀ e s', R e s' → R' e s') :
    Ends x s Q' R' := by
  unfold Ends at h ⊢
  split at h
  · exact hq _ _ h
  · exact hr _ _ h

/-- Two facts about one program. -/
theorem Ends.and {x : EStateM E S α} {Q' : α → S → Prop} {R' : E → S → Prop} (h : Ends x s Q R)
    (h' : Ends x s Q' R') :
    Ends x s (fun a s' => Q a s' ∧ Q' a s') (fun e s' => R e s' ∧ R' e s') := by
  unfold Ends at h h' ⊢
  cases hx : x.run s with
  | ok a s' =>
    rw [hx] at h h'
    exact ⟨h, h'⟩
  | error e s' =>
    rw [hx] at h h'
    exact ⟨h, h'⟩

/-- Nothing is known of `x`: both postconditions must hold of whatever it does. -/
theorem ends_of_forall {x : EStateM E S α} (hq : ∀ a s', Q a s') (hr : ∀ e s', R e s') :
    Ends x s Q R := by
  unfold Ends
  split
  · exact hq _ _
  · exact hr _ _

@[simp] theorem ends_pure {a : α} : Ends (pure a : EStateM E S α) s Q R ↔ Q a s := Iff.rfl

@[simp] theorem ends_throw {e : E} : Ends (throw e : EStateM E S α) s Q R ↔ R e s := Iff.rfl

@[simp] theorem ends_get {Q : S → S → Prop} :
    Ends (get : EStateM E S S) s Q R ↔ Q s s := Iff.rfl

@[simp] theorem ends_modify {f : S → S} {Q : PUnit → S → Prop} :
    Ends (modify f : EStateM E S PUnit) s Q R ↔ Q ⟨⟩ (f s) := Iff.rfl

/-- The rule for a sequence. -/
@[simp] theorem ends_bind {x : EStateM E S α} {f : α → EStateM E S β} {Q : β → S → Prop} :
    Ends (x >>= f) s Q R ↔ Ends x s (fun a s' => Ends (f a) s' Q R) R := by
  simp only [Ends, EStateM.run_bind]
  cases x.run s <;> rfl

/-- The rule for `try .. catch`: the handler goes on from the state the exception left. -/
@[simp] theorem ends_tryCatch {x : EStateM E S α} {f : E → EStateM E S α} :
    Ends (tryCatch x f) s Q R ↔ Ends x s Q (fun e s' => Ends (f e) s' Q R) := by
  simp only [Ends, EStateM.run, tryCatch, tryCatchThe, MonadExceptOf.tryCatch]
  delta EStateM.tryCatch
  cases x s <;> rfl

/-- A sequence that throws in the end. -/
theorem ends_bind_throw {x : EStateM E S α} {e : E} {Q : β → S → Prop} :
    Ends (x >>= fun _ => throw e) s Q (fun _ _ => True) := by
  rw [ends_bind]
  exact ends_of_forall (fun _ _ => trivial) fun _ _ => trivial

@[simp] theorem ends_map {x : EStateM E S α} {f : α → β} {Q : β → S → Prop} :
    Ends (f <$> x) s Q R ↔ Ends x s (fun a s' => Q (f a) s') R := by
  rw [← bind_pure_comp, ends_bind]
  simp only [ends_pure]

@[simp] theorem ends_mapError {g : E → E'} {x : EStateM E S α} {R : E' → S → Prop} :
    Ends (mapError g x) s Q R ↔ Ends x s Q (fun e s' => R (g e) s') := by
  simp only [Ends, EStateM.run, mapError]
  cases x s <;> rfl

/-- The rule for a component: the postconditions are read through `put`. -/
theorem ends_zoom {get : S → T} {put : S → T → S} {x : EStateM E T α} :
    Ends (zoom get put x) s Q R ↔
      Ends x (get s) (fun a t => Q a (put s t)) (fun e t => R e (put s t)) := by
  simp only [Ends, run_zoom]
  cases x.run (get s) <;> rfl

end Stateful
