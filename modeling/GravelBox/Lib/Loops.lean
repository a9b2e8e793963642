/-
# Loops that may not end

A loop is given by one pass of its body, which goes on with another state or is done with a
result.  A body may have a loop in it, so that a pass may not end either: programs run on fuel,
and `Returns` says that some amount of it is enough.

Two rules are what the rest of the development uses.  `returns_iterate_iff` takes the first pass
off a loop (`returns_iterate_again` and `returns_iterate_done` if it is known), and
`not_returns_of_invariant` shows that a loop does not end.

Fuel is a device and not a part of what is said.  More of it makes no other result (`Steady`), so
"with enough fuel" is one statement and not one for each amount, and a program has at most one
result.  Loops in loops are where this needs care: a pass that has a loop in it needs fuel of its
own, and the whole needs the largest amount that any of its passes needs.  `Steady` is preserved by
everything programs are put together with, so that never has to be computed.

That a loop does not end is proved by what all its passes keep: a set of states from which no pass
is done and every pass that ends leads into the set again.  It is an induction on the fuel, made
once.

Nothing is claimed about how long a loop takes, and a pass that does not end is not told apart from
a loop that does not: neither returns.
-/
import Mathlib.Tactic.TypeStar

namespace Loops

variable {S A B : Type*}

/-! ## 1. Programs on fuel -/

/-- There is enough fuel for this result. -/
def Returns (run : Nat → S → Option A) (s : S) (a : A) : Prop := ∃ fuel, run fuel s = some a

/-- More fuel makes no other result. -/
def Steady (run : Nat → S → Option A) : Prop :=
  ∀ s a m n, m ≤ n → run m s = some a → run n s = some a

/-- There is one result at most. -/
theorem Steady.unique {run : Nat → S → Option A} (h : Steady run) {s : S} {a b : A}
    (ha : Returns run s a) (hb : Returns run s b) : a = b := by
  obtain ⟨m, hm⟩ := ha
  obtain ⟨n, hn⟩ := hb
  have hm' := h s a m _ (Nat.le_max_left m n) hm
  have hn' := h s b n _ (Nat.le_max_right m n) hn
  exact Option.some.inj (hm'.symm.trans hn')

/-- A program that needs no fuel. -/
theorem steady_const (f : S → Option A) : Steady fun _ => f :=
  fun _ _ _ _ _ h => h

@[simp] theorem returns_const_iff {f : S → Option A} {s : S} {a : A} :
    Returns (fun _ => f) s a ↔ f s = some a :=
  ⟨fun ⟨_, h⟩ => h, fun h => ⟨0, h⟩⟩

/-- A program that runs another one. -/
theorem Steady.map {T : Type*} {run : Nat → S → Option A} (h : Steady run) (g : T → S)
    (f : A → B) : Steady fun fuel t => (run fuel (g t)).map f := by
  intro t b m n hle hrun
  obtain ⟨a, ha, rfl⟩ := Option.map_eq_some_iff.mp hrun
  exact Option.map_eq_some_iff.mpr ⟨a, h _ a m n hle ha, rfl⟩

theorem returns_map_iff {T : Type*} {run : Nat → S → Option A} {g : T → S} {f : A → B} {t : T}
    {b : B} :
    Returns (fun fuel t => (run fuel (g t)).map f) t b ↔ ∃ a, Returns run (g t) a ∧ f a = b := by
  constructor
  · rintro ⟨fuel, hrun⟩
    obtain ⟨a, ha, hb⟩ := Option.map_eq_some_iff.mp hrun
    exact ⟨a, ⟨fuel, ha⟩, hb⟩
  · rintro ⟨a, ⟨fuel, ha⟩, hb⟩
    exact ⟨fuel, Option.map_eq_some_iff.mpr ⟨a, ha, hb⟩⟩

/-- One program after another. -/
theorem returns_bind_iff {run : Nat → S → Option A} {next : Nat → A → Option B} (h : Steady run)
    (h' : Steady next) {s : S} {b : B} :
    Returns (fun fuel s => (run fuel s).bind (next fuel)) s b ↔
      ∃ a, Returns run s a ∧ Returns next a b := by
  constructor
  · rintro ⟨fuel, hrun⟩
    obtain ⟨a, ha, hb⟩ := Option.bind_eq_some_iff.mp hrun
    exact ⟨a, ⟨fuel, ha⟩, fuel, hb⟩
  · rintro ⟨a, ⟨m, hm⟩, n, hn⟩
    exact ⟨max m n, Option.bind_eq_some_iff.mpr
      ⟨a, h s a m _ (Nat.le_max_left m n) hm, h' a b n _ (Nat.le_max_right m n) hn⟩⟩

/-! ## 2. Loops -/

/-- What a pass comes to. -/
inductive Pass (S A : Type*)
  | again (s : S)
  | done (a : A)

/-- The loop over a body. -/
def iterate (body : Nat → S → Option (Pass S A)) : Nat → S → Option A
  | 0, _ => none
  | fuel + 1, s =>
    match body fuel s with
    | none => none
    | some (.again s') => iterate body fuel s'
    | some (.done a) => some a

variable {body : Nat → S → Option (Pass S A)}

theorem Steady.iterate (h : Steady body) : Steady (iterate body) := by
  intro s a m
  induction m generalizing s with
  | zero =>
    intro n _ hrun
    cases hrun
  | succ m ih =>
    intro n hle hrun
    obtain ⟨n, rfl⟩ : ∃ k, n = k + 1 := ⟨n - 1, by omega⟩
    have hle' : m ≤ n := by omega
    rw [Loops.iterate] at hrun ⊢
    cases hpass : body m s with
    | none =>
      rw [hpass] at hrun
      cases hrun
    | some pass =>
      rw [hpass] at hrun
      rw [h s pass m n hle' hpass]
      cases pass with
      | again s' => exact ih s' n hle' hrun
      | done b => exact hrun

/-- **The first pass of a loop.** -/
theorem returns_iterate_iff (h : Steady body) {s : S} {a : A} :
    Returns (iterate body) s a ↔ Returns body s (.done a) ∨
      ∃ s', Returns body s (.again s') ∧ Returns (iterate body) s' a := by
  constructor
  · rintro ⟨_ | fuel, hrun⟩
    · cases hrun
    · rw [iterate] at hrun
      cases hpass : body fuel s with
      | none =>
        rw [hpass] at hrun
        cases hrun
      | some pass =>
        rw [hpass] at hrun
        cases pass with
        | again s' => exact .inr ⟨s', ⟨fuel, hpass⟩, fuel, hrun⟩
        | done b =>
          cases hrun
          exact .inl ⟨fuel, hpass⟩
  · rintro (⟨fuel, hpass⟩ | ⟨s', ⟨m, hpass⟩, n, hrun⟩)
    · refine ⟨fuel + 1, ?_⟩
      rw [iterate, hpass]
    · refine ⟨max m n + 1, ?_⟩
      rw [iterate, h s _ m _ (Nat.le_max_left m n) hpass]
      exact h.iterate s' a n _ (Nat.le_max_right m n) hrun

/-- A first pass that goes on. -/
theorem returns_iterate_again (h : Steady body) {s s' : S} (hpass : Returns body s (.again s'))
    {a : A} : Returns (iterate body) s a ↔ Returns (iterate body) s' a := by
  rw [returns_iterate_iff h]
  constructor
  · rintro (hdone | ⟨s'', hagain, hrest⟩)
    · cases h.unique hpass hdone
    · cases h.unique hpass hagain
      exact hrest
  · intro hrest
    exact .inr ⟨s', hpass, hrest⟩

/-- A first pass that is the last one. -/
theorem returns_iterate_done (h : Steady body) {s : S} {b : A} (hpass : Returns body s (.done b))
    {a : A} : Returns (iterate body) s a ↔ a = b := by
  rw [returns_iterate_iff h]
  constructor
  · rintro (hdone | ⟨s'', hagain, -⟩)
    · cases h.unique hpass hdone
      rfl
    · cases h.unique hpass hagain
  · rintro rfl
    exact .inl hpass

/-- **A loop that does not end**: each pass from a state in `I` that ends goes on in `I`. -/
theorem not_returns_of_invariant {I : S → Prop}
    (hI : ∀ s pass, I s → Returns body s pass → ∃ s', pass = .again s' ∧ I s') {s : S} (hs : I s)
    (a : A) : ¬ Returns (iterate body) s a := by
  rintro ⟨fuel, hrun⟩
  induction fuel generalizing s with
  | zero => cases hrun
  | succ fuel ih =>
    rw [iterate] at hrun
    cases hpass : body fuel s with
    | none =>
      rw [hpass] at hrun
      cases hrun
    | some pass =>
      obtain ⟨s', rfl, hs'⟩ := hI s pass hs ⟨fuel, hpass⟩
      rw [hpass] at hrun
      exact ih hs' hrun

end Loops
