/-
# Runs of a labelled transition system

A system is given by a step relation `step : S -> L -> S -> Prop`.  A `Run` keeps, besides
its two ends, the list of the steps taken, each with the state it was taken in, so that a
statement can speak of every state a run goes through and of every step of it.

Three rules are what the rest of the development uses.

* `Run.invariant`: what holds at the start and is kept by every step holds in every state.
* `Run.guarded_iff`: if a step from a good state leads to a good state exactly when it meets
  a guard, then a run stays good exactly when all its steps meet the guard.
* `Run.last_iff_guarded`: if moreover no step leads from a bad state to a good one, then the
  last state of a run is good exactly when all its steps meet the guard.

Where the steps of a run show something, `Run.history_invariant` relates the state to all that
was shown so far.
-/
import Mathlib.Logic.Relation

namespace Runs

variable {S L : Type*} {step : S → L → S → Prop}

/-! ## 1. Runs -/

/-- `Run step s₀ tr s`: from `s₀` the steps recorded in `tr`, in order, lead to `s`.  Each
entry of `tr` is the label of a step and the state it was taken in. -/
inductive Run (step : S → L → S → Prop) (s₀ : S) : List (S × L) → S → Prop
  | nil : Run step s₀ [] s₀
  | snoc {tr : List (S × L)} {s s' : S} {l : L} :
      Run step s₀ tr s → step s l s' → Run step s₀ (tr ++ [(s, l)]) s'

/-- The states a run goes through, its last one included, satisfy `P`. -/
def Always (P : S → Prop) (tr : List (S × L)) (s : S) : Prop := (∀ p ∈ tr, P p.1) ∧ P s

/-- Every step of a run meets the guard `G` in the state it is taken in. -/
def Guarded (G : S → L → Prop) (tr : List (S × L)) : Prop := ∀ p ∈ tr, G p.1 p.2

@[simp] theorem guarded_nil {G : S → L → Prop} : Guarded G [] := by simp [Guarded]

@[simp] theorem guarded_snoc {G : S → L → Prop} {tr : List (S × L)} {s : S} {l : L} :
    Guarded G (tr ++ [(s, l)]) ↔ Guarded G tr ∧ G s l := by
  simp only [Guarded, List.mem_append, List.mem_singleton]
  constructor
  · intro h
    exact ⟨fun p hp => h p (Or.inl hp), h (s, l) (Or.inr rfl)⟩
  · rintro ⟨h, hl⟩ p (hp | rfl)
    · exact h p hp
    · exact hl

@[simp] theorem guarded_cons {G : S → L → Prop} {tr : List (S × L)} {s : S} {l : L} :
    Guarded G ((s, l) :: tr) ↔ G s l ∧ Guarded G tr := by
  simp [Guarded]

theorem always_snoc {P : S → Prop} {tr : List (S × L)} {s s' : S} {l : L} :
    Always P (tr ++ [(s, l)]) s' ↔ Always P tr s ∧ P s' := by
  simp only [Always, List.mem_append, List.mem_singleton]
  constructor
  · rintro ⟨h, hs'⟩
    exact ⟨⟨fun p hp => h p (Or.inl hp), h (s, l) (Or.inr rfl)⟩, hs'⟩
  · rintro ⟨⟨h, hs⟩, hs'⟩
    refine ⟨?_, hs'⟩
    rintro p (hp | rfl)
    · exact h p hp
    · exact hs

/-- Each entry of a run is a step that was taken. -/
theorem Run.step_of_mem {s₀ s s₁ : S} {l : L} {tr : List (S × L)} (h : Run step s₀ tr s)
    (hmem : (s₁, l) ∈ tr) : ∃ s₂, step s₁ l s₂ := by
  induction h with
  | nil => cases hmem
  | @snoc tr s s' l' _ hs ih =>
    rw [List.mem_append, List.mem_singleton] at hmem
    rcases hmem with hmem | heq
    · exact ih hmem
    · cases heq
      exact ⟨s', hs⟩

/-- Each entry of a run is a step that was taken after a part of it. -/
theorem Run.run_of_mem {s₀ s s₁ : S} {l : L} {tr : List (S × L)} (h : Run step s₀ tr s)
    (hmem : (s₁, l) ∈ tr) : ∃ tr₁, Run step s₀ tr₁ s₁ := by
  induction h with
  | nil => cases hmem
  | @snoc tr s s' l' hr _ ih =>
    rw [List.mem_append, List.mem_singleton] at hmem
    rcases hmem with hmem | heq
    · exact ih hmem
    · cases heq
      exact ⟨tr, hr⟩

/-! ## 2. The invariant rules -/

/-- **The invariant rule.**  It yields the invariant in every state of the run, not only in
the last one. -/
theorem Run.invariant {I : S → Prop} {s₀ s : S} {tr : List (S × L)} (h₀ : I s₀)
    (hstep : ∀ s l s', I s → step s l s' → I s') (h : Run step s₀ tr s) : Always I tr s := by
  induction h with
  | nil => exact ⟨by simp, h₀⟩
  | snoc _ hs ih => exact always_snoc.mpr ⟨ih, hstep _ _ _ ih.2 hs⟩

/-- What is kept by every step that meets `G` holds in every state of a run of such steps. -/
theorem Run.invariant_of_guarded {I : S → Prop} {G : S → L → Prop} {s₀ s : S}
    {tr : List (S × L)} (h₀ : I s₀) (hstep : ∀ s l s', I s → G s l → step s l s' → I s')
    (h : Run step s₀ tr s) (hG : Guarded G tr) : Always I tr s := by
  induction h with
  | nil => exact ⟨by simp, h₀⟩
  | snoc _ hs ih =>
    obtain ⟨hG, hl⟩ := guarded_snoc.mp hG
    have halways := ih hG
    exact always_snoc.mpr ⟨halways, hstep _ _ _ halways.2 hl hs⟩

/-- **The guarded rule.**  `I` is an invariant of all steps.  Where `P` holds, a step keeps
it exactly when it meets `G`.  Then a run keeps `P` throughout exactly when each of its
steps meets `G`. -/
theorem Run.guarded_iff {I P : S → Prop} {G : S → L → Prop} {s₀ s : S} {tr : List (S × L)}
    (hI₀ : I s₀) (hP₀ : P s₀) (hI : ∀ s l s', I s → step s l s' → I s')
    (hP : ∀ s l s', I s → P s → step s l s' → (P s' ↔ G s l)) (h : Run step s₀ tr s) :
    Always P tr s ↔ Guarded G tr := by
  induction h with
  | nil => exact ⟨fun _ => guarded_nil, fun _ => ⟨by simp, hP₀⟩⟩
  | @snoc tr s s' l hr hs ih =>
    have hinv : I s := (hr.invariant hI₀ hI).2
    rw [always_snoc, guarded_snoc, ih]
    constructor
    · rintro ⟨hg, hp'⟩
      exact ⟨hg, (hP s l s' hinv (ih.mpr hg).2 hs).mp hp'⟩
    · rintro ⟨hg, hl⟩
      exact ⟨hg, (hP s l s' hinv (ih.mpr hg).2 hs).mpr hl⟩

/-- **The guarded rule for the last state.**  A step leads to `P` exactly when it starts in `P`
and meets `G`: what was lost does not come back. -/
theorem Run.last_iff_guarded {I P : S → Prop} {G : S → L → Prop} {s₀ s : S} {tr : List (S × L)}
    (hI₀ : I s₀) (hP₀ : P s₀) (hI : ∀ s l s', I s → step s l s' → I s')
    (hP : ∀ s l s', I s → step s l s' → (P s' ↔ P s ∧ G s l)) (h : Run step s₀ tr s) :
    P s ↔ Guarded G tr := by
  induction h with
  | nil => exact iff_of_true hP₀ guarded_nil
  | @snoc tr s s' l hr hs ih =>
    have hinv : I s := (hr.invariant hI₀ hI).2
    rw [guarded_snoc, ← ih]
    exact hP s l s' hinv hs

/-! ## 3. What a run shows -/

/-- What the steps of a run show, in order. -/
def history {O : Type*} (obs : S → L → List O) (tr : List (S × L)) : List O :=
  tr.flatMap fun p => obs p.1 p.2

section History

variable {O : Type*} {obs : S → L → List O}

@[simp] theorem history_nil : history obs [] = [] := rfl

@[simp] theorem history_snoc {tr : List (S × L)} {s : S} {l : L} :
    history obs (tr ++ [(s, l)]) = history obs tr ++ obs s l := by
  simp [history]

/-- Where every step shows part of what it shows otherwise, so does the run. -/
theorem history_sublist {obs' : S → L → List O} {tr : List (S × L)}
    (h : Guarded (fun s l => (obs s l).Sublist (obs' s l)) tr) :
    (history obs tr).Sublist (history obs' tr) := by
  induction tr with
  | nil => exact List.Sublist.refl []
  | cons p tr ih =>
    obtain ⟨hp, htr⟩ := guarded_cons.mp h
    simp only [history, List.flatMap_cons]
    exact hp.append (ih htr)

theorem history_filter (f : O → Bool) (tr : List (S × L)) :
    (history obs tr).filter f = history (fun s l => (obs s l).filter f) tr :=
  List.filter_flatMap

/-- **The history rule.**  What holds at the start, where nothing was shown, and is kept by every
step together with what it shows, holds of the last state and all that was shown. -/
theorem Run.history_invariant {R : S → List O → Prop} {s₀ s : S} {tr : List (S × L)}
    (h₀ : R s₀ []) (hstep : ∀ s l s' os, R s os → step s l s' → R s' (os ++ obs s l))
    (h : Run step s₀ tr s) : R s (history obs tr) := by
  induction h with
  | nil => exact h₀
  | snoc _ hs ih =>
    rw [history_snoc]
    exact hstep _ _ _ _ ih hs

end History

end Runs
