/-
# Computations that may fail

Rules for `Except`: a sequence that succeeded, a list converted element by element, and the
failures that a computation can end with.

A program in `Except` is a long `do` block with a dozen places where it may stop.  There are two
things one wants to know of it, and each has its own kind of rule.

* What it returned, if it returned.  `bind_eq_ok` takes a sequence apart into its steps, each of
  which succeeded, and `mapM_eq_ok` a conversion of a list into one of each element; with both in a
  simp set a block becomes a conjunction of what its steps say.
* What it can have thrown.  `FailsWith p x` says that whatever `x` throws has the property `p`; it
  goes through sequences, conversions and folds, so that one only has to look at the steps that
  throw.

The two are apart on purpose.  The first says nothing about a computation that failed, and the
second nothing about one that did not: each of the statements that are made of a constructor needs
one of the two, and to prove both at once would need the case split that they avoid.

Nothing is claimed about the order in which steps are taken, which is in the block itself; where the
first failure matters, the block has to be unfolded.
-/
import Mathlib.Data.List.Forall2

namespace Fallible

variable {E α β : Type}

/-- A sequence that succeeded: both parts did. -/
theorem bind_eq_ok {x : Except E α} {f : α → Except E β} {b : β} :
    x >>= f = .ok b ↔ ∃ a, x = .ok a ∧ f a = .ok b := by
  cases x with
  | error e => simp [bind, Except.bind]
  | ok a => simp [bind, Except.bind]

/-- An exception that was renamed. -/
theorem mapError_eq_ok {E' : Type} {g : E → E'} {x : Except E α} {a : α} :
    x.mapError g = .ok a ↔ x = .ok a := by
  cases x with
  | error e => simp [Except.mapError]
  | ok b => simp [Except.mapError]

/-- **A list that was converted**: each element was, and the order is kept. -/
theorem mapM_eq_ok {f : α → Except E β} {l : List α} {l' : List β} :
    l.mapM f = .ok l' ↔ List.Forall₂ (fun a b => f a = .ok b) l l' := by
  induction l generalizing l' with
  | nil =>
    rw [List.mapM_nil, List.forall₂_nil_left_iff]
    constructor
    · intro h
      cases h
      rfl
    · rintro rfl
      rfl
  | cons a l ih =>
    rw [List.mapM_cons, bind_eq_ok, List.forall₂_cons_left_iff]
    constructor
    · rintro ⟨b, hb, hrest⟩
      obtain ⟨bs, hbs, hpure⟩ := bind_eq_ok.mp hrest
      cases hpure
      exact ⟨b, bs, hb, ih.mp hbs, rfl⟩
    · rintro ⟨b, bs, hb, hbs, rfl⟩
      exact ⟨b, hb, bind_eq_ok.mpr ⟨bs, ih.mpr hbs, rfl⟩⟩

/-- A list each element of which is converted like that of another list, but for the exceptions. -/
theorem mapM_map_mapError {E' γ : Type} {f : β → Except E' γ} {g : α → β} {h : α → Except E γ}
    {e : E → E'} (hf : ∀ a, f (g a) = (h a).mapError e) (l : List α) :
    (l.map g).mapM f = (l.mapM h).mapError e := by
  induction l with
  | nil => rfl
  | cons a l ih =>
    rw [List.map_cons, List.mapM_cons, List.mapM_cons, hf, ih]
    cases h a with
    | error e => rfl
    | ok c =>
      cases l.mapM h with
      | error e => rfl
      | ok cs => rfl

/-- A list of values each of which something is converted to. -/
theorem exists_mapM {f : α → Except E β} {l' : List β} (h : ∀ b ∈ l', ∃ a, f a = .ok b) :
    ∃ l : List α, l.mapM f = .ok l' := by
  induction l' with
  | nil => exact ⟨[], rfl⟩
  | cons b l' ih =>
    obtain ⟨a, ha⟩ := h b List.mem_cons_self
    obtain ⟨l, hl⟩ := ih fun b' hb' => h b' (List.mem_cons_of_mem b hb')
    refine ⟨a :: l, mapM_eq_ok.mpr ?_⟩
    exact .cons ha (mapM_eq_ok.mp hl)

/-- A list is converted to one list only. -/
theorem mapM_unique {f : α → Except E β} {l : List α} {l₁ l₂ : List β}
    (h₁ : List.Forall₂ (fun a b => f a = .ok b) l l₁)
    (h₂ : List.Forall₂ (fun a b => f a = .ok b) l l₂) : l₁ = l₂ :=
  Except.ok.inj ((mapM_eq_ok.mpr h₁).symm.trans (mapM_eq_ok.mpr h₂))

/-- Each element of a list has a partner in the list it is related to. -/
theorem exists_partner {R : α → β → Prop} {l : List α} {l' : List β} (h : List.Forall₂ R l l')
    {a : α} (ha : a ∈ l) : ∃ b ∈ l', R a b := by
  induction h with
  | nil => cases ha
  | @cons c d l l' hcd _ ih =>
    rcases List.mem_cons.mp ha with rfl | ha
    · exact ⟨d, List.mem_cons_self, hcd⟩
    · obtain ⟨b, hb, hab⟩ := ih ha
      exact ⟨b, List.mem_cons_of_mem d hb, hab⟩

/-- Some element of the result passes a test: some element was converted to one that does. -/
theorem any_eq_true_iff {f : α → Except E β} {q : β → Bool} {l : List α} {l' : List β}
    (h : List.Forall₂ (fun a b => f a = .ok b) l l') :
    l'.any q = true ↔ ∃ a ∈ l, ∃ b, f a = .ok b ∧ q b = true := by
  induction h with
  | nil => simp
  | @cons a b l l' hab _ ih =>
    rw [List.any_cons, Bool.or_eq_true, ih, List.exists_mem_cons_iff]
    have hhead : q b = true ↔ ∃ b', f a = .ok b' ∧ q b' = true := by
      constructor
      · intro hq
        exact ⟨b, hab, hq⟩
      · rintro ⟨b', hab', hq⟩
        obtain rfl : b = b' := Except.ok.inj (hab.symm.trans hab')
        exact hq
    rw [hhead]

/-! ## How a computation can fail -/

/-- Whatever `x` fails with satisfies `P`. -/
def FailsWith (P : E → Prop) (x : Except E α) : Prop := ∀ e, x = .error e → P e

variable {P : E → Prop}

theorem failsWith_ok {a : α} : FailsWith P (.ok a) := fun _ h => by cases h

theorem failsWith_error {e : E} : FailsWith P (.error e : Except E α) ↔ P e := by
  constructor
  · intro h
    exact h e rfl
  · rintro h _ ⟨⟩
    exact h

/-- The rule for a sequence. -/
theorem FailsWith.bind {x : Except E α} {f : α → Except E β} (hx : FailsWith P x)
    (hf : ∀ a, FailsWith P (f a)) : FailsWith P (x >>= f) := by
  intro e he
  cases x with
  | error e' =>
    cases he
    exact hx e rfl
  | ok a => exact hf a e he

/-- The rule for a list converted element by element. -/
theorem FailsWith.mapM {f : α → Except E β} (hf : ∀ a, FailsWith P (f a)) (l : List α) :
    FailsWith P (l.mapM f) := by
  induction l with
  | nil => exact failsWith_ok
  | cons a l ih =>
    rw [List.mapM_cons]
    exact (hf a).bind fun _ => ih.bind fun _ => failsWith_ok

/-- The rule for a loop with an accumulator. -/
theorem FailsWith.foldlM {f : β → α → Except E β} (hf : ∀ b a, FailsWith P (f b a)) (l : List α)
    (b : β) : FailsWith P (l.foldlM f b) := by
  induction l generalizing b with
  | nil => exact failsWith_ok
  | cons a l ih =>
    rw [List.foldlM_cons]
    exact (hf b a).bind ih

end Fallible
