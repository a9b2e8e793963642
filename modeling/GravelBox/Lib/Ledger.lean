/-
# Resources with one holder each

A `Ledger` says which holder has which resource, which resources were given out, and which of
them were spent.  A resource is given to one holder, moved from one holder to another, and
spent by its holder.

Whatever is done, a resource has at most one holder and is spent at most once, and not while it
is held (`Sound`).  What can go wrong is that a resource is moved to a holder that has one
already: that one is lost, for good (`kept_move_iff`).  Where none is lost (`Kept`) and none is
held any more, each was spent exactly once (`kept_iff_count`).

"At most once" comes for nothing here, and "at least once" is what has to be shown: in a language in
which a value has one owner nothing is closed twice, but an owner that is overwritten takes with it
what it had.  The two are kept apart, since the first holds in every run and the second is what the
condition on a run is about.

The condition is exact because a loss cannot be made good.  A resource that is held by nobody and
was not spent has no way back into the ledger: it is not given out a second time.  That it is not is
a hypothesis on what is given, and the only one.

Holders and resources are of any types, and there may be any number of both.  Nothing is claimed of
resources that are shared, or of ones that may be copied.
-/
import Mathlib.Logic.Function.Basic
import Mathlib.Data.List.Nodup

/-- Holders `O` of resources `R`. -/
@[ext]
structure Ledger (O R : Type) where
  holds : O → Option R
  given : List R
  spent : List R

namespace Ledger

variable {O R : Type}

/-! ## 1. Sound ledgers, and those that lose nothing -/

/-- A resource that is held was given, has one holder and is not spent; none is spent twice. -/
structure Sound (l : Ledger O R) : Prop where
  unique : ∀ o p r, l.holds o = some r → l.holds p = some r → o = p
  given : ∀ o r, l.holds o = some r → r ∈ l.given
  unspent : ∀ o r, l.holds o = some r → r ∉ l.spent
  once : l.spent.Nodup
  spentGiven : ∀ r ∈ l.spent, r ∈ l.given

/-- No resource is lost: each that was given is held or spent. -/
def Kept (l : Ledger O R) : Prop := ∀ r ∈ l.given, r ∈ l.spent ∨ ∃ o, l.holds o = some r

/-- **In the end**, nothing was lost if and only if each resource was spent exactly once. -/
theorem kept_iff_count [BEq R] [LawfulBEq R] {l : Ledger O R} (h : l.Sound)
    (hend : ∀ o, l.holds o = none) : l.Kept ↔ ∀ r ∈ l.given, l.spent.count r = 1 := by
  refine forall₂_congr fun r _ => ?_
  rw [h.once.count]
  constructor
  · rintro (hspent | ⟨o, ho⟩)
    · exact if_pos hspent
    · rw [hend o] at ho
      cases ho
  · intro hcount
    split at hcount
    · exact .inl ‹_›
    · cases hcount

/-! ## 2. What can be done -/

variable [DecidableEq O]

/-- `o`, which has nothing, is given `r`. -/
def give (l : Ledger O R) (o : O) (r : R) : Ledger O R :=
  { l with holds := Function.update l.holds o (some r), given := l.given ++ [r] }

/-- `o` gets what `p` has, which then has nothing. -/
def move (l : Ledger O R) (o p : O) : Ledger O R :=
  { l with holds := Function.update (Function.update l.holds p none) o (l.holds p) }

/-- `o` spends what it has. -/
def spend (l : Ledger O R) (o : O) : Ledger O R :=
  { l with holds := Function.update l.holds o none, spent := l.spent ++ (l.holds o).toList }

theorem give_holds {l : Ledger O R} {o q : O} {r r' : R} :
    (l.give o r).holds q = some r' ↔ (q = o ∧ r = r') ∨ (q ≠ o ∧ l.holds q = some r') := by
  rcases eq_or_ne q o with rfl | hq
  · simp [give]
  · simp [give, hq]

theorem move_holds {l : Ledger O R} {o p q : O} {r : R} :
    (l.move o p).holds q = some r ↔
      (q = o ∧ l.holds p = some r) ∨ (q ≠ o ∧ q ≠ p ∧ l.holds q = some r) := by
  rcases eq_or_ne q o with rfl | hq
  · simp [move]
  · rcases eq_or_ne q p with rfl | hp
    · simp [move, hq]
    · simp [move, hq, hp]

theorem spend_holds {l : Ledger O R} {o q : O} {r : R} :
    (l.spend o).holds q = some r ↔ q ≠ o ∧ l.holds q = some r := by
  rcases eq_or_ne q o with rfl | hq
  · simp [spend]
  · simp [spend, hq]

theorem mem_spend_spent {l : Ledger O R} {o : O} {r : R} :
    r ∈ (l.spend o).spent ↔ r ∈ l.spent ∨ l.holds o = some r := by
  simp [spend]

/-! ## 3. What holds whatever is done -/

theorem Sound.give {l : Ledger O R} (h : l.Sound) (o : O) {r : R} (hr : r ∉ l.given) :
    (l.give o r).Sound := by
  have hnot : ∀ p, l.holds p ≠ some r := fun p hp => hr (h.given p r hp)
  refine ⟨?_, ?_, ?_, h.once, fun r' hr' => List.mem_append_left _ (h.spentGiven r' hr')⟩
  · intro q q' r' hq hq'
    rcases give_holds.mp hq with ⟨rfl, rfl⟩ | ⟨-, hq⟩
    · rcases give_holds.mp hq' with ⟨rfl, -⟩ | ⟨-, hq'⟩
      · rfl
      · exact absurd hq' (hnot q')
    · rcases give_holds.mp hq' with ⟨-, rfl⟩ | ⟨-, hq'⟩
      · exact absurd hq (hnot q)
      · exact h.unique q q' r' hq hq'
  · intro q r' hq
    rcases give_holds.mp hq with ⟨-, rfl⟩ | ⟨-, hq⟩
    · exact List.mem_append_right _ (List.mem_singleton_self r)
    · exact List.mem_append_left _ (h.given q r' hq)
  · intro q r' hq hspent
    rcases give_holds.mp hq with ⟨-, rfl⟩ | ⟨-, hq⟩
    · exact hr (h.spentGiven r hspent)
    · exact h.unspent q r' hq hspent

theorem Sound.move {l : Ledger O R} (h : l.Sound) (o p : O) : (l.move o p).Sound := by
  -- whoever holds a resource now, somebody held it before
  have hbefore : ∀ q r, (l.move o p).holds q = some r → ∃ q', l.holds q' = some r := by
    intro q r hq
    rcases move_holds.mp hq with ⟨-, hq⟩ | ⟨-, -, hq⟩
    · exact ⟨p, hq⟩
    · exact ⟨q, hq⟩
  refine ⟨?_, ?_, ?_, h.once, h.spentGiven⟩
  · intro q q' r hq hq'
    rcases move_holds.mp hq with ⟨hqo, hp⟩ | ⟨-, hqp, hold⟩
    · rcases move_holds.mp hq' with ⟨hqo', -⟩ | ⟨-, hqp', hold'⟩
      · rw [hqo, hqo']
      · exact absurd (h.unique q' p r hold' hp) hqp'
    · rcases move_holds.mp hq' with ⟨-, hp'⟩ | ⟨-, -, hold'⟩
      · exact absurd (h.unique q p r hold hp') hqp
      · exact h.unique q q' r hold hold'
  · intro q r hq
    obtain ⟨q', hq'⟩ := hbefore q r hq
    exact h.given q' r hq'
  · intro q r hq
    obtain ⟨q', hq'⟩ := hbefore q r hq
    exact h.unspent q' r hq'

theorem Sound.spend {l : Ledger O R} (h : l.Sound) (o : O) : (l.spend o).Sound := by
  refine ⟨?_, ?_, ?_, ?_, ?_⟩
  · intro q q' r hq hq'
    exact h.unique q q' r (spend_holds.mp hq).2 (spend_holds.mp hq').2
  · intro q r hq
    exact h.given q r (spend_holds.mp hq).2
  · intro q r hq hspent
    obtain ⟨hne, hq⟩ := spend_holds.mp hq
    rcases mem_spend_spent.mp hspent with hspent | ho
    · exact h.unspent q r hq hspent
    · exact hne (h.unique q o r hq ho)
  · change (l.spent ++ (l.holds o).toList).Nodup
    cases ho : l.holds o with
    | none => simpa using h.once
    | some r =>
      rw [Option.toList_some, List.nodup_append]
      refine ⟨h.once, List.nodup_singleton r, ?_⟩
      intro a ha b hb heq
      obtain rfl : b = r := List.mem_singleton.mp hb
      exact h.unspent o b ho (heq ▸ ha)
  · intro r hr
    rcases mem_spend_spent.mp hr with hr | ho
    · exact h.spentGiven r hr
    · exact h.given o r ho

/-! ## 4. What can be lost -/

theorem kept_give_iff {l : Ledger O R} {o : O} {r : R} (ho : l.holds o = none)
    (hr : r ∉ l.given) : (l.give o r).Kept ↔ l.Kept := by
  constructor
  · intro hk r' hr'
    rcases hk r' (List.mem_append_left _ hr') with hspent | ⟨q, hq⟩
    · exact .inl hspent
    · rcases give_holds.mp hq with ⟨-, rfl⟩ | ⟨-, hq⟩
      · exact absurd hr' hr
      · exact .inr ⟨q, hq⟩
  · intro hk r' hr'
    rcases List.mem_append.mp hr' with hr' | hr'
    · rcases hk r' hr' with hspent | ⟨q, hq⟩
      · exact .inl hspent
      · have hne : q ≠ o := by
          rintro rfl
          rw [ho] at hq
          cases hq
        exact .inr ⟨q, give_holds.mpr (.inr ⟨hne, hq⟩)⟩
    · obtain rfl := List.mem_singleton.mp hr'
      exact .inr ⟨o, give_holds.mpr (.inl ⟨rfl, rfl⟩)⟩

/-- **What a move loses** is what the new holder had. -/
theorem kept_move_iff {l : Ledger O R} (h : l.Sound) {o p : O} (hne : o ≠ p) :
    (l.move o p).Kept ↔ l.Kept ∧ l.holds o = none := by
  constructor
  · intro hk
    refine ⟨fun r hr => ?_, ?_⟩
    · rcases hk r hr with hspent | ⟨q, hq⟩
      · exact .inl hspent
      · rcases move_holds.mp hq with ⟨-, hq⟩ | ⟨-, -, hq⟩
        · exact .inr ⟨p, hq⟩
        · exact .inr ⟨q, hq⟩
    · rw [Option.eq_none_iff_forall_ne_some]
      intro r ho
      rcases hk r (h.given o r ho) with hspent | ⟨q, hq⟩
      · exact h.unspent o r ho hspent
      · rcases move_holds.mp hq with ⟨-, hp⟩ | ⟨hqo, -, hq⟩
        · exact hne (h.unique o p r ho hp)
        · exact hqo (h.unique q o r hq ho)
  · rintro ⟨hk, ho⟩ r hr
    rcases hk r hr with hspent | ⟨q, hq⟩
    · exact .inl hspent
    · rcases eq_or_ne q p with rfl | hqp
      · exact .inr ⟨o, move_holds.mpr (.inl ⟨rfl, hq⟩)⟩
      · have hqo : q ≠ o := by
          rintro rfl
          rw [ho] at hq
          cases hq
        exact .inr ⟨q, move_holds.mpr (.inr ⟨hqo, hqp, hq⟩)⟩

theorem kept_spend_iff {l : Ledger O R} {o : O} : (l.spend o).Kept ↔ l.Kept := by
  constructor
  · intro hk r hr
    rcases hk r hr with hspent | ⟨q, hq⟩
    · rcases mem_spend_spent.mp hspent with hspent | ho
      · exact .inl hspent
      · exact .inr ⟨o, ho⟩
    · exact .inr ⟨q, (spend_holds.mp hq).2⟩
  · intro hk r hr
    rcases hk r hr with hspent | ⟨q, hq⟩
    · exact .inl (mem_spend_spent.mpr (.inl hspent))
    · rcases eq_or_ne q o with rfl | hne
      · exact .inl (mem_spend_spent.mpr (.inr hq))
      · exact .inr ⟨q, spend_holds.mpr ⟨hne, hq⟩⟩


end Ledger
