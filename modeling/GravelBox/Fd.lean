/-
# Who closes a descriptor

`Utils::Fd` (`utils.h`, lines 101 to 175) owns a file descriptor, or nothing, which its member `fd_`
marks with a negative number.  An object that is moved from is left with -1, `release` hands the
descriptor to the caller, and the destructor closes what is owned then.  `close` is taken to
succeed.

Move assignment (lines 132 to 138) takes the descriptor of the other object, and forgets the one the
object had.  That is the only way to lose one: each descriptor that was given to an `Fd` is released
or closed exactly once if and only if no assignment meets an object that owns one (`fd_owned_iff`).

What makes this hard is that a program has any number of objects, which move descriptors among
themselves in any order, and that a descriptor may be given to an object by its number, so that
nothing but the history says whose it is.  The ledger (`Lib/Ledger.lean`) is that history: which
holder has which descriptor, which were given out, which were spent.  An operation on objects is a
move in the ledger (`ledger_after`), and what the ledger says of moves is what is needed.

A descriptor that is forgotten stays open until the process ends.  Here that would be a pipe end or
a file of the child; the source itself assigns no `Fd` that owns one, so the slip is in the class
and not in its use.

Not claimed: anything about numbers that are used twice.  A number can be given to two objects, and
then each of them closes it; the theorem is about programs that give each of them out once.
-/
import GravelBox.Lib.Ledger
import GravelBox.Lib.Runs

namespace GravelBox

open Runs

/-! ## 1. The class -/

/-- `Utils::Fd`. -/
structure Fd where
  fd : Int
  deriving DecidableEq

/-- `Fd(int fd)`. -/
def Fd.ofRaw (fd : Int) : Fd := { fd := fd }

/-- `Fd()`. -/
def Fd.empty : Fd := { fd := -1 }

/-- The move constructor: the new object, and what it leaves of the other one. -/
def Fd.moveConstruct (other : Fd) : Fd × Fd := ({ fd := other.fd }, { fd := -1 })

/-- Move assignment from another object: the object, and what it leaves of the other one. -/
def Fd.moveAssign (this other : Fd) : Fd × Fd := ({ this with fd := other.fd }, { fd := -1 })

/-- `release`: what it returns, and the object. -/
def Fd.release (this : Fd) : Int × Fd := (this.fd, { this with fd := -1 })

/-- `~Fd`: the descriptor that is closed. -/
def Fd.destroy (this : Fd) : Option Int := if this.fd ≥ 0 then some this.fd else none

/-! ## 2. Programs with several objects -/

/-- How a descriptor leaves an object for good. -/
inductive FdExit
  | released (fd : Int)
  | closed (fd : Int)
  deriving DecidableEq

def FdExit.fd : FdExit → Int
  | .released fd | .closed fd => fd

/-- The objects that are alive, the descriptors given to a constructor so far, and those that
were released or closed, in order. -/
structure FdState (O : Type) where
  objects : O → Option Fd
  given : List Int
  log : List FdExit

variable {O : Type}

/-- No object yet. -/
def FdState.start : FdState O := { objects := fun _ => none, given := [], log := [] }

/-- The object owns the descriptor. -/
def FdState.Owns (s : FdState O) (o : O) (fd : Int) : Prop :=
  ∃ f, s.objects o = some f ∧ 0 ≤ fd ∧ f.fd = fd

/-- An operation on the objects. -/
inductive FdOp (O : Type)
  | construct (o : O) (fd : Int)
  | default (o : O)
  | moveConstruct (o p : O)
  | moveAssign (o p : O)
  | release (o : O)
  | destroy (o : O)

/-- The objects are there that the operation is on, and not those that it constructs; a
descriptor is given to one object only. -/
def FdState.Enabled (s : FdState O) : FdOp O → Prop
  | .construct o fd => s.objects o = none ∧ 0 ≤ fd ∧ fd ∉ s.given
  | .default o => s.objects o = none
  | .moveConstruct o p => s.objects o = none ∧ s.objects p ≠ none
  | .moveAssign o p => s.objects o ≠ none ∧ s.objects p ≠ none
  | .release o | .destroy o => s.objects o ≠ none

/-- What the operation leads to. -/
def FdState.after [DecidableEq O] (s : FdState O) : FdOp O → FdState O
  | .construct o fd =>
    { s with objects := Function.update s.objects o (some (.ofRaw fd)), given := s.given ++ [fd] }
  | .default o => { s with objects := Function.update s.objects o (some .empty) }
  | .moveConstruct o p =>
    match s.objects p with
    | none => s
    | some other =>
      let (this, other) := other.moveConstruct
      { s with objects := Function.update (Function.update s.objects p (some other)) o (some this) }
  | .moveAssign o p =>
    if o = p then s
    else
      match s.objects o, s.objects p with
      | some this, some other =>
        let (this, other) := this.moveAssign other
        { s with
          objects := Function.update (Function.update s.objects p (some other)) o (some this) }
      | _, _ => s
  | .release o =>
    match s.objects o with
    | none => s
    | some this =>
      let (fd, this) := this.release
      { s with objects := Function.update s.objects o (some this)
               log := s.log ++ if fd ≥ 0 then [.released fd] else [] }
  | .destroy o =>
    match s.objects o with
    | none => s
    | some this =>
      { s with objects := Function.update s.objects o none
               log := s.log ++ this.destroy.toList.map .closed }

/-- One operation. -/
def FdStep [DecidableEq O] (s : FdState O) (op : FdOp O) (s' : FdState O) : Prop :=
  s.Enabled op ∧ s' = s.after op

theorem run_op [DecidableEq O] {s₀ s : FdState O} {tr : List (FdState O × FdOp O)}
    (h : Run FdStep s₀ tr s) (op : FdOp O) (henabled : s.Enabled op) :
    Run FdStep s₀ (tr ++ [(s, op)]) (s.after op) :=
  h.snoc ⟨henabled, rfl⟩

/-! ## 3. The ledger of the descriptors -/

/-- Who owns what. -/
def FdState.ledger (s : FdState O) : Ledger O Int :=
  { holds := fun o => (s.objects o).bind Fd.destroy, given := s.given
    spent := s.log.map FdExit.fd }

theorem Fd.destroy_eq_some {f : Fd} {fd : Int} : f.destroy = some fd ↔ 0 ≤ fd ∧ f.fd = fd := by
  unfold Fd.destroy
  split
  · rw [Option.some.injEq]
    omega
  · simp only [reduceCtorEq, false_iff]
    omega

theorem ledger_holds {s : FdState O} {o : O} {fd : Int} :
    s.ledger.holds o = some fd ↔ s.Owns o fd := by
  change (s.objects o).bind Fd.destroy = some fd ↔ _
  rw [Option.bind_eq_some_iff]
  exact exists_congr fun f => and_congr_right fun _ => Fd.destroy_eq_some

theorem ledger_holds_none {s : FdState O} {o : O} (h : s.objects o = none) :
    s.ledger.holds o = none := by
  change (s.objects o).bind Fd.destroy = none
  rw [h]
  rfl

theorem start_sound : (FdState.start : FdState O).ledger.Sound := by
  refine ⟨?_, ?_, ?_, List.nodup_nil, fun fd h => h⟩
  · intro o p fd h
    cases h
  · intro o fd h
    cases h
  · intro o fd h
    cases h

variable [DecidableEq O]

/-- What an operation does to the ledger. -/
def ledgerAfter (l : Ledger O Int) : FdOp O → Ledger O Int
  | .construct o fd => l.give o fd
  | .default _ => l
  | .moveConstruct o p => l.move o p
  | .moveAssign o p => if o = p then l else l.move o p
  | .release o | .destroy o => l.spend o

/-- An object that got what another one had. -/
theorem ledger_moved {s : FdState O} {o p : O} {this other other' : Fd}
    (hp : s.objects p = some other) (hthis : this.fd = other.fd) (hother : other'.fd = -1) :
    FdState.ledger { s with
        objects := Function.update (Function.update s.objects p (some other')) o (some this) } =
      s.ledger.move o p := by
  have hnone : other'.destroy = none := by
    unfold Fd.destroy
    rw [if_neg (by omega)]
  refine Ledger.ext (funext fun q => ?_) rfl rfl
  simp only [FdState.ledger, Ledger.move]
  rcases eq_or_ne q o with rfl | hqo
  · rw [Function.update_self, Function.update_self, hp, Option.bind_some, Option.bind_some,
      Fd.destroy, Fd.destroy, hthis]
  · rw [Function.update_of_ne hqo, Function.update_of_ne hqo]
    rcases eq_or_ne q p with rfl | hqp
    · rw [Function.update_self, Function.update_self, Option.bind_some, hnone]
    · rw [Function.update_of_ne hqp, Function.update_of_ne hqp]

/-- An object that owns nothing any more, and what left it. -/
theorem ledger_spent {s : FdState O} {o : O} {this : Fd} {f : Option Fd} {exits : List FdExit}
    (ho : s.objects o = some this) (hf : f.bind Fd.destroy = none)
    (hexits : exits.map FdExit.fd = this.destroy.toList) :
    FdState.ledger { s with objects := Function.update s.objects o f, log := s.log ++ exits } =
      s.ledger.spend o := by
  refine Ledger.ext (funext fun q => ?_) rfl ?_
  · simp only [FdState.ledger, Ledger.spend]
    rcases eq_or_ne q o with rfl | hq
    · rw [Function.update_self, Function.update_self, hf]
    · rw [Function.update_of_ne hq, Function.update_of_ne hq]
  · simp only [FdState.ledger, Ledger.spend, List.map_append, hexits, ho, Option.bind_some]

/-- **The objects follow the ledger.** -/
theorem ledger_after {s : FdState O} {op : FdOp O} (h : s.Enabled op) :
    (s.after op).ledger = ledgerAfter s.ledger op := by
  cases op with
  | construct o fd =>
    obtain ⟨-, hfd, -⟩ := h
    refine Ledger.ext (funext fun q => ?_) rfl rfl
    simp only [FdState.after, FdState.ledger, ledgerAfter, Ledger.give]
    rcases eq_or_ne q o with rfl | hq
    · rw [Function.update_self, Function.update_self, Option.bind_some, Fd.destroy_eq_some]
      exact ⟨hfd, rfl⟩
    · rw [Function.update_of_ne hq, Function.update_of_ne hq]
  | default o =>
    have ho : s.objects o = none := h
    refine Ledger.ext (funext fun q => ?_) rfl rfl
    simp only [FdState.after, FdState.ledger, ledgerAfter]
    rcases eq_or_ne q o with rfl | hq
    · rw [Function.update_self, ho]
      rfl
    · rw [Function.update_of_ne hq]
  | moveConstruct o p =>
    obtain ⟨-, hp⟩ := h
    obtain ⟨other, hother⟩ := Option.ne_none_iff_exists'.mp hp
    simp only [FdState.after, hother, ledgerAfter]
    exact ledger_moved hother rfl rfl
  | moveAssign o p =>
    obtain ⟨ho, hp⟩ := h
    obtain ⟨this, hthis⟩ := Option.ne_none_iff_exists'.mp ho
    obtain ⟨other, hother⟩ := Option.ne_none_iff_exists'.mp hp
    simp only [FdState.after, ledgerAfter]
    split
    · rfl
    · simp only [hthis, hother]
      exact ledger_moved hother rfl rfl
  | release o =>
    obtain ⟨this, hthis⟩ := Option.ne_none_iff_exists'.mp h
    simp only [FdState.after, hthis, ledgerAfter]
    refine ledger_spent hthis rfl ?_
    unfold Fd.destroy Fd.release
    split
    · rfl
    · rfl
  | destroy o =>
    obtain ⟨this, hthis⟩ := Option.ne_none_iff_exists'.mp h
    simp only [FdState.after, hthis, ledgerAfter]
    refine ledger_spent hthis rfl ?_
    rw [List.map_map]
    exact List.map_id' _

/-! ## 4. When no descriptor is lost -/

/-- Each descriptor is owned by one object at most. -/
def OneOwner (s : FdState O) : Prop := ∀ o p fd, s.Owns o fd → s.Owns p fd → o = p

/-- The operation does not make an object forget a descriptor: what an object is assigned to
is the object itself, or owns nothing. -/
def ForgetsNothing (s : FdState O) : FdOp O → Prop
  | .moveAssign o p => o = p ∨ ∀ fd, ¬ s.Owns o fd
  | _ => True

/-- No operation gives a descriptor a second owner, or closes it a second time. -/
theorem step_fd_sound {s s' : FdState O} {op : FdOp O} (h : s.ledger.Sound)
    (hstep : FdStep s op s') : s'.ledger.Sound := by
  obtain ⟨henabled, rfl⟩ := hstep
  rw [ledger_after henabled]
  cases op with
  | construct o fd => exact h.give o henabled.2.2
  | default o => exact h
  | moveConstruct o p => exact h.move o p
  | moveAssign o p =>
    rw [ledgerAfter]
    split
    · exact h
    · exact h.move o p
  | release o | destroy o => exact h.spend o

/-- **One operation** loses no descriptor if and only if it makes no object forget one. -/
theorem step_kept_iff {s s' : FdState O} {op : FdOp O} (h : s.ledger.Sound)
    (hstep : FdStep s op s') : s'.ledger.Kept ↔ s.ledger.Kept ∧ ForgetsNothing s op := by
  obtain ⟨henabled, rfl⟩ := hstep
  rw [ledger_after henabled]
  cases op with
  | construct o fd =>
    have hgive := Ledger.kept_give_iff (ledger_holds_none henabled.1) henabled.2.2
    exact hgive.trans (and_iff_left trivial).symm
  | default o => exact (and_iff_left trivial).symm
  | moveConstruct o p =>
    obtain ⟨ho, hp⟩ := henabled
    have hne : o ≠ p := by
      rintro rfl
      exact hp ho
    rw [ledgerAfter, Ledger.kept_move_iff h hne]
    exact and_congr_right fun _ => iff_of_true (ledger_holds_none ho) trivial
  | moveAssign o p =>
    rw [ForgetsNothing, ledgerAfter]
    by_cases hne : o = p
    · rw [if_pos hne]
      exact (and_iff_left (.inl hne)).symm
    · rw [if_neg hne, Ledger.kept_move_iff h hne, or_iff_right hne,
        Option.eq_none_iff_forall_ne_some]
      refine and_congr_right fun _ => forall_congr' fun fd => ?_
      rw [ne_eq, ledger_holds]
  | release o | destroy o => exact Ledger.kept_spend_iff.trans (and_iff_left trivial).symm

/-- **The descriptors of a run of operations**: whenever all objects are destroyed, each
descriptor given to one of them was released or closed, and only once, if and only if no
assignment met an object that owned a descriptor. -/
theorem fd_owned_iff {tr : List (FdState O × FdOp O)} {s : FdState O}
    (h : Run FdStep FdState.start tr s) (hend : ∀ o, s.objects o = none) :
    (Always OneOwner tr s ∧ (s.log.map FdExit.fd).Nodup ∧
        ∀ fd ∈ s.given, (s.log.map FdExit.fd).count fd = 1) ↔
      Guarded ForgetsNothing tr := by
  have hsound : Always (fun s => s.ledger.Sound) tr s :=
    h.invariant start_sound fun _ _ _ hs hstep => step_fd_sound hs hstep
  have howner : Always OneOwner tr s := by
    have hone : ∀ t : FdState O, t.ledger.Sound → OneOwner t := fun t ht o p fd ho hp =>
      ht.unique o p fd (ledger_holds.mpr ho) (ledger_holds.mpr hp)
    exact ⟨fun t ht => hone t.1 (hsound.1 t ht), hone s hsound.2⟩
  have hkept : s.ledger.Kept ↔ Guarded ForgetsNothing tr :=
    h.last_iff_guarded (I := fun s => s.ledger.Sound) (P := fun s => s.ledger.Kept) start_sound
      (fun fd hfd => absurd hfd List.not_mem_nil) (fun _ _ _ hs hstep => step_fd_sound hs hstep)
      fun _ _ _ hs hstep => step_kept_iff hs hstep
  rw [← hkept, Ledger.kept_iff_count hsound.2 fun o => ledger_holds_none (hend o)]
  exact ⟨fun hall => hall.2.2, fun hcount => ⟨howner, hsound.2.once, hcount⟩⟩

/-- A descriptor is moved from one object into a new one, and closed once. -/
theorem moved_owned :
    ∃ tr s, Run FdStep (FdState.start : FdState Bool) tr s ∧ s.given = [3] ∧
      Always OneOwner tr s ∧ (s.log.map FdExit.fd).Nodup ∧
      ∀ fd ∈ s.given, (s.log.map FdExit.fd).count fd = 1 := by
  have h₀ : Run FdStep (FdState.start : FdState Bool) [] FdState.start := .nil
  have h₁ := run_op h₀ (.construct true 3) ⟨rfl, by decide, List.not_mem_nil⟩
  have h₂ := run_op h₁ (.moveConstruct false true) ⟨rfl, Option.some_ne_none _⟩
  have h₃ := run_op h₂ (.destroy true) (Option.some_ne_none _)
  have h₄ := run_op h₃ (.destroy false) (Option.some_ne_none _)
  refine ⟨_, _, h₄, rfl, (fd_owned_iff h₄ fun o => ?_).mpr ?_⟩
  · cases o with
    | false => rfl
    | true => rfl
  · simp only [guarded_snoc, guarded_nil]
    exact ⟨⟨⟨⟨trivial, trivial⟩, trivial⟩, trivial⟩, trivial⟩

/-- **A descriptor is leaked.**  Two objects own a descriptor each, and the second is moved into
the first: when both are destroyed, the descriptor that the first had is still open. -/
theorem assigned_leaks :
    ∃ tr s, Run FdStep (FdState.start : FdState Bool) tr s ∧ (∀ o, s.objects o = none) ∧
      s.given = [3, 4] ∧ s.log = [.closed 4] ∧
      ¬ ∀ fd ∈ s.given, (s.log.map FdExit.fd).count fd = 1 := by
  have h₀ : Run FdStep (FdState.start : FdState Bool) [] FdState.start := .nil
  have h₁ := run_op h₀ (.construct true 3) ⟨rfl, by decide, List.not_mem_nil⟩
  have h₂ := run_op h₁ (.construct false 4) ⟨rfl, by decide, by decide⟩
  have h₃ := run_op h₂ (.moveAssign true false)
    ⟨Option.some_ne_none _, Option.some_ne_none _⟩
  have h₄ := run_op h₃ (.destroy true) (Option.some_ne_none _)
  have h₅ := run_op h₄ (.destroy false) (Option.some_ne_none _)
  refine ⟨_, _, h₅, fun o => ?_, rfl, rfl, fun hall => ?_⟩
  · cases o with
    | false => rfl
    | true => rfl
  · exact absurd (hall 3 (by decide)) (by decide)

end GravelBox
