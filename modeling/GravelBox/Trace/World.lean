/-
# The target's side of a stop: memory, and being killed

While the tracer handles the stop of a tracee, that tracee can be killed at any time; from
then on every request on it fails with `ESRCH`.  `World.life` says when: it is the number of
requests the tracee still answers, `none` if it outlives the handling.  So a theorem about every
`life` is one about a kill at every point between two requests.

`process_vm_readv` (used in `parser/argtypes.cpp`, line 57) transfers the remote vectors in order
and stops at the first one that is not fully readable.  It fails with `EFAULT` if that is the very
first one, and otherwise returns how much it got.

What makes this awkward is that the request names a process, which need not be the stopped one: the
parser reads the memory of `target_`, and only the callback for the pid makes that the tracee that
is being handled.  So a request on another process does not fail here, and costs nothing of the
life of the one that is stopped (`requestOn`); that the two are the same process in every run is
shown where it is needed, and not assumed.

Memory is a set of readable pages and a function from addresses to bytes.  It does not change while
one stop is handled, though other threads of the same process run meanwhile; how it changes from
one stop to the next is up to the events.

Not claimed: anything about what the kernel itself reads when it carries the call out.
-/
import GravelBox.Utils

namespace GravelBox

open Stateful

/-! ## 1. Memory -/

/-- The memory of a process: which 4096-byte pages it can read, and the bytes in them. -/
structure Memory where
  readable : Nat → Bool
  byte : BitVec 64 → BitVec 8

/-- The address lies in a readable page. -/
def Memory.mapped (m : Memory) (a : BitVec 64) : Bool := m.readable (a.toNat / 4096)

/-- An `iovec` on the remote side: base and length. -/
structure IoVec where
  base : BitVec 64
  len : Nat
  deriving DecidableEq, Repr

/-- The addresses a remote vector covers, in order. -/
def IoVec.addrs (v : IoVec) : List (BitVec 64) :=
  (List.range v.len).map fun i => v.base + BitVec.ofNat 64 i

/-- What `process_vm_readv` gets of `remote`: the vectors before the first one that is not
fully readable. -/
def Memory.transfer (m : Memory) (remote : List IoVec) : List (BitVec 8) :=
  ((remote.takeWhile fun v => v.addrs.all m.mapped).flatMap IoVec.addrs).map m.byte

/-! ## 2. The world while a stop is handled -/

/-- What the requests of one handling can see. -/
structure World where
  mem : Tid → Memory
  child : Tid
  life : Option Nat

/-- The stopped tracee has been killed. -/
def World.dead (w : World) : Prop := w.life = some 0

instance (w : World) : Decidable w.dead := inferInstanceAs (Decidable (_ = _))

/-- One request on the stopped tracee, through `check`. -/
def request : EStateM Fault World Unit := fun w =>
  match w.life with
  | none => .ok () w
  | some 0 => .error (.systemError ESRCH) w
  | some (n + 1) => .ok () { w with life := some n }

/-- The world after a request was served. -/
def World.tick (w : World) : World := { w with life := w.life.map (· - 1) }

/-- The rule for a request: it is served unless the tracee is dead. -/
theorem ends_request {w : World} {Q : Unit → World → Prop} {R : Fault → World → Prop} :
    Ends request w Q R ↔ (¬ w.dead → Q () w.tick) ∧ (w.dead → R (.systemError ESRCH) w) := by
  obtain ⟨mem, child, life⟩ := w
  match life with
  | none => simp [Ends, EStateM.run, request, World.dead, World.tick]
  | some 0 => simp [Ends, EStateM.run, request, World.dead]
  | some (n + 1) => simp [Ends, EStateM.run, request, World.dead, World.tick]

/-! ## 3. Several requests -/

/-- The world after `n` requests on the stopped tracee. -/
def World.ticks (w : World) (n : Nat) : World := { w with life := w.life.map (· - n) }

/-- The stopped tracee lives to answer `n` more requests. -/
def World.Serves (w : World) (n : Nat) : Prop := ∀ k, w.life = some k → n ≤ k

@[simp] theorem World.ticks_zero (w : World) : w.ticks 0 = w := by
  obtain ⟨mem, child, life⟩ := w
  cases life <;> rfl

theorem World.ticks_ticks (w : World) (m n : Nat) : (w.ticks m).ticks n = w.ticks (m + n) := by
  obtain ⟨mem, child, life⟩ := w
  cases life with
  | none => rfl
  | some k => simp [World.ticks, Nat.sub_sub]

theorem World.serves_zero (w : World) : w.Serves 0 := fun k _ => Nat.zero_le k

theorem World.serves_add {w : World} {m n : Nat} :
    w.Serves (m + n) ↔ w.Serves m ∧ (w.ticks m).Serves n := by
  obtain ⟨mem, child, life⟩ := w
  cases life with
  | none => simp [World.Serves, World.ticks]
  | some k =>
    simp only [World.Serves, World.ticks, Option.map_some, Option.some.injEq, forall_eq']
    omega

theorem World.dead_iff {w : World} : w.dead ↔ ¬ w.Serves 1 := by
  obtain ⟨mem, child, life⟩ := w
  cases life with
  | none => simp [World.Serves, World.dead]
  | some k =>
    simp only [World.Serves, World.dead, Option.some.injEq, forall_eq']
    omega

/-- Of `n` requests on `target`, those that are on the stopped tracee. -/
def World.cost (w : World) (target : Tid) (n : Nat) : Nat := if target = w.child then n else 0

theorem World.cost_add (w : World) (target : Tid) (m n : Nat) :
    w.cost target (m + n) = w.cost target m + w.cost target n := by
  unfold World.cost
  split
  · rfl
  · rfl

@[simp] theorem World.cost_ticks (w : World) (target : Tid) (m n : Nat) :
    (w.ticks m).cost target n = w.cost target n := rfl

@[simp] theorem World.cost_zero (w : World) (target : Tid) : w.cost target 0 = 0 := by
  unfold World.cost
  split <;> rfl

/-- A request on `target`, which fails only if that is the stopped tracee. -/
def requestOn (target : Tid) : EStateM Fault World Unit := do
  let w ← get
  if target = w.child then request

/-- The rule for a request on any process. -/
theorem ends_requestOn {target : Tid} {w : World} {Q : Unit → World → Prop}
    {R : Fault → World → Prop} :
    Ends (requestOn target) w Q R ↔
      (w.Serves (w.cost target 1) → Q () (w.ticks (w.cost target 1))) ∧
        (¬ w.Serves (w.cost target 1) → R (.systemError ESRCH) w) := by
  simp only [requestOn, ends_bind, ends_get]
  by_cases h : target = w.child
  · rw [if_pos h, ends_request, World.dead_iff, not_not]
    simp only [World.cost, if_pos h]
    exact Iff.rfl
  · rw [if_neg h, ends_pure]
    simp [World.cost, if_neg h, World.serves_zero]

/-! ## 4. Reading memory -/

/-- `check(process_vm_readv(pid, ..))`: `ESRCH` once the process is gone, `EFAULT` when not
even the first vector is readable. -/
def processVmReadv (pid : Tid) (remote : List IoVec) : EStateM Fault World (List (BitVec 8)) := do
  let w ← get
  requestOn pid
  let bytes := (w.mem pid).transfer remote
  if bytes = [] then throw (.systemError EFAULT)
  return bytes

/-- **Reading memory.**  It returns the bytes transferred, if any. -/
theorem processVmReadv_spec (pid : Tid) (remote : List IoVec) (w : World) :
    Ends (processVmReadv pid remote) w
      (fun bytes w' => bytes = (w.mem pid).transfer remote ∧ bytes ≠ [] ∧
        w.Serves (w.cost pid 1) ∧ w' = w.ticks (w.cost pid 1))
      (fun f w' =>
        (f = .systemError EFAULT ∧ (w.mem pid).transfer remote = [] ∧
          w.Serves (w.cost pid 1) ∧ w' = w.ticks (w.cost pid 1)) ∨
        (f = .systemError ESRCH ∧ ¬ w.Serves (w.cost pid 1))) := by
  simp only [processVmReadv, ends_bind, ends_get, ends_requestOn]
  refine ⟨fun hserves => ?_, fun hdead => Or.inr ⟨trivial, hdead⟩⟩
  by_cases hnil : (w.mem pid).transfer remote = []
  · rw [if_pos hnil]
    exact Or.inl ⟨rfl, hnil, hserves, rfl⟩
  · rw [if_neg hnil]
    exact ⟨rfl, hnil, hserves, rfl⟩

end GravelBox
