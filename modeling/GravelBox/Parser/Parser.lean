/-
# From a system call to its text

`SyscallDef::write` (`parser/syscalldef.h`, lines 54 to 64) renders a call by its definition and
`Parser::operator()` (`parser/parser.cpp`, lines 58 to 69) picks the definition, or falls back to
printing the registers: for a call with an unknown number, and for every call that was made through
`int 0x80`, whose numbers are those of another table.

`Parser.text` is the same without stream, memory reads and faults; `call_spec` says that the parser
returns just this text, if it returns: it does unless the target is killed before the last string
was read, or the definition has more than six parameters.

What makes this hard is what `noexcept` does to the two exceptions.  `StrType::write` lets an
`ESRCH` out, which the loop of the tracer would know how to handle; but the function it passes
through on the way is `noexcept`, so the process is terminated instead.  And the argument of a
parameter is taken from an array of six by its index, after an `assert`: with assertions a seventh
parameter ends the process, without them the behaviour is undefined (`outOfBounds`).  Both have to
be told apart from a text, so the number of reads that a definition takes (`reads`) is counted along
with the text, and compared with the number of requests that the target answers before it dies.

Not claimed: what the text is good for.  That it is printable, that it determines the call and that
a string in it can be read back are results of their own, each with its exceptions.
-/
import GravelBox.Parser.ArgTypes
import Mathlib.Data.List.AList

namespace GravelBox

open Stateful

/-! ## 1. The code -/

/-- `args[i]`, where it exists. -/
def argAt (args : Fin 6 → BitVec 64) (i : Nat) : Option (BitVec 64) :=
  if h : i < 6 then some (args ⟨i, h⟩) else none

/-- `SyscallDef`. -/
structure SyscallDef where
  fname : Str
  argtypes : List ArgType
  deriving DecidableEq

/-- The loop of `SyscallDef::write`, from index `i` on. -/
def writeParams (target : Tid) (args : Fin 6 → BitVec 64) :
    Nat → List ArgType → OStream → EStateM Fault World OStream
  | _, [], os => return os
  | i, ty :: tys, os => do
    let os := if i > 0 then os.put ", ".toList else os
    match argAt args i with
    | none => throw .outOfBounds
    | some value => do
      let os ← ty.write target os value
      writeParams target args (i + 1) tys os

/-- `SyscallDef::write`. -/
def SyscallDef.write (d : SyscallDef) (ndebug : Bool) (target : Tid) (os : OStream)
    (args : Fin 6 → BitVec 64) : EStateM Fault World OStream := do
  if ndebug = false ∧ ¬ d.argtypes.length ≤ 6 then throw .assertion
  let os := (os.put d.fname).put ['(']
  let os ← writeParams target args 0 d.argtypes os
  return os.put [')']

/-- `Parser`, once constructed. -/
structure Parser where
  target : Tid
  syscallMap : AList (fun _ : BitVec 64 => SyscallDef)

/-- A parser that knows one call. -/
def Parser.single (n : BitVec 64) (d : SyscallDef) : Parser :=
  { target := 0, syscallMap := (∅ : AList (fun _ : BitVec 64 => SyscallDef)).insert n d }

theorem lookup_single {n n' : BitVec 64} {d d' : SyscallDef} :
    (Parser.single n d).syscallMap.lookup n' = some d' ↔ n' = n ∧ d = d' := by
  unfold Parser.single
  rcases eq_or_ne n' n with rfl | h
  · rw [AList.lookup_insert, Option.some.injEq, eq_self, true_and]
  · rw [AList.lookup_insert_ne h, AList.lookup_empty]
    simp [h]

/-- `Parser::setpid`. -/
def Parser.setpid (p : Parser) (pid : Tid) : Parser := { p with target := pid }

/-- The loop that prints the six registers. -/
def writeRegs (args : Fin 6 → BitVec 64) (os : OStream) : OStream :=
  (List.finRange 6).foldl (fun os i =>
    ((os.put "0x".toList).putUInt (args i)).put (if i.val < 5 then ", ".toList else [')'])) os

/-- `Parser::operator()`. -/
def Parser.call (p : Parser) (ndebug : Bool) (args : SyscallArgs) : EStateM Fault World Str :=
  noexcept do
    let oss := OStream.new
    match if args.int80 then none else p.syscallMap.lookup args.number with
    | none =>
      let oss := oss.put (if args.int80 then "syscall32(".toList else "syscall(".toList)
      let oss := ((oss.setDec.putUInt args.number).put ", ".toList).setHex
      return (writeRegs args.args oss).text
    | some d => do
      let oss ← d.write ndebug p.target oss args.args
      return oss.text

/-! ## 2. The text -/

/-- The parameters from index `i` on, each but the very first after a separator. -/
def paramsText (m : Memory) (args : Fin 6 → BitVec 64) : Nat → List ArgType → Str
  | _, [] => []
  | i, ty :: tys => (if i > 0 then ", ".toList else []) ++ (argAt args i).elim [] (argText m ty) ++
      paramsText m args (i + 1) tys

/-- A call rendered by its definition. -/
def SyscallDef.text (d : SyscallDef) (m : Memory) (args : Fin 6 → BitVec 64) : Str :=
  d.fname ++ ['('] ++ paramsText m args 0 d.argtypes ++ [')']

/-- One register, with what separates it from the next. -/
def regText (args : Fin 6 → BitVec 64) (i : Fin 6) : Str :=
  "0x".toList ++ Nat.toDigits 16 (args i).toNat ++ if i.val < 5 then ", ".toList else [')']

/-- The six registers. -/
def regsText (args : Fin 6 → BitVec 64) : Str := (List.finRange 6).flatMap (regText args)

/-- A call without a definition, or made through `int 0x80`. -/
def fallbackText (args : SyscallArgs) : Str :=
  (if args.int80 then "syscall32(".toList else "syscall(".toList) ++
    Nat.toDigits 10 args.number.toNat ++ ", ".toList ++ regsText args.args

/-- The definition that renders a call. -/
def Parser.defOf (p : Parser) (args : SyscallArgs) : Option SyscallDef :=
  if args.int80 then none else p.syscallMap.lookup args.number

/-- The text of a call made by a process with memory `m`. -/
def Parser.text (p : Parser) (m : Memory) (args : SyscallArgs) : Str :=
  match p.defOf args with
  | none => fallbackText args
  | some d => d.text m args.args

/-! ## 3. The parser returns the text -/

/-- The number of reads that rendering these types takes. -/
def reads : List ArgType → Nat
  | [] => 0
  | ty :: tys => ty.reads + reads tys

theorem Written.trans {target : Tid} {w w' w'' : World} {n n' : Nat} {os os' os'' : OStream}
    {s t : Str} (h : Written target w n os s os' w') (h' : Written target w' n' os' t os'' w'') :
    Written target w (n + n') os (s ++ t) os'' w'' := by
  obtain ⟨happ, hserved, rfl⟩ := h
  obtain ⟨happ', hserved', rfl⟩ := h'
  refine ⟨happ.trans happ', ?_, ?_⟩
  · rw [World.cost_add, World.serves_add]
    exact ⟨hserved, hserved'⟩
  · rw [World.cost_ticks, World.ticks_ticks, World.cost_add]

/-- A read that comes too late is one too many from the start. -/
theorem Written.unserved {target : Tid} {w w' : World} {n n' : Nat} {os os' : OStream} {s : Str}
    {f : Fault} (h : Written target w n os s os' w') (h' : Unserved target w' n' f) :
    Unserved target w (n + n') f := by
  obtain ⟨-, -, rfl⟩ := h
  refine ⟨h'.1, fun hserves => h'.2 ?_⟩
  rw [World.cost_add, World.serves_add] at hserves
  exact hserves.2

/-- The loop over the parameters: it does not get past the sixth register, and before that
only the death of the target stops it. -/
theorem writeParams_spec (target : Tid) (args : Fin 6 → BitVec 64) (tys : List ArgType) :
    ∀ {i : Nat} {os : OStream} (w : World), i ≤ 6 → os.width = 0 →
      Ends (writeParams target args i tys os) w
        (fun os' w' => i + tys.length ≤ 6 ∧
          Written target w (reads tys) os (paramsText (w.mem target) args i tys) os' w')
        (fun f _ => i + tys.length ≤ 6 → Unserved target w (reads tys) f) := by
  induction tys with
  | nil =>
    intro i os w hi hos
    exact ⟨hi, Written.of_pure (Appended.refl hos)⟩
  | cons ty tys ih =>
    intro i os w hi hos
    unfold writeParams
    have hsep : Appended os (if i > 0 then ", ".toList else [])
        (if i > 0 then os.put ", ".toList else os) := by
      split
      · exact put_appended _ hos
      · exact Appended.refl hos
    by_cases hlt : i < 6
    · have harg : argAt args i = some (args ⟨i, hlt⟩) := dif_pos hlt
      have hcons : reads (ty :: tys) = ty.reads + reads tys := by simp [reads]
      simp only [harg, ends_bind, paramsText, Option.elim_some, List.length_cons, hcons]
      refine (ty.write_spec target hsep.width (args ⟨i, hlt⟩) w).mono ?_ ?_
      · intro os' w' hw
        have hpre := (Written.of_pure hsep).trans hw
        have hmem : w'.mem = w.mem := by rw [hw.world]; rfl
        rw [Nat.zero_add] at hpre
        refine (ih w' hlt hw.appended.width).mono ?_ ?_
        · rintro os'' w'' ⟨hlen, hw'⟩
          rw [hmem] at hw'
          exact ⟨by omega, hpre.trans hw'⟩
        · intro f _ hun hlen
          exact hpre.unserved (hun (by omega))
      · intro f _ hun hlen
        refine ⟨hun.1, fun hserves => hun.2 ?_⟩
        rw [World.cost_add, World.serves_add] at hserves
        exact hserves.1
    · have harg : argAt args i = none := dif_neg hlt
      simp only [harg, ends_throw, List.length_cons]
      intro hlen
      omega

theorem SyscallDef.write_spec (d : SyscallDef) (ndebug : Bool) (target : Tid) {os : OStream}
    (hos : os.width = 0) (args : Fin 6 → BitVec 64) (w : World) :
    Ends (d.write ndebug target os args) w
      (fun os' w' => d.argtypes.length ≤ 6 ∧
        Written target w (reads d.argtypes) os (d.text (w.mem target) args) os' w')
      (fun f _ => d.argtypes.length ≤ 6 → Unserved target w (reads d.argtypes) f) := by
  unfold SyscallDef.write
  by_cases hassert : ndebug = false ∧ ¬ d.argtypes.length ≤ 6
  · rw [if_pos hassert]
    exact fun hlen => absurd hlen hassert.2
  · rw [if_neg hassert]
    simp only [ends_bind, ends_pure]
    have hhead : Appended os (d.fname ++ ['(']) ((os.put d.fname).put ['(']) :=
      (put_appended d.fname hos).put ['(']
    refine (writeParams_spec target args d.argtypes w (Nat.zero_le 6) hhead.width).mono ?_ ?_
    · rintro os' w' ⟨hlen, hw⟩
      rw [Nat.zero_add] at hlen
      have hall := (Written.of_pure hhead).trans hw
      rw [Nat.zero_add] at hall
      exact ⟨hlen, hall.appended.put [')'], hall.served, hall.world⟩
    · intro f _ hun hlen
      exact hun (by omega)

/-- Printing the registers in base 16. -/
theorem writeRegs_appended {os os' : OStream} {s : Str} (args : Fin 6 → BitVec 64)
    (h : Appended os s os') (hhex : os'.hex = true) :
    Appended os (s ++ regsText args) (writeRegs args os') := by
  have hloop : ∀ (is : List (Fin 6)) {os' : OStream} {s : Str}, Appended os s os' →
      os'.hex = true →
      Appended os (s ++ is.flatMap (regText args))
        (is.foldl (fun os i => ((os.put "0x".toList).putUInt (args i)).put
          (if i.val < 5 then ", ".toList else [')'])) os') := by
    intro is
    induction is with
    | nil =>
      intro os' s h _
      simpa using h
    | cons i is ih =>
      intro os' s h hhex
      have hnum : (os'.put "0x".toList).putUInt (args i) =
          (os'.put "0x".toList).put (Nat.toDigits 16 (args i).toNat) := by
        unfold OStream.putUInt
        rw [if_pos (show (os'.put "0x".toList).hex = true from hhex)]
      have hone := ((h.put "0x".toList).put (Nat.toDigits 16 (args i).toNat)).put
        (if i.val < 5 then ", ".toList else [')'])
      rw [List.foldl_cons, hnum, List.flatMap_cons]
      simpa only [regText, List.append_assoc] using ih hone hhex
  exact hloop (List.finRange 6) h hhex

/-- The number of reads that rendering a call takes. -/
def Parser.reads (p : Parser) (args : SyscallArgs) : Nat :=
  (p.defOf args).elim 0 fun d => GravelBox.reads d.argtypes

/-- The definition that renders the call has at most six parameters. -/
def Parser.Fits (p : Parser) (args : SyscallArgs) : Prop :=
  ∀ d, p.defOf args = some d → d.argtypes.length ≤ 6

/-- No exception gets out of a `noexcept` function. -/
theorem inNoexcept_ne (f : Fault) (code : Nat) : f.inNoexcept ≠ .systemError code := by
  cases f <;> simp [Fault.inNoexcept]

/-- **`Parser::operator()`.**  It returns the text of the call.  It does so unless the
definition has more than six parameters or the target is killed before its last string was
read; then the tracer is terminated. -/
theorem Parser.call_spec (p : Parser) (ndebug : Bool) (args : SyscallArgs) (w : World) :
    Ends (p.call ndebug args) w
      (fun s w' => s = p.text (w.mem p.target) args ∧ p.Fits args ∧
        w.Serves (w.cost p.target (p.reads args)) ∧
          w' = w.ticks (w.cost p.target (p.reads args)))
      (fun f _ => (∀ code, f ≠ .systemError code) ∧
        (p.Fits args → f = .terminate ∧ ¬ w.Serves (w.cost p.target (p.reads args)))) := by
  have hnew : Appended OStream.new [] OStream.new := Appended.refl rfl
  simp only [Parser.call, noexcept, ends_mapError]
  cases hd : p.defOf args with
  | none =>
    simp only [Parser.defOf] at hd
    simp only [hd, ends_pure, Parser.text, Parser.reads, Parser.Fits, Parser.defOf,
      Option.elim_none, World.cost_zero, World.ticks_zero]
    refine ⟨?_, fun d hnone => absurd hnone.symm (Option.some_ne_none d), w.serves_zero, trivial⟩
    have hhead := hnew.put (if args.int80 then "syscall32(".toList else "syscall(".toList)
    have hnum := (hhead.setDec.put (Nat.toDigits 10 args.number.toNat)).put ", ".toList
    exact (writeRegs_appended args.args hnum.setHex rfl).text
  | some d =>
    simp only [Parser.defOf] at hd
    simp only [hd, ends_bind, ends_pure, Parser.text, Parser.reads, Parser.Fits, Parser.defOf,
      Option.elim_some, Option.some.injEq, forall_eq']
    refine (d.write_spec ndebug p.target rfl args.args w).mono ?_ ?_
    · rintro os' w' ⟨hlen, hw⟩
      exact ⟨hw.appended.text, hlen, hw.served, hw.world⟩
    · intro f _ hun
      refine ⟨inNoexcept_ne f, fun hlen => ?_⟩
      obtain ⟨rfl, hserves⟩ := hun hlen
      exact ⟨rfl, hserves⟩

end GravelBox
