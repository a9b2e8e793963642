/-
# Arguments do not disturb each other

All arguments of a call are written to one stream (`parser/syscalldef.h`, lines 54 to 64), whose
base and fill stay set from one to the next: a string with a byte that is not printable leaves the
base at 16 and the fill at `0` (`parser/argtypes.cpp`, line 85).  Nothing comes of that.
`SyscallDef::write` produces just what one gets by writing every argument to a stream of its own and
putting the texts together (`write_eq_joined`).

Why it holds is a matter of two habits of the source.  Every insertion of a number is preceded by a
manipulator for its base, and the fill is used only where a width is set, which is just where the
fill is set too.  So what an argument finds in the stream does not matter for its text; but it would
be enough for one type to leave out its `std::dec`, and the texts would depend on their neighbours.

The statement covers every way in which writing can end.  A string whose target is killed throws
from the middle of an argument, and a definition with too many parameters runs out of registers: in
both cases the joined version ends in the same way, in the same state of the world.

Not claimed: anything about the stream before the call.  `Parser::operator()` makes a new one each
time; the theorem is nevertheless about any stream, since `SyscallDef::write` takes one.
-/
import GravelBox.Parser.Parser
import GravelBox.Parser.Shown

namespace GravelBox

open Stateful

/-! ## 1. An argument by itself -/

/-- What a type writes to a fresh stream, for a target that is not killed. -/
def freshText (m : Memory) (ty : ArgType) (value : BitVec 64) : Option Str :=
  match (ty.write 1 OStream.new value).run (withMemory m) with
  | .ok os _ => some os.text
  | .error _ _ => none

/-- A fresh stream gets the text of the value. -/
theorem freshText_eq (m : Memory) (ty : ArgType) (value : BitVec 64) :
    freshText m ty value = some (argText m ty value) := by
  have hnew : OStream.new.width = 0 := rfl
  have hspec := ty.write_spec 1 hnew value (withMemory m)
  unfold freshText
  cases hrun : (ty.write 1 OStream.new value).run (withMemory m) with
  | ok os w =>
    have htext := (hspec.of_ok hrun).appended.text
    exact congrArg some htext
  | error f w => exact absurd (withMemory_serves m _) (hspec.of_error hrun).2

/-! ## 2. The arguments together -/

/-- Each type with its value, as long as there are values. -/
def typedArgs (args : Fin 6 → BitVec 64) (tys : List ArgType) : List (ArgType × BitVec 64) :=
  tys.zip (List.ofFn args)

/-- The texts of all arguments, each of them from a fresh stream. -/
def freshTexts (m : Memory) (args : Fin 6 → BitVec 64) (tys : List ArgType) : List (Option Str) :=
  (typedArgs args tys).map fun a => freshText m a.1 a.2

/-- The parameters after the first: each brings its separator along. -/
theorem paramsText_succ (m : Memory) (args : Fin 6 → BitVec 64) (tys : List ArgType) {i : Nat}
    (h : i + 1 + tys.length ≤ 6) :
    paramsText m args (i + 1) tys = (tys.zip ((List.ofFn args).drop (i + 1))).flatMap
      fun a => ", ".toList ++ argText m a.1 a.2 := by
  induction tys generalizing i with
  | nil => rfl
  | cons ty tys ih =>
    rw [List.length_cons] at h
    have hi : i + 1 < 6 := by omega
    have harg : argAt args (i + 1) = some (args ⟨i + 1, hi⟩) := dif_pos hi
    have hdrop : (List.ofFn args).drop (i + 1) =
        args ⟨i + 1, hi⟩ :: (List.ofFn args).drop (i + 1 + 1) := by
      rw [List.drop_eq_getElem_cons (by simpa using hi), List.getElem_ofFn]
    rw [paramsText, harg, if_pos (Nat.succ_pos i), Option.elim_some, ih (by omega), hdrop,
      List.zip_cons_cons, List.flatMap_cons]

/-- A list of texts, with a separator between each two. -/
theorem intercalate_cons {α : Type} (sep x : List α) (xs : List (List α)) :
    sep.intercalate (x :: xs) = x ++ xs.flatMap (sep ++ ·) := by
  induction xs generalizing x with
  | nil => rw [List.intercalate_singleton, List.flatMap_nil, List.append_nil]
  | cons y ys ih =>
    rw [List.intercalate_cons_cons, ih, List.flatMap_cons]
    simp only [List.append_assoc]

/-- **The parameters are the separate texts, joined.** -/
theorem paramsText_eq_intercalate (m : Memory) (args : Fin 6 → BitVec 64) {tys : List ArgType}
    (h : tys.length ≤ 6) :
    paramsText m args 0 tys =
      ", ".toList.intercalate ((typedArgs args tys).map fun a => argText m a.1 a.2) := by
  cases tys with
  | nil => rfl
  | cons ty tys =>
    rw [List.length_cons] at h
    have hfirst : List.ofFn args = args 0 :: (List.ofFn args).drop 1 := by
      rw [List.ofFn_succ, List.drop_succ_cons, List.drop_zero]
    have harg : argAt args 0 = some (args 0) := rfl
    rw [paramsText, harg, if_neg (Nat.lt_irrefl 0), Option.elim_some,
      paramsText_succ m args tys (by omega), typedArgs, hfirst, List.zip_cons_cons, List.map_cons,
      intercalate_cons, List.flatMap_map, List.nil_append, List.drop_succ_cons, List.drop_zero]

/-! ## 3. The whole call -/

/-- The text of a call from the separate texts of its arguments. -/
def joined (texts : List Str) : Str := ['('] ++ ", ".toList.intercalate texts ++ [')']

/-- **`SyscallDef::write` renders every argument as if it were alone.**  Whatever the stream
was set to, the memory holds and the registers are, the name is followed by the texts that the
arguments have on streams of their own.  The only ways not to return are to have more than
six parameters and to lose the target on the way. -/
theorem write_eq_joined (d : SyscallDef) (ndebug : Bool) (target : Tid) (os : OStream)
    (args : Fin 6 → BitVec 64) (w : World) :
    Ends (d.write ndebug target os args) w
      (fun os' _ => d.argtypes.length ≤ 6 ∧
        ∃ texts, freshTexts (w.mem target) args d.argtypes = texts.map some ∧
          os'.text = (os.put d.fname).text ++ joined texts)
      (fun f _ => d.argtypes.length ≤ 6 → Unserved target w (reads d.argtypes) f) := by
  unfold SyscallDef.write
  by_cases hassert : ndebug = false ∧ ¬ d.argtypes.length ≤ 6
  · rw [if_pos hassert]
    exact fun hlen => absurd hlen hassert.2
  · rw [if_neg hassert]
    simp only [ends_bind, ends_pure]
    have hopen : Appended (os.put d.fname) ['('] ((os.put d.fname).put ['(']) :=
      put_appended _ rfl
    refine (writeParams_spec target args d.argtypes w (Nat.zero_le 6) hopen.width).mono ?_ ?_
    · rintro os' w' ⟨hlen, hw⟩
      rw [Nat.zero_add] at hlen
      refine ⟨hlen, (typedArgs args d.argtypes).map fun a => argText (w.mem target) a.1 a.2, ?_, ?_⟩
      · simp only [freshTexts, freshText_eq, List.map_map]
        rfl
      · have hall := (hopen.trans hw.appended).put [')']
        rw [paramsText_eq_intercalate _ _ hlen] at hall
        rw [hall.text, joined]
    · intro f w' hun hlen
      exact hun (by omega)

end GravelBox
