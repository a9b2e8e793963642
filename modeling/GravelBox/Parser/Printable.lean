/-
# The text of a call is printable

Whatever the registers and the memory of the target hold, what the parser writes besides
the name of the call is printable ASCII: `StrType::write` escapes every other byte
(`parser/argtypes.cpp`, lines 71 to 88), and all other types write digits and punctuation.  In
particular it has no line feed (`text_printable`).

The name of a call is not among it: it comes from the definition file and is written as it stands
there (`parser/syscalldef.h`, line 57).  So a text is a name and something printable behind it, and
whoever needs the whole to be printable has to ask it of the names; the constructor does not.

What this is needed for is the connection to pinentry, where a line feed ends a command.  A target
chooses the bytes of its path names; that it cannot put a line feed into a command, and with it a
command of its own, is by way of this result (`Ui/Lockstep.lean`).

The bytes that are written as they are, are those for which `std::isprint` holds, and it is called
with a `char` that may be negative.  That is undefined by the standard; in the C library that the
program is built with it is false, as the table it is looked up in reaches down to -128.

Not claimed: that a printable text is a harmless one.  A `%` is printable, and pinentry undoes
percent escapes; that is the subject of `Ui/Assuan.lean`.
-/
import GravelBox.Parser.Parser

namespace GravelBox

open Stateful

/-- A printable character of ASCII. -/
def printable (c : Char) : Bool := 0x20 ≤ c.toNat && c.toNat ≤ 0x7e

/-- A text of printable characters. -/
def Printable (s : Str) : Prop := ∀ c ∈ s, printable c = true

instance (s : Str) : Decidable (Printable s) :=
  decidable_of_iff (s.all printable = true) List.all_eq_true

theorem Printable.ite {s t : Str} (hs : Printable s) (ht : Printable t) (p : Prop) [Decidable p] :
    Printable (if p then s else t) := by
  split
  · exact hs
  · exact ht

theorem printable_nil : Printable [] := nofun

theorem Printable.append {s t : Str} (hs : Printable s) (ht : Printable t) :
    Printable (s ++ t) := by
  intro c hc
  rcases List.mem_append.mp hc with hc | hc
  · exact hs c hc
  · exact ht c hc

/-- A line feed is not printable. -/
theorem Printable.notMem_lf {s : Str} (h : Printable s) : '\n' ∉ s := by
  intro hmem
  exact absurd (h '\n' hmem) (by decide)

/-! ## 1. The text of a value -/

theorem printable_digitChar {d : Nat} (h : d < 16) : printable d.digitChar = true := by
  have hall : ∀ d : Fin 16, printable d.val.digitChar = true := by decide
  exact hall ⟨d, h⟩

theorem printable_toDigits {b n : Nat} (hb : 1 < b) (h : b ≤ 16) :
    Printable (Nat.toDigits b n) := by
  intro c hc
  obtain ⟨d, hd, rfl⟩ := Codes.mem_toDigits hb hc
  exact printable_digitChar (by omega)

theorem printable_decimal (i : Int) : Printable (Codes.decimal i) := by
  intro c hc
  rcases Codes.mem_decimal hc with rfl | ⟨d, hd, rfl⟩
  · rfl
  · exact printable_digitChar (by omega)

/-- Every byte is printable as it is written. -/
theorem printable_charText : ∀ b : BitVec 8, Printable (charText b) := by
  have hall : ∀ b : BitVec 8, (charText b).all printable = true := by decide +kernel
  intro b c hc
  exact List.all_eq_true.mp (hall b) c hc

theorem printable_quoted (buf : List (BitVec 8)) : Printable (quoted buf) := by
  have hquote : Printable ['"'] := by decide
  have hbody : Printable ((shown buf).flatMap charText) := by
    intro c hc
    obtain ⟨b, -, hcb⟩ := List.mem_flatMap.mp hc
    exact printable_charText b c hcb
  have hdots : Printable "...".toList := by decide
  exact ((hquote.append hbody).append hquote).append (hdots.ite (by decide) _)

theorem printable_argText (m : Memory) (ty : ArgType) (value : BitVec 64) :
    Printable (argText m ty value) := by
  have hx : Printable "0x".toList := by decide
  cases ty with
  | unknown =>
    have hopen : Printable "[0x".toList := by decide
    have hclose : Printable "]".toList := by decide
    have hdigits := printable_toDigits (b := 16) (n := value.toNat) (by decide) (by decide)
    exact (hopen.append hdigits).append hclose
  | sint32 | sint64 => exact printable_decimal _
  | uint32 | uint64 => exact printable_toDigits (by decide) (by decide)
  | ptr =>
    have hnull : Printable "NULL".toList := by decide
    have hdigits := printable_toDigits (b := 16) (n := value.toNat) (by decide) (by decide)
    exact hnull.ite (hx.append hdigits) _
  | str =>
    have hfault : Printable "<fault>".toList := by decide
    exact hfault.ite (printable_quoted _) _

/-! ## 2. The text of a call -/

theorem printable_paramsText (m : Memory) (args : Fin 6 → BitVec 64) (tys : List ArgType)
    (i : Nat) : Printable (paramsText m args i tys) := by
  induction tys generalizing i with
  | nil => exact printable_nil
  | cons ty tys ih =>
    have hsep : Printable ", ".toList := by decide
    have harg : Printable ((argAt args i).elim [] (argText m ty)) := by
      cases argAt args i with
      | none => exact printable_nil
      | some value => exact printable_argText m ty value
    exact ((hsep.ite (by decide) _).append harg).append (ih (i + 1))

theorem printable_regText (args : Fin 6 → BitVec 64) (i : Fin 6) :
    Printable (regText args i) := by
  have hx : Printable "0x".toList := by decide
  have hsep : Printable ", ".toList := by decide
  have hdigits := printable_toDigits (b := 16) (n := (args i).toNat) (by decide) (by decide)
  exact (hx.append hdigits).append (hsep.ite (by decide) _)

theorem printable_fallbackText (args : SyscallArgs) : Printable (fallbackText args) := by
  have hname : Printable "syscall32(".toList := by decide
  have hsep : Printable ", ".toList := by decide
  have hregs : Printable (regsText args.args) := by
    intro c hc
    obtain ⟨i, -, hci⟩ := List.mem_flatMap.mp hc
    exact printable_regText args.args i c hci
  have hdigits := printable_toDigits (b := 10) (n := args.number.toNat) (by decide) (by decide)
  exact (((hname.ite (by decide) _).append hdigits).append hsep).append hregs

/-- The name that the table has for a call, if it has one. -/
def Parser.fname (p : Parser) (args : SyscallArgs) : Str := (p.defOf args).elim [] SyscallDef.fname

/-- **Outside the name, the text of a call is printable**, whatever the target put into its
registers and its memory. -/
theorem text_printable (p : Parser) (m : Memory) (args : SyscallArgs) :
    ∃ body, p.text m args = p.fname args ++ body ∧ Printable body := by
  unfold Parser.text Parser.fname
  cases hd : p.defOf args with
  | none => exact ⟨fallbackText args, rfl, printable_fallbackText args⟩
  | some d =>
    have hopen : Printable ['('] := by decide
    have hclose : Printable [')'] := by decide
    refine ⟨['('] ++ paramsText m args.args 0 d.argtypes ++ [')'], ?_, ?_⟩
    · simp only [SyscallDef.text, Option.elim_some, List.append_assoc]
    · exact (hopen.append (printable_paramsText m args.args d.argtypes 0)).append hclose

/-- No name of the table has a line feed. -/
def Parser.NamesOneLine (p : Parser) : Prop :=
  ∀ n d, p.syscallMap.lookup n = some d → '\n' ∉ d.fname

/-- The text of a call is one line, if the names are. -/
theorem text_oneLine {p : Parser} (hp : p.NamesOneLine) (m : Memory) (args : SyscallArgs) :
    '\n' ∉ p.text m args := by
  obtain ⟨body, htext, hbody⟩ := text_printable p m args
  have hname : '\n' ∉ p.fname args := by
    unfold Parser.fname Parser.defOf
    by_cases hint : args.int80 = true
    · rw [if_pos hint]
      exact List.not_mem_nil
    · rw [if_neg hint]
      cases hlook : p.syscallMap.lookup args.number with
      | none => exact List.not_mem_nil
      | some d => exact hp _ d hlook
  rw [htext, List.mem_append]
  rintro (h | h)
  · exact hname h
  · exact hbody.notMem_lf h

end GravelBox
