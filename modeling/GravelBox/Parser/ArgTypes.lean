/-
# Argument types

How each type of `parser/argtypes.h` writes a register value (`parser/argtypes.cpp`, lines 15 to
93).  All but `char*` are functions of the value; `StrType::write` reads the memory of the target.

`argText` is the text a value is given, without a stream: `ArgType.write` appends just this text,
whatever the stream was set to (`write_spec`).  So the modules that reason about texts never see a
stream, and those that reason about streams never see what a text looks like.

What makes this hard is `StrType::write` (lines 42 to 93).  It asks the kernel for 32 bytes in one
request with one or two vectors, split at the page boundary, and the request can come back short,
fail with `EFAULT`, or fail with `ESRCH` because the target was killed; only the second is handled
here.  Of the bytes it shows those before the first NUL, each as itself or as one of four escapes,
and the escape of a byte that does not print is written through a signed `char`: from 0x80 on it is
sign-extended to sixteen bits, so that `\xff` and two more digits come out.

The writers know nothing of the types' names: those are in the table of the constructor of
`Parser` (`parser/parser.h`, lines 56 to 60), by which `flags` is written as an unsigned number.

Not claimed here: which bytes there are to be read (`Parser/StrRead.lean`) and what a reader can
make of the text (`Parser/Escapes.lean`, `Parser/Shown.lean`).
-/
import GravelBox.Parser.OStream
import GravelBox.Trace.World

namespace GravelBox

open Stateful

/-! ## 1. The writers -/

/-- The argument types. -/
inductive ArgType
  | unknown
  | sint32
  | uint32
  | sint64
  | uint64
  | str
  | ptr
  deriving DecidableEq, Repr

def kMaxStrLen : Nat := 32

/-- `std::isprint` in the C locale, for a `char` and the `int` it converts to. -/
def isprint (c : BitVec 8) : Bool := 0x20 ≤ c.toInt && c.toInt ≤ 0x7e

/-- The character a byte stands for. -/
def toChar (c : BitVec 8) : Char := Char.ofNat c.toNat

/-- The `switch` on one character. -/
def writeChar (c : BitVec 8) (os : OStream) : OStream :=
  if c = 0x5c then os.put ['\\', '\\']
  else if c = 0x0a then os.put ['\\', 'n']
  else if c = 0x09 then os.put ['\\', 't']
  else if isprint c then os.put [toChar c]
  else ((((os.put ['\\', 'x']).setHex).setFill '0').setw 2).putUInt (c.signExtend 16)

/-- The loop over the buffer, up to a NUL, and how many characters it wrote. -/
def writeChars : List (BitVec 8) → OStream → OStream × Nat
  | [], os => (os, 0)
  | c :: buf, os =>
    if c = 0 then (os, 0)
    else
      let (os, i) := writeChars buf (writeChar c os)
      (os, i + 1)

/-- The remote vectors: two if the buffer's worth of bytes crosses a page boundary. -/
def strRemotes (value : BitVec 64) : List IoVec :=
  if value / 4096 ≠ (value + BitVec.ofNat 64 kMaxStrLen - 1) / 4096 then
    let len := 4096 - (value % 4096).toNat
    [⟨value, len⟩, ⟨(value / 4096 + 1) * 4096, kMaxStrLen - len⟩]
  else [⟨value, kMaxStrLen⟩]

/-- `StrType::write`. -/
def StrType.write (target : Tid) (os : OStream) (value : BitVec 64) :
    EStateM Fault World OStream := do
  let read ← tryCatch (some <$> processVmReadv target (strRemotes value)) fun
    | .systemError code => if code = EFAULT then return none else throw (.systemError code)
    | f => throw f
  match read with
  | none => return os.put "<fault>".toList
  | some buf => do
    let (os, i) := writeChars buf (os.put ['"'])
    let os := os.put ['"']
    return if i = kMaxStrLen then os.put "...".toList else os

/-- `ArgType::write`. -/
def ArgType.write (ty : ArgType) (target : Tid) (os : OStream) (value : BitVec 64) :
    EStateM Fault World OStream :=
  match ty with
  | .unknown => return ((os.put "[0x".toList).setHex.putUInt value).put "]".toList
  | .sint32 => return os.setDec.putInt (value.truncate 32)
  | .uint32 => return os.setDec.putUInt (value.truncate 32)
  | .sint64 => return os.setDec.putInt value
  | .uint64 => return os.setDec.putUInt value
  | .ptr =>
    if value = 0 then return os.put "NULL".toList
    else return ((os.put "0x".toList).setHex).putUInt value
  | .str => StrType.write target os value

/-! ## 2. The text of a value -/

/-- The text of one character. -/
def charText (c : BitVec 8) : Str :=
  if c = 0x5c then ['\\', '\\']
  else if c = 0x0a then ['\\', 'n']
  else if c = 0x09 then ['\\', 't']
  else if isprint c then [toChar c]
  else
    let digits := Nat.toDigits 16 (c.signExtend 16).toNat
    ['\\', 'x'] ++ (List.replicate (2 - digits.length) '0' ++ digits)

/-- The bytes before the first NUL. -/
def shown (buf : List (BitVec 8)) : List (BitVec 8) := buf.takeWhile (· ≠ 0)

/-- The text of a buffer that was read. -/
def quoted (buf : List (BitVec 8)) : Str :=
  ['"'] ++ (shown buf).flatMap charText ++ ['"'] ++
    if (shown buf).length = kMaxStrLen then "...".toList else []

/-- The text of the string at an address. -/
def strText (m : Memory) (value : BitVec 64) : Str :=
  let buf := m.transfer (strRemotes value)
  if buf = [] then "<fault>".toList else quoted buf

/-- The text of a value. -/
def argText (m : Memory) (ty : ArgType) (value : BitVec 64) : Str :=
  match ty with
  | .unknown => "[0x".toList ++ Nat.toDigits 16 value.toNat ++ "]".toList
  | .sint32 => Codes.decimal (value.truncate 32).toInt
  | .uint32 => Nat.toDigits 10 (value.truncate 32).toNat
  | .sint64 => Codes.decimal value.toInt
  | .uint64 => Nat.toDigits 10 value.toNat
  | .ptr => if value = 0 then "NULL".toList else "0x".toList ++ Nat.toDigits 16 value.toNat
  | .str => strText m value

/-! ## 3. Writing appends the text -/

theorem writeChar_appended {os os' : OStream} {s : Str} (h : Appended os s os') (c : BitVec 8) :
    Appended os (s ++ charText c) (writeChar c os') := by
  unfold writeChar charText
  split
  · exact h.put _
  · split
    · exact h.put _
    · split
      · exact h.put _
      · split
        · exact h.put _
        · -- the width set for the digits is used up by them
          refine ⟨?_, rfl⟩
          have hnone : List.replicate (0 - ['\\', 'x'].length) os'.fill = [] := rfl
          simp only [OStream.putUInt, OStream.setw, OStream.setFill, OStream.setHex, OStream.put,
            if_true, h.width, h.text, hnone, List.nil_append, List.append_assoc]

theorem writeChars_appended (buf : List (BitVec 8)) {os os' : OStream} {s : Str}
    (h : Appended os s os') :
    Appended os (s ++ (shown buf).flatMap charText) (writeChars buf os').1 ∧
      (writeChars buf os').2 = (shown buf).length := by
  induction buf generalizing os' s with
  | nil => simpa [writeChars, shown] using h
  | cons c buf ih =>
    unfold writeChars shown
    by_cases hc : c = 0
    · rw [if_pos hc, List.takeWhile_cons_of_neg (by simpa using hc)]
      simpa using h
    · obtain ⟨htext, hlen⟩ := ih (writeChar_appended h c)
      rw [if_neg hc, List.takeWhile_cons_of_pos (by simpa using hc)]
      rw [List.flatMap_cons, ← List.append_assoc, List.length_cons]
      exact ⟨htext, congrArg (· + 1) hlen⟩

/-! ## 4. The writers, with the reads they make -/

/-- The number of reads that writing this type takes. -/
def ArgType.reads : ArgType → Nat
  | .str => 1
  | _ => 0

/-- Writing `text`, with `n` reads of `target`, led from `os` and `w` to `os'` and `w'`. -/
structure Written (target : Tid) (w : World) (n : Nat) (os : OStream) (text : Str)
    (os' : OStream) (w' : World) : Prop where
  appended : Appended os text os'
  served : w.Serves (w.cost target n)
  world : w' = w.ticks (w.cost target n)

/-- `n` reads of `target` were too many: it was killed. -/
def Unserved (target : Tid) (w : World) (n : Nat) (f : Fault) : Prop :=
  f = .systemError ESRCH ∧ ¬ w.Serves (w.cost target n)

theorem Written.of_pure {target : Tid} {w : World} {os os' : OStream} {text : Str}
    (h : Appended os text os') : Written target w 0 os text os' w := by
  refine ⟨h, ?_, ?_⟩
  · rw [World.cost_zero]
    exact w.serves_zero
  · rw [World.cost_zero, World.ticks_zero]

/-- What is written of a buffer that was read. -/
theorem quoted_appended {os : OStream} (h : os.width = 0) (buf : List (BitVec 8)) :
    Appended os (quoted buf)
      (let (os', i) := writeChars buf (os.put ['"'])
       let os' := os'.put ['"']
       if i = kMaxStrLen then os'.put "...".toList else os') := by
  obtain ⟨htext, hlen⟩ := writeChars_appended buf (put_appended ['"'] h)
  have hclosed := htext.put ['"']
  simp only [hlen, quoted]
  split
  · exact hclosed.put _
  · rw [List.append_nil]
    exact hclosed

theorem StrType.write_spec (target : Tid) {os : OStream} (hos : os.width = 0)
    (value : BitVec 64) (w : World) :
    Ends (StrType.write target os value) w
      (Written target w 1 os (strText (w.mem target) value))
      (fun f _ => Unserved target w 1 f) := by
  simp only [StrType.write, ends_bind, ends_tryCatch, ends_map]
  refine (processVmReadv_spec target (strRemotes value) w).mono ?_ ?_
  · rintro buf w' ⟨rfl, hne, hserves, hw'⟩
    refine ⟨?_, hserves, hw'⟩
    simp only [strText, if_neg hne]
    exact quoted_appended hos _
  · rintro f w' (⟨rfl, hnil, hserves, hw'⟩ | ⟨rfl, hdead⟩)
    · refine ⟨?_, hserves, hw'⟩
      simp only [strText, if_pos hnil]
      exact put_appended _ hos
    · exact ⟨rfl, hdead⟩

/-- **Every writer appends the text of its value**, whatever the stream was set to, and only
the death of the target can stop it. -/
theorem ArgType.write_spec (ty : ArgType) (target : Tid) {os : OStream} (hos : os.width = 0)
    (value : BitVec 64) (w : World) :
    Ends (ty.write target os value) w
      (Written target w ty.reads os (argText (w.mem target) ty value))
      (fun f _ => Unserved target w ty.reads f) := by
  have h := Appended.refl hos
  cases ty with
  | str => exact StrType.write_spec target hos value w
  | unknown =>
    refine Written.of_pure ?_
    exact ((h.put "[0x".toList).setHex.put (Nat.toDigits 16 value.toNat)).put "]".toList
  | sint32 | uint32 | sint64 | uint64 => exact Written.of_pure (h.setDec.put _)
  | ptr =>
    simp only [ArgType.write, argText]
    split
    · exact Written.of_pure (h.put _)
    · exact Written.of_pure ((h.put "0x".toList).setHex.put (Nat.toDigits 16 value.toNat))

end GravelBox
