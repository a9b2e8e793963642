/-
# The output stream

A `std::ostringstream` as far as the writers of `parser/argtypes.cpp`, `parser/syscalldef.h` and
`parser/parser.cpp` use it: the text so far, and the settings that stay with the stream from one
insertion to the next.  A formatted insertion pads on the left up to the width and resets the
width, and nothing else.

The settings are the part that has to be right.  `std::hex`, `std::dec` and `std::setfill` stay
until they are set again, `std::setw` holds for one insertion; all arguments of a call go to one
stream, so whoever writes a number has to know which base was left behind by the last one.  The
source sets the base at every insertion of a number and the fill only where it pads, which is
enough (`Parser/Fresh.lean`), but nothing in the stream makes it so.

`Appends` says that a stream has a text more than another, and leaves the settings open: it is what
the lemmas about writers are stated with, so that they compose without regard to the flags, and the
flags are looked at where they matter.

Not modelled: everything that is never set, such as `showbase`, `uppercase`, `boolalpha`, left and
internal padding and the precision, and locales that group digits; and a stream that fails, which a
stream into a string does not.
-/
import GravelBox.Utils
import GravelBox.Lib.Codes

namespace GravelBox

/-- `std::ostringstream`. -/
structure OStream where
  text : Str
  /-- `std::hex` is set, not `std::dec`. -/
  hex : Bool
  fill : Char
  width : Nat

/-- A fresh `std::ostringstream`. -/
def OStream.new : OStream := { text := [], hex := false, fill := ' ', width := 0 }

/-- `os << s`. -/
def OStream.put (os : OStream) (s : Str) : OStream :=
  { os with text := os.text ++ (List.replicate (os.width - s.length) os.fill ++ s), width := 0 }

/-- `os << std::hex`. -/
def OStream.setHex (os : OStream) : OStream := { os with hex := true }

/-- `os << std::dec`. -/
def OStream.setDec (os : OStream) : OStream := { os with hex := false }

/-- `os << std::setfill(c)`. -/
def OStream.setFill (os : OStream) (c : Char) : OStream := { os with fill := c }

/-- `os << std::setw(n)`. -/
def OStream.setw (os : OStream) (n : Nat) : OStream := { os with width := n }

/-- `os << n`, for an unsigned integer. -/
def OStream.putUInt {w : Nat} (os : OStream) (v : BitVec w) : OStream :=
  os.put (if os.hex then Nat.toDigits 16 v.toNat else Nat.toDigits 10 v.toNat)

/-- `os << n`, for a signed integer; in base 16 its bits are printed. -/
def OStream.putInt {w : Nat} (os : OStream) (v : BitVec w) : OStream :=
  os.put (if os.hex then Nat.toDigits 16 v.toNat else Codes.decimal v.toInt)

/-! ## What was appended -/

/-- `os'` is `os` with `s` appended, and no width is pending. -/
structure Appended (os : OStream) (s : Str) (os' : OStream) : Prop where
  text : os'.text = os.text ++ s
  width : os'.width = 0

/-- An insertion with no width pending appends just its text. -/
theorem put_appended {os : OStream} (s : Str) (h : os.width = 0) : Appended os s (os.put s) := by
  refine ⟨?_, rfl⟩
  simp [OStream.put, h]

theorem Appended.trans {os os' os'' : OStream} {s t : Str} (h : Appended os s os')
    (h' : Appended os' t os'') : Appended os (s ++ t) os'' := by
  refine ⟨?_, h'.width⟩
  rw [h'.text, h.text, List.append_assoc]

/-- One more insertion. -/
theorem Appended.put {os os' : OStream} {s : Str} (h : Appended os s os') (t : Str) :
    Appended os (s ++ t) (os'.put t) := h.trans (put_appended t h.width)

theorem Appended.refl {os : OStream} (h : os.width = 0) : Appended os [] os :=
  ⟨(List.append_nil _).symm, h⟩

/-- Setting a base changes neither text nor width. -/
theorem Appended.setHex {os os' : OStream} {s : Str} (h : Appended os s os') :
    Appended os s os'.setHex := ⟨h.text, h.width⟩

theorem Appended.setDec {os os' : OStream} {s : Str} (h : Appended os s os') :
    Appended os s os'.setDec := ⟨h.text, h.width⟩

end GravelBox
