/-
# Undoing the escapes of a string

Whoever reads the text of a string undoes its escapes from left to right: `\\`, `\n`, `\t`,
`\x` with two hexadecimal digits, and any other character stands for itself (`unescapeAt`).  That
is what the escapes of `StrType::write` (`parser/argtypes.cpp`, lines 71 to 88) are for, and a
purpose that is nowhere in the source; it is stated here, to be compared with.

The writer sets a width of two for the digits, but prints the byte as a 16-bit number after
it was a signed `char`: of a byte from 0x80 on there are four digits, the first two of them
`ff`.  The reader takes those two for the byte, and the last two for characters
(`decode_charText_high`).  So a string can be read back just if it is ASCII
(`unescape_written_iff`).

What makes this hard is the direction in which the failure has to be shown: that a text with a high
byte in it is not read as the string takes more than one byte that comes out wrong, since what
follows might make up for it.  It is settled by lengths.  Each high byte makes what is decoded two
characters longer than the string, and nothing makes it shorter.

The quotation mark needs no escape for this purpose, as the reader is given what is between the
quotes; what its absence does to a whole call is the subject of `Parser/Unambiguous.lean`.

Not claimed: that a person undoes the escapes, or reads them at all.
-/
import GravelBox.Parser.Shown
import GravelBox.Config.Hex
import GravelBox.Lib.Decoding

namespace GravelBox

open Stateful Decoding

/-! ## 1. The reader -/

/-- What a character, before others, stands for. -/
def unescapeAt : Reader Char (BitVec 8)
  | '\\', '\\' :: _ => (0x5c, 1)
  | '\\', 'n' :: _ => (0x0a, 1)
  | '\\', 't' :: _ => (0x09, 1)
  | '\\', 'x' :: d :: d' :: _ =>
    match hexPair d d' with
    | some n => (BitVec.ofNat 8 n, 3)
    | none => (0x5c, 0)
  | c, _ => (BitVec.ofNat 8 c.toNat, 0)

/-- The text between the first quote and the last. -/
def betweenQuotes (text : Str) : Str := ((text.drop 1).reverse.dropWhile (· ≠ '"')).tail.reverse

theorem unescapeAt_self {c : Char} (h : c ≠ '\\') (s : Str) :
    unescapeAt c s = (BitVec.ofNat 8 c.toNat, 0) := by
  unfold unescapeAt
  split
  · exact absurd rfl h
  · exact absurd rfl h
  · exact absurd rfl h
  · exact absurd rfl h
  · rfl

/-- A character that is not the start of an escape is read by itself. -/
theorem decode_self {c : Char} (h : c ≠ '\\') (s : Str) :
    decode unescapeAt (c :: s) = BitVec.ofNat 8 c.toNat :: decode unescapeAt s := by
  rw [decode_cons, unescapeAt_self h, List.drop_zero]

theorem decode_hex {c : Char} (h : c.toNat < 256) (s : Str) :
    decode unescapeAt (['\\', 'x'] ++ byteHex c ++ s) =
      BitVec.ofNat 8 c.toNat :: decode unescapeAt s := by
  have hword : unescapeAt '\\' (('x' :: byteHex c) ++ s) =
      (BitVec.ofNat 8 c.toNat, ('x' :: byteHex c).length) := by
    have hpair := hexPair_byteHex h
    simp only [byteHex, List.cons_append, List.nil_append, unescapeAt, hpair]
    rfl
  exact decode_word hword

/-! ## 2. What becomes of one byte -/

/-- The four ways an ASCII character is written. -/
theorem charText_low : ∀ c : BitVec 8, c.toNat < 128 →
    (charText c = ['\\', '\\'] ∧ c = 0x5c) ∨ (charText c = ['\\', 'n'] ∧ c = 0x0a) ∨
      (charText c = ['\\', 't'] ∧ c = 0x09) ∨
      (charText c = [toChar c] ∧ toChar c ≠ '\\') ∨
      charText c = ['\\', 'x'] ++ byteHex (toChar c) := by
  decide +kernel

/-- A byte from 0x80 on is written as a negative number of 16 bits. -/
theorem charText_high : ∀ c : BitVec 8, 128 ≤ c.toNat →
    charText c = ['\\', 'x', 'f', 'f'] ++ byteHex (toChar c) := by
  decide +kernel

theorem toNat_toChar (c : BitVec 8) : (toChar c).toNat = c.toNat := toNat_ofNat_byte c.isLt

theorem ofNat_toNat_toChar (c : BitVec 8) : BitVec.ofNat 8 (toChar c).toNat = c := by
  rw [toNat_toChar, BitVec.ofNat_toNat, BitVec.setWidth_eq]

/-- **An ASCII character is read back.** -/
theorem decode_charText_low {c : BitVec 8} (h : c.toNat < 128) (s : Str) :
    decode unescapeAt (charText c ++ s) = c :: decode unescapeAt s := by
  rcases charText_low c h with ⟨htext, rfl⟩ | ⟨htext, rfl⟩ | ⟨htext, rfl⟩ | ⟨htext, hne⟩ | htext
  · rw [htext]
    exact decode_word rfl
  · rw [htext]
    exact decode_word rfl
  · rw [htext]
    exact decode_word rfl
  · rw [htext, List.singleton_append, decode_self hne, ofNat_toNat_toChar]
  · rw [htext, decode_hex (by rw [toNat_toChar]; omega), ofNat_toNat_toChar]

/-- The two digits that are left over of a byte from 0x80 on. -/
def leftOver (c : BitVec 8) : List (BitVec 8) :=
  (byteHex (toChar c)).map fun d => BitVec.ofNat 8 d.toNat

theorem length_leftOver (c : BitVec 8) : (leftOver c).length = 2 := rfl

theorem digitChar_ne_backslash {d : Nat} (h : d < 16) : d.digitChar ≠ '\\' := by
  have hall : ∀ d : Fin 16, d.val.digitChar ≠ '\\' := by decide
  exact hall ⟨d, h⟩

/-- **A byte from 0x80 on is read as three bytes**: 0xff and two digits. -/
theorem decode_charText_high {c : BitVec 8} (h : 128 ≤ c.toNat) (s : Str) :
    decode unescapeAt (charText c ++ s) = 0xff :: leftOver c ++ decode unescapeAt s := by
  have hlt : (toChar c).toNat < 256 := by
    rw [toNat_toChar]
    exact c.isLt
  have hword : unescapeAt '\\' (['x', 'f', 'f'] ++ (byteHex (toChar c) ++ s)) = (0xff, 3) := rfl
  have hff := decode_word hword
  rw [charText_high c h, List.append_assoc]
  refine hff.trans (congrArg (0xff :: ·) ?_)
  unfold leftOver byteHex
  rw [List.cons_append, List.singleton_append,
    decode_self (digitChar_ne_backslash (d := (toChar c).toNat / 16) (by omega)),
    decode_self (digitChar_ne_backslash (d := (toChar c).toNat % 16) (by omega))]
  rfl

/-! ## 3. What becomes of a string -/

/-- The bytes that the text of a byte is read as. -/
def readBack (c : BitVec 8) : List (BitVec 8) :=
  if c.toNat < 128 then [c] else 0xff :: leftOver c

theorem decode_charText (c : BitVec 8) (s : Str) :
    decode unescapeAt (charText c ++ s) = readBack c ++ decode unescapeAt s := by
  unfold readBack
  by_cases h : c.toNat < 128
  · rw [if_pos h, decode_charText_low h, List.singleton_append]
  · rw [if_neg h, decode_charText_high (Nat.le_of_not_lt h)]

/-- Reading back makes a string longer by two for each byte from 0x80 on. -/
theorem length_readBack (b : List (BitVec 8)) :
    (b.flatMap readBack).length = b.length + 2 * b.countP (fun c => 128 ≤ c.toNat) := by
  induction b with
  | nil => rfl
  | cons c b ih =>
    rw [List.flatMap_cons, List.length_append, ih, List.length_cons, List.countP_cons]
    unfold readBack
    by_cases h : c.toNat < 128
    · rw [if_pos h, if_neg (by simpa using h), List.length_singleton]
      omega
    · rw [if_neg h, if_pos (by simpa using h), List.length_cons, length_leftOver]
      omega

/-- **The escapes can be undone** for an ASCII string, and for no other. -/
theorem decode_escaped_iff (b : List (BitVec 8)) :
    decode unescapeAt (b.flatMap charText) = b ↔ ∀ c ∈ b, c.toNat < 128 := by
  rw [decode_flatMap decode_charText]
  constructor
  · intro h c hc
    have hlen := congrArg List.length h
    rw [length_readBack] at hlen
    have hnone : b.countP (fun c => 128 ≤ c.toNat) = 0 := by omega
    have hlow := List.countP_eq_zero.mp hnone c hc
    simpa using hlow
  · intro h
    induction b with
    | nil => rfl
    | cons c b ih =>
      have hc := h c List.mem_cons_self
      rw [List.flatMap_cons, ih fun d hd => h d (List.mem_cons_of_mem c hd), readBack, if_pos hc,
        List.singleton_append]

/-- The text between the quotes. -/
theorem betweenQuotes_eq {body mark : Str} (h : '"' ∉ mark) :
    betweenQuotes (['"'] ++ body ++ ['"'] ++ mark) = body := by
  have hmark : ∀ c ∈ mark.reverse, decide (c ≠ '"') = true := by
    intro c hc
    rw [decide_eq_true_eq]
    rintro rfl
    exact h (List.mem_reverse.mp hc)
  have hrev : ((['"'] ++ body ++ ['"'] ++ mark).drop 1).reverse =
      mark.reverse ++ '"' :: body.reverse := by
    simp
  rw [betweenQuotes, hrev, List.dropWhile_append_of_pos hmark, List.dropWhile_cons_of_neg (by simp),
    List.tail_cons, List.reverse_reverse]

/-! ## 4. What becomes of an argument -/

/-- **The bytes at a `char*` argument can be read off its text** if and only if all of them
are ASCII. -/
theorem unescape_written_iff {target : Tid} {os : OStream} {value : BitVec 64} {w : World}
    {b : List (BitVec 8)} (hos : os.width = 0) (hb : Found (w.mem target) value b)
    (hread : (w.mem target).mapped value = true) (hserves : w.Serves (w.cost target 1)) :
    ∃ os' w' text, (StrType.write target os value).run w = .ok os' w' ∧
      os'.text = os.text ++ text ∧
      (decode unescapeAt (betweenQuotes text) = b ↔ ∀ c ∈ b, c.toNat < 128) := by
  obtain ⟨_, w', hrun, rfl⟩ := StrType.run_write os hread hserves
  refine ⟨_, w', _, hrun, (quoted_appended hos _).text, ?_⟩
  have hmark : ∀ n, '"' ∉ (if n = kMaxStrLen then "...".toList else []) := by
    intro n
    split
    · decide
    · exact List.not_mem_nil
  rw [quoted, betweenQuotes_eq (hmark _), hb.shown_eq]
  exact decode_escaped_iff b

/-- The bytes of a string from the start of page 1 on, then NULs. -/
def stringAt (b : List (BitVec 8)) : Memory :=
  { readable := fun _ => true, byte := fun a => (b[a.toNat - 0x1000]?).getD 0 }

/-- A backslash, a line feed, a quote, a bell and the letter `a`. -/
def mixedBytes : List (BitVec 8) := [0x5c, 0x0a, 0x22, 0x07, 0x61]

/-- They are read back, whether they were escaped or not. -/
theorem unescape_written_mixed :
    ∃ os' w' text, (StrType.write 1 OStream.new 0x1000).run (withMemory (stringAt mixedBytes)) =
        .ok os' w' ∧
      os'.text = OStream.new.text ++ text ∧
      decode unescapeAt (betweenQuotes text) = mixedBytes := by
  have hb : Found ((withMemory (stringAt mixedBytes)).mem 1) 0x1000 mixedBytes :=
    ⟨by decide, by decide, fun _ _ => rfl, by decide +kernel, fun _ _ => by decide +kernel⟩
  have hnew : OStream.new.width = 0 := rfl
  obtain ⟨os', w', text, hrun, htext, hiff⟩ :=
    unescape_written_iff hnew hb rfl (withMemory_serves _ _)
  exact ⟨os', w', text, hrun, htext, hiff.mpr (by decide)⟩

/-- **A file name that is not ASCII cannot be read back.**  The two bytes of an `é` are
written with four digits each, and read as six bytes. -/
theorem unescape_utf8_fails :
    ∃ os' w', (StrType.write 1 OStream.new 0x1000).run (withMemory (stringAt [0xc3, 0xa9])) =
        .ok os' w' ∧
      Found (stringAt [0xc3, 0xa9]) 0x1000 [0xc3, 0xa9] ∧
      os'.text = "\"\\xffc3\\xffa9\"".toList ∧
      decode unescapeAt (betweenQuotes os'.text) ≠ [0xc3, 0xa9] := by
  have hread : ((withMemory (stringAt [0xc3, 0xa9])).mem 1).mapped 0x1000 = true := rfl
  obtain ⟨_, w', hrun, rfl⟩ := StrType.run_write OStream.new hread (withMemory_serves _ _)
  have htext : (writeQuoted (((withMemory (stringAt [0xc3, 0xa9])).mem 1).transfer
      (strRemotes 0x1000)) OStream.new).text = "\"\\xffc3\\xffa9\"".toList := by
    decide +kernel
  have hfound : Found (stringAt [0xc3, 0xa9]) 0x1000 [0xc3, 0xa9] :=
    ⟨by decide, by simp, fun _ _ => rfl, by decide +kernel, fun _ _ => by decide +kernel⟩
  refine ⟨_, w', hrun, hfound, htext, ?_⟩
  rw [htext]
  decide +kernel

end GravelBox
