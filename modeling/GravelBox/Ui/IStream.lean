/-
# Reading a number from a string

A `std::istringstream` as far as `PinentryConn::recv` uses it (`ui/pinentry_conn.cpp`, lines 31 to
35): one extraction of a `uint32_t`, then one character and the rest.  An extraction skips blanks,
takes a sign and as many digits as there are.  It stores 0 if there are none, the largest value if
the number does not fit, and nothing at all if only blanks are left: then the variable keeps what it
held, which in `recv` is whatever was in its memory.

`code_eq_zero_iff` says when the stored value is 0.

The last case is the one that a reader of the source does not see.  The extraction has a first step,
the construction of a sentry, which fails at the end of the text, and a failed sentry means that
nothing is extracted and nothing stored.  Only when that succeeded does the rule apply that a
failure stores 0.  So `ERR ` with nothing behind it and `ERR x` differ: the second stores 0, the
first leaves `uint32_t code` uninitialised, and the model has the old value as a parameter.

After a failure the two reads that follow fail as well, and the variable for the message keeps what
it held, the last data line.  A number with a minus wraps around, as for `strtoul`, if its size
fits.

Not modelled: bases other than ten, digit grouping, and streams that throw; the `istringstream` of
`recv` has no exceptions set, unlike the streams of the connection.
-/
import GravelBox.Utils

namespace GravelBox

/-! ## 1. The extraction -/

/-- What an extraction leaves: the variable, whether the stream is still good, and what it
has not read. -/
structure Extracted where
  value : BitVec 32
  good : Bool
  rest : Str

/-- `iss >> v` for a `uint32_t v` that holds `junk`. -/
def extract (junk : BitVec 32) (s : Str) : Extracted :=
  match s.dropWhile isspace with
  | [] => { value := junk, good := false, rest := [] }
  | c :: s =>
    let (negative, s) := takeSign (c :: s)
    let digits := s.takeWhile Char.isDigit
    let rest := s.dropWhile Char.isDigit
    let n := Nat.ofDigitChars 10 digits 0
    if digits = [] then { value := 0, good := false, rest := rest }
    else if n > 0xffffffff then { value := 0xffffffff, good := false, rest := rest }
    else
      -- at the end of the string the stream is not good either
      { value := if negative then -BitVec.ofNat 32 n else BitVec.ofNat 32 n
        good := rest ≠ []
        rest := rest }

/-! ## 2. When it stores 0 -/

/-- The text of a number, if it has no digit but 0; or no text, and 0 was there before. -/
def zeroText (junk : BitVec 32) (s : Str) : Bool :=
  match s.dropWhile isspace with
  | [] => junk = 0
  | c :: s => ((takeSign (c :: s)).2.takeWhile Char.isDigit).all (· = '0')

theorem digit_sub_eq_zero_iff {c : Char} (h : c.isDigit = true) :
    c.toNat - '0'.toNat = 0 ↔ c = '0' := by
  have hge : '0'.toNat ≤ c.toNat := by
    unfold Char.isDigit at h
    simp only [Bool.and_eq_true, decide_eq_true_eq] at h
    exact UInt32.le_iff_toNat_le.mp h.1
  constructor
  · intro hsub
    have heq : c.toNat = '0'.toNat := by omega
    exact Char.toNat_inj.mp heq
  · rintro rfl
    rfl

/-- A decimal numeral is 0 if and only if all its digits are. -/
theorem ofDigitChars_eq_zero_iff {s : Str} (h : ∀ c ∈ s, c.isDigit = true) {n : Nat} :
    Nat.ofDigitChars 10 s n = 0 ↔ n = 0 ∧ ∀ c ∈ s, c = '0' := by
  induction s generalizing n with
  | nil => simp [Nat.ofDigitChars_nil]
  | cons c s ih =>
    have hc := digit_sub_eq_zero_iff (h c List.mem_cons_self)
    rw [Nat.ofDigitChars_cons, ih fun d hd => h d (List.mem_cons_of_mem c hd),
      List.forall_mem_cons, ← hc]
    constructor
    · rintro ⟨hsum, hs⟩
      exact ⟨by omega, by omega, hs⟩
    · rintro ⟨hn, hd, hs⟩
      exact ⟨by omega, hs⟩

/-- A number below 2^32 and its negation modulo 2^32 are 0 only if the number is. -/
theorem ofNat_eq_zero_iff {n : Nat} (h : ¬ n > 0xffffffff) :
    BitVec.ofNat 32 n = 0 ↔ n = 0 := by
  rw [← BitVec.toNat_inj, BitVec.toNat_ofNat]
  have hzero : (0 : BitVec 32).toNat = 0 := rfl
  rw [hzero]
  omega

/-- **The value stored is 0** if and only if the text has no digit other than 0, whatever
its sign, and, if it has no text at all, the variable held 0. -/
theorem extract_eq_zero_iff (junk : BitVec 32) (s : Str) :
    (extract junk s).value = 0 ↔ zeroText junk s = true := by
  unfold extract zeroText
  cases s.dropWhile isspace with
  | nil => simp
  | cons c s =>
    simp only
    generalize takeSign (c :: s) = signed
    obtain ⟨negative, t⟩ := signed
    have hdigits : ∀ d ∈ t.takeWhile Char.isDigit, d.isDigit = true :=
      fun d hd => List.all_eq_true.mp List.all_takeWhile d hd
    have hzero := ofDigitChars_eq_zero_iff hdigits (n := 0)
    rw [List.all_eq_true]
    simp only [decide_eq_true_eq]
    split
    · rename_i hnil
      simp [hnil]
    · split
      · rename_i hbig
        have hne : ¬ Nat.ofDigitChars 10 (t.takeWhile Char.isDigit) 0 = 0 := by omega
        constructor
        · intro h
          have hmax : ¬ (0xffffffff : BitVec 32) = 0 := by decide
          exact absurd h hmax
        · intro h
          exact absurd (hzero.mpr ⟨rfl, h⟩) hne
      · rename_i hsmall
        have hval := ofNat_eq_zero_iff hsmall
        simp only [true_and] at hzero
        rw [← hzero, ← hval]
        cases negative with
        | false => rw [if_neg Bool.false_ne_true]
        | true =>
          rw [if_pos rfl]
          exact BitVec.neg_eq_zero_iff

end GravelBox
