/-
# The password hash in hexadecimal

The configuration writes the hash of the password as pairs of hexadecimal digits, 128 of them
(`README.md`).  `hex2bytes` (`config/file_config.cpp`, lines 61 to 76) hands every pair to
`std::stoul`, which also takes a blank or a sign before a digit and stops without complaint at the
first character that is not one.  `hexPairs_ok_iff` is what comes of that: a string of even length
is refused only if one of its pairs is no number at all.  So the function meets its purpose
(`HexDecoded`) on exactly the strings of `hex2bytes_decoded_iff`.

What makes this more than a table of pairs is that `std::stoul` is specified for strings of any
length, through the prefix that it converts: the model follows that specification (`stoul16`), and
what it comes to for two characters is proved from there.  A pair may begin with a blank or a
sign; `-1` is the largest `unsigned long`, of which the byte `ff` is kept; `0x` is the number 0
and an `x` that is left over; and a NUL ends the pair before its time.

In the other direction `hexText` writes bytes down, and reading them gives the bytes again, whatever
they are (`Spells.hexPairs_eq`).

Not claimed: anything about the size of the hash, which the constructor checks afterwards, and
about locales; `std::stoul` is taken in the one that a program starts with.
-/
import GravelBox.Config.FileConfig
import GravelBox.Lib.Fallible

namespace GravelBox

open Fallible

/-! ## 1. Digits -/

/-- The character is a hexadecimal digit. -/
def isHex (c : Char) : Bool := (hexDigit c).isSome

/-- The number that two hexadecimal digits stand for. -/
def hexPair (c c' : Char) : Option Nat := do
  let d ← hexDigit c
  let d' ← hexDigit c'
  return 16 * d + d'

/-- The two digits of a byte. -/
def byteHex (c : Char) : Str := [(c.toNat / 16).digitChar, (c.toNat % 16).digitChar]

/-- The hexadecimal encoding of a byte string. -/
def hexText (bytes : Str) : Str := bytes.flatMap byteHex

/-- Every character is a byte. -/
def IsBytes (s : Str) : Prop := ∀ c ∈ s, c.toNat < 256

instance (s : Str) : Decidable (IsBytes s) := List.decidableBAll (fun c : Char => c.toNat < 256) s

theorem toNat_ofNat_byte {n : Nat} (h : n < 256) : (Char.ofNat n).toNat = n := by
  unfold Char.ofNat
  rw [dif_pos (Or.inl (by omega))]
  rfl

/-- A hexadecimal digit is an ASCII character. -/
theorem toNat_lt_of_hexDigit {c : Char} {d : Nat} (h : hexDigit c = some d) : c.toNat < 128 := by
  have hz : 'f'.toNat = 102 := rfl
  have hZ : 'F'.toNat = 70 := rfl
  unfold hexDigit at h
  by_cases hdigit : c.isDigit = true
  · simp only [Char.isDigit, Bool.and_eq_true, decide_eq_true_eq] at hdigit
    have hle : c.toNat ≤ 57 := UInt32.le_iff_toNat_le.mp hdigit.2
    omega
  · rw [if_neg hdigit] at h
    by_cases hlower : 'a' ≤ c ∧ c ≤ 'f'
    · have hle : c.toNat ≤ 'f'.toNat := UInt32.le_iff_toNat_le.mp hlower.2
      omega
    · rw [if_neg hlower] at h
      by_cases hupper : 'A' ≤ c ∧ c ≤ 'F'
      · have hle : c.toNat ≤ 'F'.toNat := UInt32.le_iff_toNat_le.mp hupper.2
        omega
      · rw [if_neg hupper] at h
        cases h

/-- The value of a digit is below 16, and the digit of that value is the same letter. -/
theorem hexDigit_spec {c : Char} {d : Nat} (h : hexDigit c = some d) :
    d < 16 ∧ d.digitChar = c.toLower := by
  have hall : ∀ n : Fin 128, (hexDigit (Char.ofNat n)).all
      (fun d => d < 16 && d.digitChar == (Char.ofNat n).toLower) = true := by decide
  have hc := hall ⟨c.toNat, toNat_lt_of_hexDigit h⟩
  rw [Char.ofNat_toNat, h, Option.all_some, Bool.and_eq_true, decide_eq_true_eq, beq_iff_eq] at hc
  exact hc

theorem hexDigit_digitChar {d : Nat} (h : d < 16) : hexDigit d.digitChar = some d := by
  have hall : ∀ d : Fin 16, hexDigit d.val.digitChar = some d.val := by decide
  exact hall ⟨d, h⟩

theorem hexPair_byteHex {c : Char} (h : c.toNat < 256) :
    hexPair (c.toNat / 16).digitChar (c.toNat % 16).digitChar = some c.toNat := by
  unfold hexPair
  rw [hexDigit_digitChar (by omega), hexDigit_digitChar (by omega)]
  exact congrArg some (Nat.div_add_mod c.toNat 16)

/-- A digit is neither a blank nor a sign nor a NUL. -/
theorem hexDigit_plain {c : Char} (h : isHex c = true) :
    isspace c = false ∧ c ≠ '-' ∧ c ≠ '+' ∧ c ≠ Char.ofNat 0 := by
  obtain ⟨d, hd⟩ := Option.isSome_iff_exists.mp h
  have hall : ∀ n : Fin 128, (hexDigit (Char.ofNat n)).isSome = true →
      isspace (Char.ofNat n) = false ∧ Char.ofNat n ≠ '-' ∧ Char.ofNat n ≠ '+' ∧
        Char.ofNat n ≠ Char.ofNat 0 := by decide
  have hc := hall ⟨c.toNat, toNat_lt_of_hexDigit hd⟩
  rw [Char.ofNat_toNat] at hc
  exact hc h

/-! ## 2. What `std::stoul` takes -/

/-- `std::stoul` takes the pair: a digit comes first, or right after a blank or a sign. -/
def isNumber (c c' : Char) : Bool :=
  isHex c || ((isspace c || c = '+' || c = '-') && isHex c')

theorem takeSign_cons {c : Char} (hm : c ≠ '-') (hp : c ≠ '+') (s : Str) :
    takeSign (c :: s) = (false, c :: s) := by
  unfold takeSign
  split
  · rename_i h
    exact absurd (List.cons.inj h).1 hm
  · rename_i h
    exact absurd (List.cons.inj h).1 hp
  · rfl

theorem stoul16_digits {c c' : Char} {d d' : Nat} (h : hexDigit c = some d)
    (h' : hexDigit c' = some d') : stoul16 [c, c'] = some (BitVec.ofNat 64 (16 * d + d')) := by
  obtain ⟨hs, hm, hp, hz⟩ := hexDigit_plain (Option.isSome_of_eq_some h)
  obtain ⟨-, -, -, hz'⟩ := hexDigit_plain (Option.isSome_of_eq_some h')
  have hstart : [c, c'].takeWhile (· ≠ Char.ofNat 0) = [c, c'] := by simp [hz, hz']
  have hblank : [c, c'].dropWhile isspace = [c, c'] := by simp [hs]
  have hdigits : ([c, c'].takeWhile fun c => (hexDigit c).isSome) = [c, c'] := by simp [h, h']
  have hvalues : [c, c'].filterMap hexDigit = [d, d'] := by simp [h, h']
  simp only [stoul16, hstart, hblank, takeSign_cons hm hp, hdigits, hvalues]
  simp

/-- A blank in front is skipped. -/
theorem stoul16_blank {c : Char} (h : isspace c = true) (s : Str) :
    stoul16 (c :: s) = stoul16 s := by
  have hz : c ≠ Char.ofNat 0 := by
    rintro rfl
    exact absurd h (by decide)
  have hstart : (c :: s).takeWhile (· ≠ Char.ofNat 0) = c :: s.takeWhile (· ≠ Char.ofNat 0) := by
    simp [hz]
  simp only [stoul16, hstart, List.dropWhile_cons, h, if_true]

/-- What begins with a digit is a number. -/
theorem stoul16_isSome_of_digit {c : Char} (h : isHex c = true) (s : Str) :
    (stoul16 (c :: s)).isSome = true := by
  obtain ⟨hs, hm, hp, hz⟩ := hexDigit_plain h
  obtain ⟨d, hd⟩ := Option.isSome_iff_exists.mp h
  simp [stoul16, hz, hs, takeSign_cons hm hp, hd]

/-- What begins with a character that has no business in a number is none. -/
theorem stoul16_eq_none {c : Char} (h : isHex c = false) (hs : isspace c = false) (hm : c ≠ '-')
    (hp : c ≠ '+') (s : Str) : stoul16 (c :: s) = none := by
  have hd : (hexDigit c).isSome = false := h
  rcases eq_or_ne c (Char.ofNat 0) with rfl | hz
  · rfl
  · simp [stoul16, hz, hs, takeSign_cons hm hp, hd]

/-- Behind a sign only a digit makes a number. -/
theorem stoul16_sign {c : Char} (h : c = '-' ∨ c = '+') (c' : Char) :
    (stoul16 [c, c']).isSome = isHex c' := by
  rcases eq_or_ne c' (Char.ofNat 0) with rfl | hz
  · rcases h with rfl | rfl
    · rfl
    · rfl
  · unfold isHex
    cases hd : hexDigit c' with
    | none =>
      rcases h with rfl | rfl
      · simp [stoul16, takeSign, isspace, hz, hd]
      · simp [stoul16, takeSign, isspace, hz, hd]
    | some d =>
      rcases h with rfl | rfl
      · simp [stoul16, takeSign, isspace, hz, hd]
      · simp [stoul16, takeSign, isspace, hz, hd]

/-- One character is a number if it is a digit. -/
theorem stoul16_single (c : Char) : (stoul16 [c]).isSome = isHex c := by
  by_cases hc : isHex c = true
  · rw [stoul16_isSome_of_digit hc, hc]
  · rw [Bool.not_eq_true] at hc
    rw [hc]
    by_cases hs : isspace c = true
    · rw [stoul16_blank hs]
      rfl
    · by_cases hsign : c = '-' ∨ c = '+'
      · rcases hsign with rfl | rfl
        · rfl
        · rfl
      · rw [not_or] at hsign
        rw [stoul16_eq_none hc (Bool.not_eq_true _ ▸ hs) hsign.1 hsign.2]
        rfl

/-- **What `std::stoul` takes for a pair of digits.** -/
theorem stoul16_isSome (c c' : Char) : (stoul16 [c, c']).isSome = isNumber c c' := by
  unfold isNumber
  by_cases hc : isHex c = true
  · rw [stoul16_isSome_of_digit hc, hc, Bool.true_or]
  · rw [Bool.not_eq_true] at hc
    rw [hc, Bool.false_or]
    by_cases hs : isspace c = true
    · rw [stoul16_blank hs, stoul16_single, hs, Bool.true_or, Bool.true_or, Bool.true_and]
    · rw [Bool.not_eq_true] at hs
      by_cases hsign : c = '-' ∨ c = '+'
      · rw [stoul16_sign hsign]
        rcases hsign with rfl | rfl
        · rfl
        · rfl
      · rw [not_or] at hsign
        rw [stoul16_eq_none hc hs hsign.1 hsign.2, hs, decide_eq_false hsign.1,
          decide_eq_false hsign.2]
        rfl

/-! ## 3. The loop over the pairs -/

/-- Every pair of the text passes a test. -/
def allPairs (p : Char → Char → Bool) : Str → Bool
  | c :: c' :: rest => p c c' && allPairs p rest
  | _ => true

/-- **The loop succeeds** if every pair is a number. -/
theorem hexPairs_ok_iff (path hex s : Str) :
    (∃ bytes, hexPairs path hex s = .ok bytes) ↔ allPairs isNumber s = true := by
  induction s using allPairs.induct with
  | case1 c c' rest ih =>
    simp only [hexPairs, allPairs, Bool.and_eq_true, ← ih, ← stoul16_isSome]
    cases stoul16 [c, c'] with
    | none => simp [configError]
    | some byte =>
      constructor
      · rintro ⟨bytes, h⟩
        obtain ⟨b, hb, -⟩ := bind_eq_ok.mp h
        exact ⟨rfl, b, hb⟩
      · rintro ⟨-, b, hb⟩
        exact ⟨_, bind_eq_ok.mpr ⟨b, hb, rfl⟩⟩
  | case2 s hs =>
    rcases s with _ | ⟨c, _ | ⟨c', rest⟩⟩
    · exact iff_of_true ⟨[], rfl⟩ rfl
    · exact iff_of_true ⟨[], rfl⟩ rfl
    · exact absurd rfl (hs c c' rest)

/-- The loop throws only `ConfigException`. -/
theorem hexPairs_error {path hex s : Str} {f : Fault} (h : hexPairs path hex s = .error f) :
    ∃ details, f = .configException path "GravelBox configuration".toList details := by
  induction s using allPairs.induct with
  | case1 c c' rest ih =>
    simp only [hexPairs] at h
    cases hpair : stoul16 [c, c'] with
    | none =>
      rw [hpair] at h
      cases h
      exact ⟨_, rfl⟩
    | some byte =>
      rw [hpair] at h
      cases hrest : hexPairs path hex rest with
      | ok bytes =>
        rw [hrest] at h
        cases h
      | error f' =>
        rw [hrest] at h
        cases h
        exact ih hrest
  | case2 s hs =>
    rcases s with _ | ⟨c, _ | ⟨c', rest⟩⟩
    · cases h
    · cases h
    · exact absurd rfl (hs c c' rest)

/-! ## 4. Digits that spell out bytes -/

/-- The digits of `s` spell out `bytes`, two for each. -/
inductive Spells : Str → Str → Prop
  | nil : Spells [] []
  | pair {c c' : Char} {d d' : Nat} {s bytes : Str} :
      hexDigit c = some d → hexDigit c' = some d' → Spells s bytes →
        Spells (c :: c' :: s) (Char.ofNat (16 * d + d') :: bytes)

/-- A string of digits, of even length, spells out some bytes. -/
theorem exists_spells {s : Str} (heven : s.length % 2 = 0) (hs : s.all isHex = true) :
    ∃ bytes, Spells s bytes := by
  induction s using allPairs.induct with
  | case1 c c' rest ih =>
    simp only [List.all_cons, Bool.and_eq_true] at hs
    obtain ⟨hc, hc', hrest⟩ := hs
    obtain ⟨d, hd⟩ := Option.isSome_iff_exists.mp hc
    obtain ⟨d', hd'⟩ := Option.isSome_iff_exists.mp hc'
    obtain ⟨bytes, hbytes⟩ := ih (by simp only [List.length_cons] at heven; omega) hrest
    exact ⟨_, .pair hd hd' hbytes⟩
  | case2 s hshort =>
    rcases s with _ | ⟨c, _ | ⟨c', rest⟩⟩
    · exact ⟨[], .nil⟩
    · cases heven
    · exact absurd rfl (hshort c c' rest)

/-- The value of two digits fits a byte, and the cast to `uint8_t` keeps it. -/
theorem pairValue_lt {c c' : Char} {d d' : Nat} (h : hexDigit c = some d)
    (h' : hexDigit c' = some d') : 16 * d + d' < 256 := by
  have hd := (hexDigit_spec h).1
  have hd' := (hexDigit_spec h').1
  omega

/-- **The loop returns what the digits spell out.** -/
theorem Spells.hexPairs_eq {s bytes : Str} (h : Spells s bytes) (path hex : Str) :
    hexPairs path hex s = .ok bytes := by
  induction h with
  | nil => rfl
  | @pair c c' d d' s bytes hd hd' _ ih =>
    have hlt := pairValue_lt hd hd'
    have hcast : (BitVec.ofNat 64 (16 * d + d')).toNat % 256 = 16 * d + d' := by
      rw [BitVec.toNat_ofNat]
      omega
    simp only [hexPairs, stoul16_digits hd hd', ih, hcast]
    rfl

theorem Spells.length_eq {s bytes : Str} (h : Spells s bytes) : 2 * bytes.length = s.length := by
  induction h with
  | nil => rfl
  | pair _ _ _ ih =>
    simp only [List.length_cons]
    omega

/-- Every byte has the value of its pair. -/
theorem Spells.getElem {s bytes : Str} (h : Spells s bytes) {i : Nat} (hi : i < bytes.length) :
    ∃ d d', s[2 * i]?.bind hexDigit = some d ∧ s[2 * i + 1]?.bind hexDigit = some d' ∧
      bytes[i]? = some (Char.ofNat (16 * d + d')) := by
  induction h generalizing i with
  | nil => cases hi
  | @pair c c' d d' s bytes hd hd' _ ih =>
    cases i with
    | zero => exact ⟨d, d', hd, hd', rfl⟩
    | succ i => exact ih (Nat.lt_of_succ_lt_succ hi)

/-- Encoding the bytes gives the digits back, in lower case. -/
theorem Spells.hexText_eq {s bytes : Str} (h : Spells s bytes) :
    hexText bytes = s.map Char.toLower := by
  induction h with
  | nil => rfl
  | @pair c c' d d' s bytes hd hd' _ ih =>
    obtain ⟨hlt, hchar⟩ := hexDigit_spec hd
    obtain ⟨hlt', hchar'⟩ := hexDigit_spec hd'
    have hval : (Char.ofNat (16 * d + d')).toNat = 16 * d + d' :=
      toNat_ofNat_byte (pairValue_lt hd hd')
    have hhigh : (16 * d + d') / 16 = d := by omega
    have hlow : (16 * d + d') % 16 = d' := by omega
    have hbyte : byteHex (Char.ofNat (16 * d + d')) = [c.toLower, c'.toLower] := by
      unfold byteHex
      rw [hval, hhigh, hlow, hchar, hchar']
    unfold hexText at ih ⊢
    rw [List.flatMap_cons, hbyte, ih]
    rfl

/-- The encoding of a byte string spells it out. -/
theorem spells_hexText {bytes : Str} (h : IsBytes bytes) : Spells (hexText bytes) bytes := by
  induction bytes with
  | nil => exact .nil
  | cons c bytes ih =>
    have hc : c.toNat < 256 := h c List.mem_cons_self
    have hrest := ih fun d hd => h d (List.mem_cons_of_mem c hd)
    have hpair := Spells.pair (hexDigit_digitChar (d := c.toNat / 16) (by omega))
      (hexDigit_digitChar (d := c.toNat % 16) (by omega)) hrest
    have hval : Char.ofNat (16 * (c.toNat / 16) + c.toNat % 16) = c := by
      rw [Nat.div_add_mod, Char.ofNat_toNat]
    rw [hval] at hpair
    exact hpair

/-! ## 5. When the password hash is decoded -/

/-- What `hex2bytes` is for: it takes the strings of an even number of hexadecimal digits and
no others, refuses the rest by a `ConfigException`, and returns the bytes that the pairs
stand for, so that encoding them gives the string back up to the case of its letters. -/
structure HexDecoded (path s : Str) (r : Except Fault Str) : Prop where
  accepted : (∃ bytes, r = .ok bytes) ↔ s.length % 2 = 0 ∧ s.all isHex = true
  rejected : ∀ f, r = .error f →
    ∃ details, f = .configException path "GravelBox configuration".toList details
  length : ∀ bytes, r = .ok bytes → 2 * bytes.length = s.length
  values : ∀ bytes, r = .ok bytes → ∀ i < bytes.length,
    ∃ d d', s[2 * i]?.bind hexDigit = some d ∧ s[2 * i + 1]?.bind hexDigit = some d' ∧
      bytes[i]? = some (Char.ofNat (16 * d + d'))
  encoded : ∀ bytes, r = .ok bytes → hexText bytes = s.map Char.toLower

theorem hex2bytes_ok_iff (path s : Str) :
    (∃ bytes, hex2bytes path s = .ok bytes) ↔ s.length % 2 = 0 ∧ allPairs isNumber s = true := by
  unfold hex2bytes
  by_cases heven : s.length % 2 = 0
  · rw [if_neg (not_not.mpr heven), hexPairs_ok_iff, and_iff_right heven]
  · rw [if_pos heven]
    simp [configError, heven]

theorem hex2bytes_error {path s : Str} {f : Fault} (h : hex2bytes path s = .error f) :
    ∃ details, f = .configException path "GravelBox configuration".toList details := by
  unfold hex2bytes at h
  split at h
  · cases h
    exact ⟨_, rfl⟩
  · exact hexPairs_error h

theorem Spells.hex2bytes_eq {s bytes : Str} (h : Spells s bytes) (path : Str) :
    hex2bytes path s = .ok bytes := by
  have hlen := h.length_eq
  have heven : s.length % 2 = 0 := by omega
  unfold hex2bytes
  rw [if_neg (not_not.mpr heven), h.hexPairs_eq]

/-- **The hash of the configuration is decoded as intended** if and only if its string has odd
length, consists of hexadecimal digits, or has a pair that does not even begin like a
number.  The encoding of a byte string is always decoded to that string. -/
theorem hex2bytes_decoded_iff (path s : Str) :
    (HexDecoded path s (hex2bytes path s) ↔
      s.length % 2 = 1 ∨ s.all isHex = true ∨ allPairs isNumber s = false) ∧
    ∀ bytes, IsBytes bytes → hex2bytes path (hexText bytes) = .ok bytes := by
  refine ⟨?_, fun bytes h => (spells_hexText h).hex2bytes_eq path⟩
  constructor
  · intro h
    by_cases hodd : s.length % 2 = 1
    · exact Or.inl hodd
    · have heven : s.length % 2 = 0 := by omega
      by_cases hnum : allPairs isNumber s = true
      · obtain ⟨-, hall⟩ := h.accepted.mp ((hex2bytes_ok_iff path s).mpr ⟨heven, hnum⟩)
        exact Or.inr (Or.inl hall)
      · exact Or.inr (Or.inr (Bool.not_eq_true _ ▸ hnum))
  · intro h
    by_cases hwell : s.length % 2 = 0 ∧ s.all isHex = true
    · obtain ⟨heven, hall⟩ := hwell
      obtain ⟨bytes, hbytes⟩ := exists_spells heven hall
      rw [hbytes.hex2bytes_eq path]
      refine ⟨iff_of_true ⟨bytes, rfl⟩ ⟨heven, hall⟩, ?_, ?_, ?_, ?_⟩
      · intro f hf
        cases hf
      · rintro _ ⟨⟩
        exact hbytes.length_eq
      · rintro _ ⟨⟩ i hi
        exact hbytes.getElem hi
      · rintro _ ⟨⟩
        exact hbytes.hexText_eq
    · -- the string is refused, and nothing is left to show of its bytes
      have hno : ¬ ∃ bytes, hex2bytes path s = .ok bytes := by
        rw [hex2bytes_ok_iff]
        rintro ⟨heven, hnum⟩
        rcases h with hodd | hall | hbad
        · omega
        · exact hwell ⟨heven, hall⟩
        · exact absurd hnum (Bool.not_eq_true _ ▸ hbad)
      refine ⟨iff_of_false hno hwell, fun f hf => hex2bytes_error hf, ?_, ?_, ?_⟩
      · exact fun bytes hb => absurd ⟨bytes, hb⟩ hno
      · exact fun bytes hb => absurd ⟨bytes, hb⟩ hno
      · exact fun bytes hb => absurd ⟨bytes, hb⟩ hno

/-- A typing slip in the hash goes unnoticed: the pair `1g` is taken for the byte 1. -/
theorem hex2bytes_typo :
    hex2bytes "config".toList "1g".toList = .ok [Char.ofNat 1] ∧
      ¬ HexDecoded "config".toList "1g".toList (hex2bytes "config".toList "1g".toList) := by
  have hok : hex2bytes "config".toList "1g".toList = .ok [Char.ofNat 1] := by decide
  refine ⟨hok, fun h => ?_⟩
  obtain ⟨-, hall⟩ := h.accepted.mp ⟨_, hok⟩
  exact absurd hall (by decide)

end GravelBox
