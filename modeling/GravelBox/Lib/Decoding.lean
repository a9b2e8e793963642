/-
# Decoding a text with escapes

A decoder goes over a text from left to right.  At each position its reader says what stands
there and how many of the characters that follow belong to it: none for a character that
stands for itself, some for an escape.

* Decoding takes a code word off the front and goes on behind it (`decode_word`).
* It never makes a text longer, and keeps its length exactly if there is no escape in it
  (`length_decode_eq_iff`).

The second is what shows that a text was changed.  To compare a text with what it is decoded to,
character by character, is no use once an escape has shifted the rest; but where something was
shifted the lengths differ, and that is enough to tell the two apart.

A reader may look at as much of the text as it likes, and it is given all of it, so an escape may be
of any length and an incomplete one at the end may stand for itself.  It says how much it takes of
what follows the character it is at, so that decoding always goes on by at least one: this is why
the recursion ends, and it needs no measure but the length.

A decoder made of a reader accepts every text.  Nothing is claimed of formats in which an escape can
be wrong; those need a reader that fails.
-/
import Mathlib.Data.List.Basic

namespace Decoding

variable {C B : Type*}

/-- What the first character of a text and the characters after it stand for, and how many
of the latter that takes. -/
abbrev Reader (C B : Type*) := C → List C → B × Nat

/-- Decode a text, the first `k` characters of which belong to what was read before. -/
def decodeFrom (read : Reader C B) : Nat → List C → List B
  | _, [] => []
  | k + 1, _ :: s => decodeFrom read k s
  | 0, c :: s => (read c s).1 :: decodeFrom read (read c s).2 s

/-- Decode a text. -/
def decode (read : Reader C B) (s : List C) : List B := decodeFrom read 0 s

variable {read : Reader C B}

@[simp] theorem decode_nil : decode read [] = [] := rfl

theorem decodeFrom_eq (k : Nat) (s : List C) :
    decodeFrom read k s = decode read (s.drop k) := by
  induction k generalizing s with
  | zero => rw [List.drop_zero, decode]
  | succ k ih =>
    cases s with
    | nil => rfl
    | cons c s => rw [decodeFrom, ih, List.drop_succ_cons]

theorem decode_cons (c : C) (s : List C) :
    decode read (c :: s) = (read c s).1 :: decode read (s.drop (read c s).2) := by
  rw [decode, decodeFrom, decodeFrom_eq]

/-- A code word is taken off the front as a whole. -/
theorem decode_word {c : C} {w : List C} {b : B} {r : List C}
    (h : read c (w ++ r) = (b, w.length)) : decode read (c :: w ++ r) = b :: decode read r := by
  rw [List.cons_append, decode_cons, h, List.drop_left]

/-! ## Texts without escapes -/

/-- Every character of the text stands for itself, in its place. -/
def escapeFree (read : Reader C B) : List C → Bool
  | [] => true
  | c :: s => (read c s).2 == 0 && escapeFree read s

/-- A reader takes no more than there is. -/
def Within (read : Reader C B) : Prop := ∀ c s, (read c s).2 ≤ s.length

theorem length_decode_le (read : Reader C B) (s : List C) : (decode read s).length ≤ s.length := by
  induction hn : s.length using Nat.strongRecOn generalizing s with
  | ind n ih =>
    subst hn
    cases s with
    | nil => exact Nat.le_refl _
    | cons c s =>
      have hdrop : (s.drop (read c s).2).length ≤ s.length := by
        rw [List.length_drop]
        exact Nat.sub_le _ _
      have hrest := ih _ (Nat.lt_succ_of_le hdrop) (s.drop (read c s).2) rfl
      rw [decode_cons, List.length_cons, List.length_cons]
      omega

/-- **Decoding keeps the length** of a text if and only if there is no escape in it. -/
theorem length_decode_eq_iff (hread : Within read) (s : List C) :
    (decode read s).length = s.length ↔ escapeFree read s = true := by
  induction s with
  | nil => exact iff_of_true rfl rfl
  | cons c s ih =>
    have hle := length_decode_le read (s.drop (read c s).2)
    rw [List.length_drop] at hle
    have hwithin := hread c s
    rw [decode_cons, escapeFree, Bool.and_eq_true, beq_iff_eq, ← ih, List.length_cons,
      List.length_cons]
    constructor
    · intro h
      have hzero : (read c s).2 = 0 := by omega
      rw [hzero, List.drop_zero] at h
      exact ⟨hzero, by omega⟩
    · rintro ⟨hzero, h⟩
      rw [hzero, List.drop_zero, h]

/-- A text without escapes is decoded character by character. -/
theorem decode_of_escapeFree {f : C → B} (hself : ∀ c s, (read c s).2 = 0 → (read c s).1 = f c)
    {s : List C} (h : escapeFree read s = true) : decode read s = s.map f := by
  induction s with
  | nil => rfl
  | cons c s ih =>
    rw [escapeFree, Bool.and_eq_true, beq_iff_eq] at h
    rw [decode_cons, hself c s h.1, h.1, List.drop_zero, ih h.2, List.map_cons]

/-! ## Texts made of code words -/

/-- Code words that are decoded one by one, whatever follows them. -/
theorem decode_flatMap {A : Type*} {word : A → List C} {value : A → List B}
    (h : ∀ a r, decode read (word a ++ r) = value a ++ decode read r) (as : List A) :
    decode read (as.flatMap word) = as.flatMap value := by
  induction as with
  | nil => rfl
  | cons a as ih => rw [List.flatMap_cons, h, ih, List.flatMap_cons]

end Decoding
