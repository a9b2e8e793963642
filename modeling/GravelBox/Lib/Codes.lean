/-
# Reading a text back

When can a text be taken apart again in only one way?  Three answers are enough for texts
made of numerals, delimiters and quoted strings.

* A part all of whose characters pass a test ends where the first character fails it
  (`append_inj_of_stops`); a part up to the last occurrence of a character ends there
  (`append_cons_inj_last`).
* A numeral determines its number (`toDigits_injective`, `decimal_injective`).
* A code that can be read off the front of any text (`PrefixFree`) makes the encoding of lists
  injective.

The first two are two ways to find an end.  From the front one needs a character that cannot be in
the part; from the back one needs one that cannot be in what follows.  A text with a part in it that
may have any character at all can still be taken apart if it is the only one, by coming from both
sides; with two such parts it cannot, and no lemma here is of use then.

Numerals are those of `Nat.toDigits`, with a minus in front for a negative integer, and no leading
zeros.  That is what makes them injective: a reader that skips zeros would not do.

Nothing is claimed of how a text is read, nor of whether it is: a text that determines its parts may
have no reader that is worth writing.
-/
import Mathlib.Data.List.Basic

namespace Codes

variable {α C : Type*}

/-! ## 1. Splitting at a delimiter -/

/-- `r` is empty or starts with a character that fails the test. -/
def Stops (p : C → Bool) (r : List C) : Prop := ∀ c ∈ r.head?, p c = false

theorem stops_cons {p : C → Bool} {c : C} {r : List C} : Stops p (c :: r) ↔ p c = false := by
  simp [Stops]

/-- Two texts that pass the test throughout, each followed by one that stops it. -/
theorem append_inj_of_stops {p : C → Bool} {xs ys r r' : List C} (hxs : xs.all p)
    (hys : ys.all p) (hr : Stops p r) (hr' : Stops p r') (h : xs ++ r = ys ++ r') :
    xs = ys ∧ r = r' := by
  induction xs generalizing ys with
  | nil =>
    cases ys with
    | nil => exact ⟨rfl, h⟩
    | cons y ys =>
      rw [List.nil_append] at h
      rw [h, List.cons_append, stops_cons] at hr
      simp [hr] at hys
  | cons x xs ih =>
    cases ys with
    | nil =>
      rw [List.nil_append] at h
      rw [← h, List.cons_append, stops_cons] at hr'
      simp [hr'] at hxs
    | cons y ys =>
      rw [List.cons_append, List.cons_append, List.cons.injEq] at h
      rw [List.all_cons, Bool.and_eq_true] at hxs hys
      obtain ⟨rfl, hr⟩ := ih hxs.2 hys.2 h.2
      rw [h.1]
      exact ⟨rfl, hr⟩

/-- The first occurrence of a character. -/
theorem append_cons_inj_first {c : C} {xs ys r r' : List C} (hxs : c ∉ xs) (hys : c ∉ ys)
    (h : xs ++ c :: r = ys ++ c :: r') : xs = ys ∧ r = r' := by
  classical
  have hall : ∀ zs : List C, c ∉ zs → zs.all (fun d => decide (d ≠ c)) := by
    intro zs hzs
    rw [List.all_eq_true]
    intro d hd
    rw [decide_eq_true_eq]
    rintro rfl
    exact hzs hd
  obtain ⟨hx, hr⟩ := append_inj_of_stops (hall xs hxs) (hall ys hys)
    (stops_cons.mpr (by simp)) (stops_cons.mpr (by simp)) h
  exact ⟨hx, (List.cons.inj hr).2⟩

/-- The last occurrence of a character. -/
theorem append_cons_inj_last {c : C} {xs ys r r' : List C} (hr : c ∉ r) (hr' : c ∉ r')
    (h : xs ++ c :: r = ys ++ c :: r') : xs = ys ∧ r = r' := by
  have hrev := congrArg List.reverse h
  simp only [List.reverse_append, List.reverse_cons, List.append_assoc, List.singleton_append]
    at hrev
  obtain ⟨h₁, h₂⟩ := append_cons_inj_first (by simpa using hr) (by simpa using hr') hrev
  exact ⟨List.reverse_injective h₂, List.reverse_injective h₁⟩

/-! ## 2. Numerals -/

theorem digitChar_injective {i j : Nat} (hi : i < 16) (hj : j < 16)
    (h : i.digitChar = j.digitChar) : i = j := by
  have hall : ∀ i j : Fin 16, i.val.digitChar = j.val.digitChar → i = j := by decide
  exact congrArg Fin.val (hall ⟨i, hi⟩ ⟨j, hj⟩ h)

/-- The characters of a numeral are digits of its base. -/
theorem mem_toDigits {b n : Nat} (hb : 1 < b) {c : Char} (h : c ∈ Nat.toDigits b n) :
    ∃ d < b, c = d.digitChar := by
  induction n using Nat.strongRecOn with
  | ind n ih =>
    rw [Nat.toDigits_eq_if hb] at h
    split at h
    · rename_i hn
      exact ⟨n, hn, by simpa using h⟩
    · rename_i hn
      rw [List.mem_append, List.mem_singleton] at h
      rcases h with h | h
      · exact ih (n / b) (Nat.div_lt_self (by omega) hb) h
      · exact ⟨n % b, Nat.mod_lt _ (by omega), h⟩

/-- Numerals of a base up to 16 determine their numbers. -/
theorem toDigits_injective {b n m : Nat} (hb : 1 < b) (hb' : b ≤ 16)
    (h : Nat.toDigits b n = Nat.toDigits b m) : n = m := by
  induction n using Nat.strongRecOn generalizing m with
  | ind n ih =>
    have hlow : ∀ k, k % b < 16 := fun k =>
      Nat.lt_of_lt_of_le (Nat.mod_lt _ (by omega)) hb'
    by_cases hn : n < b
    · rw [Nat.toDigits_of_lt_base hn] at h
      by_cases hm : m < b
      · rw [Nat.toDigits_of_lt_base hm] at h
        exact digitChar_injective (by omega) (by omega) (List.cons.inj h).1
      · have hpos := @Nat.length_toDigits_pos b (m / b)
        have hlen := congrArg List.length h
        rw [Nat.toDigits_of_base_le hb (Nat.le_of_not_lt hm), List.length_append] at hlen
        simp only [List.length_singleton] at hlen
        omega
    · rw [Nat.toDigits_of_base_le hb (Nat.le_of_not_lt hn)] at h
      by_cases hm : m < b
      · have hpos := @Nat.length_toDigits_pos b (n / b)
        have hlen := congrArg List.length h
        rw [Nat.toDigits_of_lt_base hm, List.length_append] at hlen
        simp only [List.length_singleton] at hlen
        omega
      · rw [Nat.toDigits_of_base_le hb (Nat.le_of_not_lt hm)] at h
        obtain ⟨hdiv, hmod⟩ := List.append_inj' h rfl
        have hq : n / b = m / b := ih (n / b) (Nat.div_lt_self (by omega) hb) hdiv
        have hr : n % b = m % b := digitChar_injective (hlow n) (hlow m) (List.cons.inj hmod).1
        rw [← Nat.div_add_mod n b, ← Nat.div_add_mod m b, hq, hr]

/-- The decimal numeral of an integer. -/
def decimal : Int → List Char
  | .ofNat n => Nat.toDigits 10 n
  | .negSucc n => '-' :: Nat.toDigits 10 (n + 1)

theorem mem_decimal {i : Int} {c : Char} (h : c ∈ decimal i) :
    c = '-' ∨ ∃ d < 10, c = d.digitChar := by
  cases i with
  | ofNat n => exact Or.inr (mem_toDigits (by decide) h)
  | negSucc n =>
    rcases List.mem_cons.mp h with h | h
    · exact Or.inl h
    · exact Or.inr (mem_toDigits (by decide) h)

theorem decimal_injective {i j : Int} (h : decimal i = decimal j) : i = j := by
  have hminus : ∀ n, '-' ∉ Nat.toDigits 10 n := by
    intro n hmem
    obtain ⟨d, hd, hc⟩ := mem_toDigits (by decide) hmem
    have hall : ∀ d : Fin 10, '-' ≠ d.val.digitChar := by decide
    exact hall ⟨d, hd⟩ hc
  cases i with
  | ofNat n =>
    cases j with
    | ofNat m => exact congrArg Int.ofNat (toDigits_injective (by decide) (by decide) h)
    | negSucc m =>
      simp only [decimal] at h
      exact absurd (h ▸ List.mem_cons_self) (hminus n)
  | negSucc n =>
    cases j with
    | ofNat m =>
      simp only [decimal] at h
      exact absurd (h ▸ List.mem_cons_self) (hminus m)
    | negSucc m =>
      have heq := toDigits_injective (by decide) (by decide) (List.cons.inj h).2
      rw [Nat.succ.inj heq]

/-! ## 3. Prefix-free codes -/

/-- A code word can be read off the front of any text. -/
def PrefixFree (f : α → List C) : Prop := ∀ a b r r', f a ++ r = f b ++ r' → a = b ∧ r = r'

/-- The encoding of lists by non-empty code words is injective. -/
theorem PrefixFree.flatMap_injective {f : α → List C} (h : PrefixFree f) (hne : ∀ a, f a ≠ [])
    {s t : List α} (hst : s.flatMap f = t.flatMap f) : s = t := by
  induction s generalizing t with
  | nil =>
    cases t with
    | nil => rfl
    | cons b t => simp [hne] at hst
  | cons a s ih =>
    cases t with
    | nil => simp [hne] at hst
    | cons b t =>
      rw [List.flatMap_cons, List.flatMap_cons] at hst
      obtain ⟨rfl, hrest⟩ := h _ _ _ _ hst
      rw [ih hrest]

/-- A code is prefix-free if it is injective and the length of a word can be told from any
text that starts with it. -/
theorem PrefixFree.of_length {f : α → List C} (hinj : Function.Injective f)
    (len : List C → Nat) (hlen : ∀ a r, len (f a ++ r) = (f a).length) : PrefixFree f := by
  intro a b r r' h
  have hl : (f a).length = (f b).length := by rw [← hlen a r, ← hlen b r', h]
  obtain ⟨hab, hr⟩ := List.append_inj h hl
  exact ⟨hinj hab, hr⟩

end Codes
