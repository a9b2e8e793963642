/-
# What is read of a string

`StrType::write` (`parser/argtypes.cpp`, lines 42 to 65) asks for 32 bytes and splits the request at
a page boundary.  Pages are readable as a whole, so what comes back is the longest readable prefix
of the 32 bytes (`transfer_window`), and of a readable string of fewer than 32 bytes just the string
is shown (`strText_of_pointsTo`).

What makes this hard is the arithmetic.  Addresses are 64-bit words that wrap around, the test for a
page boundary divides by 4096 after an addition that may overflow, and the second vector starts at
the next page, which for the last page of the address space is address 0.  The lemmas about a window
say once, for every address, which byte of the request comes from where.

The other half is that the kernel transfers vectors in order and stops at the first that is not
readable as a whole.  That is why the split matters: without it a string just before an unmapped
page would not be read at all.

`charText_prefixFree` is about what is written of the bytes: no character's text begins another's,
so the text between the quotes determines the bytes, for strings that are read whole.

Not claimed: anything about memory that changes while it is read, or about pages whose readability
changes.  Each request sees one state of the memory; a string is read by one request.
-/
import GravelBox.Parser.ArgTypes

namespace GravelBox

/-! ## 1. The remote vectors -/

/-- The 32 addresses from `value` on. -/
def window (value : BitVec 64) : List (BitVec 64) :=
  (List.range kMaxStrLen).map fun i => value + BitVec.ofNat 64 i

/-- A vector that lies within one page. -/
structure IoVec.InPage (v : IoVec) : Prop where
  pos : 0 < v.len
  fits : v.base.toNat % 4096 + v.len ≤ 4096

/-- All of a vector within one page is readable, or nothing of it is. -/
theorem IoVec.InPage.mapped_eq {v : IoVec} (h : v.InPage) (m : Memory) {a : BitVec 64}
    (ha : a ∈ v.addrs) : m.mapped a = m.mapped v.base := by
  simp only [IoVec.addrs, List.mem_map, List.mem_range] at ha
  obtain ⟨i, hi, rfl⟩ := ha
  have hfits := h.fits
  have hpage : (v.base + BitVec.ofNat 64 i).toNat / 4096 = v.base.toNat / 4096 := by
    have hlt := v.base.isLt
    rw [BitVec.toNat_add, BitVec.toNat_ofNat]
    omega
  simp only [Memory.mapped, hpage]

/-- Reading vectors that each lie within one page gets the longest readable prefix. -/
theorem transfer_of_inPage (m : Memory) {remote : List IoVec} (h : ∀ v ∈ remote, v.InPage) :
    m.transfer remote = ((remote.flatMap IoVec.addrs).takeWhile m.mapped).map m.byte := by
  unfold Memory.transfer
  congr 1
  induction remote with
  | nil => rfl
  | cons v remote ih =>
    have hv := h v List.mem_cons_self
    have hrest := ih fun u hu => h u (List.mem_cons_of_mem v hu)
    by_cases hm : m.mapped v.base = true
    · have hall : ∀ a ∈ v.addrs, m.mapped a = true := fun a ha => (hv.mapped_eq m ha).trans hm
      have htake : (v :: remote).takeWhile (fun v => v.addrs.all m.mapped) =
          v :: remote.takeWhile (fun v => v.addrs.all m.mapped) :=
        List.takeWhile_cons_of_pos (List.all_eq_true.mpr hall)
      rw [htake, List.flatMap_cons, List.flatMap_cons,
        List.takeWhile_append_of_pos hall, hrest]
    · have hmem : v.base ∈ v.addrs := by
        simp only [IoVec.addrs, List.mem_map, List.mem_range]
        exact ⟨0, hv.pos, by simp⟩
      have htake : (v :: remote).takeWhile (fun v => v.addrs.all m.mapped) = [] :=
        List.takeWhile_cons_of_neg fun hall => hm (List.all_eq_true.mp hall _ hmem)
      rw [htake, List.flatMap_cons]
      cases hva : v.addrs with
      | nil => rw [hva] at hmem; cases hmem
      | cons a as =>
        have ha : ¬ m.mapped a = true := by
          rw [hv.mapped_eq m (hva ▸ List.mem_cons_self)]
          exact hm
        rw [List.cons_append, List.takeWhile_cons_of_neg ha]
        rfl

theorem toNat_4096 : (4096 : BitVec 64).toNat = 4096 := rfl

/-- The test of `StrType::write`, in numbers: the window ends on another page. -/
theorem crosses_iff (value : BitVec 64) :
    value / 4096 ≠ (value + BitVec.ofNat 64 kMaxStrLen - 1) / 4096 ↔
      4096 < value.toNat % 4096 + kMaxStrLen := by
  have hlt := value.isLt
  have hone : (1 : BitVec 64).toNat = 1 := rfl
  rw [ne_eq, ← BitVec.toNat_inj]
  simp only [hone, toNat_4096, BitVec.toNat_udiv, BitVec.toNat_sub, BitVec.toNat_add,
    BitVec.toNat_ofNat, kMaxStrLen]
  omega

/-- The start of the next page is where the first vector ends. -/
theorem nextPage_eq (value : BitVec 64) :
    (value / 4096 + 1) * 4096 = value + BitVec.ofNat 64 (4096 - (value % 4096).toNat) := by
  have hlt := value.isLt
  have hone : (1 : BitVec 64).toNat = 1 := rfl
  rw [← BitVec.toNat_inj]
  simp only [hone, toNat_4096, BitVec.toNat_mul, BitVec.toNat_udiv, BitVec.toNat_add,
    BitVec.toNat_umod, BitVec.toNat_ofNat]
  omega

/-- The vectors lie within one page each and cover the window. -/
theorem strRemotes_spec (value : BitVec 64) :
    (∀ v ∈ strRemotes value, v.InPage) ∧ (strRemotes value).flatMap IoVec.addrs = window value := by
  have hmod : (value % 4096).toNat = value.toNat % 4096 := by
    rw [BitVec.toNat_umod, toNat_4096]
  have hk : kMaxStrLen = 32 := rfl
  unfold strRemotes
  by_cases hcross : 4096 < value.toNat % 4096 + kMaxStrLen
  · rw [if_pos ((crosses_iff value).mpr hcross), nextPage_eq]
    simp only [hmod]
    generalize hlen : 4096 - value.toNat % 4096 = len
    have hpos : 0 < len ∧ len < kMaxStrLen := by omega
    refine ⟨?_, ?_⟩
    · intro v hv
      rw [List.mem_cons, List.mem_singleton] at hv
      rcases hv with rfl | rfl
      · exact ⟨hpos.1, by simp only; omega⟩
      · refine ⟨by simp only; omega, ?_⟩
        have hlt := value.isLt
        simp only [BitVec.toNat_add, BitVec.toNat_ofNat]
        omega
    · have hsplit : kMaxStrLen = len + (kMaxStrLen - len) := by omega
      rw [window, hsplit, List.range_add, List.map_append, List.map_map]
      simp only [List.flatMap_cons, List.flatMap_nil, List.append_nil, IoVec.addrs]
      rw [← hsplit]
      congr 1
      refine List.map_congr_left fun i _ => ?_
      rw [Function.comp_apply, BitVec.add_assoc, ← BitVec.ofNat_add]
  · rw [if_neg (mt (crosses_iff value).mp hcross)]
    refine ⟨?_, ?_⟩
    · intro v hv
      obtain rfl := List.mem_singleton.mp hv
      exact ⟨by simp only; omega, by simp only; omega⟩
    · simp [window, IoVec.addrs]

/-- **The bytes read are the longest readable prefix of the window.** -/
theorem transfer_window (m : Memory) (value : BitVec 64) :
    m.transfer (strRemotes value) = ((window value).takeWhile m.mapped).map m.byte := by
  obtain ⟨hpage, hwindow⟩ := strRemotes_spec value
  rw [transfer_of_inPage m hpage, hwindow]

/-! ## 2. A readable string -/

/-- At `a` there is a readable NUL-terminated string of fewer than 32 bytes. -/
structure PointsTo (m : Memory) (a : BitVec 64) (s : List (BitVec 8)) : Prop where
  short : s.length < kMaxStrLen
  nonzero : ∀ c ∈ s, c ≠ 0
  mapped : ∀ i ≤ s.length, m.mapped (a + BitVec.ofNat 64 i) = true
  bytes : (List.range (s.length + 1)).map (fun i => m.byte (a + BitVec.ofNat 64 i)) = s ++ [0]

/-- What is read starts with the string and its NUL. -/
theorem PointsTo.transfer_eq {m : Memory} {a : BitVec 64} {s : List (BitVec 8)}
    (h : PointsTo m a s) : ∃ rest, m.transfer (strRemotes a) = s ++ 0 :: rest := by
  have hshort := h.short
  have hsplit : kMaxStrLen = (s.length + 1) + (kMaxStrLen - (s.length + 1)) := by omega
  have hmapped : ∀ x ∈ (List.range (s.length + 1)).map (fun i => a + BitVec.ofNat 64 i),
      m.mapped x = true := by
    intro x hx
    obtain ⟨i, hi, rfl⟩ := List.mem_map.mp hx
    exact h.mapped i (Nat.lt_succ_iff.mp (List.mem_range.mp hi))
  have hbytes : (List.range (s.length + 1)).map (m.byte ∘ fun i => a + BitVec.ofNat 64 i) =
      s ++ [0] := h.bytes
  rw [transfer_window, window, hsplit, List.range_add, List.map_append,
    List.takeWhile_append_of_pos hmapped, List.map_append, List.map_map, hbytes,
    List.append_assoc]
  exact ⟨_, rfl⟩

/-- **A readable string is shown as it is.** -/
theorem strText_of_pointsTo {m : Memory} {a : BitVec 64} {s : List (BitVec 8)}
    (h : PointsTo m a s) : strText m a = ['"'] ++ s.flatMap charText ++ ['"'] := by
  obtain ⟨rest, hread⟩ := h.transfer_eq
  have hshown : shown (s ++ 0 :: rest) = s := by
    unfold shown
    rw [List.takeWhile_append_of_pos fun c hc => by simpa using h.nonzero c hc,
      List.takeWhile_cons_of_neg (by simp), List.append_nil]
  have hne : s ++ 0 :: rest ≠ [] := by simp
  have hlen : ¬ s.length = kMaxStrLen := Nat.ne_of_lt h.short
  simp only [strText, hread, if_neg hne, quoted, hshown, if_neg hlen, List.append_nil]

/-- There is one string at an address. -/
theorem PointsTo.unique {m : Memory} {a : BitVec 64} {s t : List (BitVec 8)}
    (h : PointsTo m a s) (h' : PointsTo m a t) : s = t := by
  obtain ⟨r, hr⟩ := h.transfer_eq
  obtain ⟨r', hr'⟩ := h'.transfer_eq
  have hs : (0 : BitVec 8) ∉ s := fun h0 => h.nonzero 0 h0 rfl
  have ht : (0 : BitVec 8) ∉ t := fun h0 => h'.nonzero 0 h0 rfl
  exact (Codes.append_cons_inj_first hs ht (hr.symm.trans hr')).1

/-! ## 3. The text determines the bytes -/

def hexVal (c : Char) : Nat := if c.isDigit then c.toNat - 48 else c.toNat - 87

/-- The byte a text of `charText` stands for. -/
def unescape : Str → BitVec 8
  | ['\\', '\\'] => 0x5c
  | ['\\', 'n'] => 0x0a
  | ['\\', 't'] => 0x09
  | ['\\', 'x', _, _, a, b] | ['\\', 'x', a, b] => BitVec.ofNat 8 (16 * hexVal a + hexVal b)
  | [c] => BitVec.ofNat 8 c.toNat
  | _ => 0

/-- The length of the code word a text starts with: the digits of a negative `char` are those
of a 16-bit number, and start with an `f`. -/
def codeLength : Str → Nat
  | '\\' :: 'x' :: 'f' :: _ => 6
  | '\\' :: 'x' :: _ => 4
  | '\\' :: _ => 2
  | _ => 1

theorem unescape_charText : ∀ c : BitVec 8, unescape (charText c) = c := by
  decide +kernel

/-- The four shapes of a code word. -/
def isCodeWord : Str → Bool
  | [c] => c != '\\'
  | ['\\', c] => c != 'x'
  | ['\\', 'x', c, _] => c != 'f'
  | ['\\', 'x', 'f', 'f', _, _] => true
  | _ => false

theorem isCodeWord_charText : ∀ c : BitVec 8, isCodeWord (charText c) = true := by
  decide +kernel

theorem codeLength_append {s : Str} (h : isCodeWord s = true) (r : Str) :
    codeLength (s ++ r) = s.length := by
  unfold isCodeWord at h
  split at h
  · simp_all [codeLength]
  · simp_all [codeLength]
  · simp_all [codeLength]
  · rfl
  · cases h

/-- **The texts of the bytes are a prefix-free code.** -/
theorem charText_prefixFree : Codes.PrefixFree charText :=
  .of_length (Function.LeftInverse.injective unescape_charText) codeLength fun c r =>
    codeLength_append (isCodeWord_charText c) r

theorem charText_ne_nil (c : BitVec 8) : charText c ≠ [] := by
  intro h
  have hword := isCodeWord_charText c
  rw [h] at hword
  cases hword

end GravelBox
