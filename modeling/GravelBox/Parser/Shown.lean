/-
# What is shown of a string

From memory to the text between the quotes (`parser/argtypes.cpp`, lines 42 to 93): the bytes that
`StrType::write` gets are the longest readable prefix of the 32 bytes it asks for, and it says
`<fault>` if that is empty (`strType_reads`).  It shows the bytes before the first NUL (`Found`).

The mark `...` stands for "there was more".  The writer decides by counting: it sets the mark
after 32 bytes, whether or not the string ends there, and leaves it out below 32, whether or
not the string was cut off by an unreadable page.  `marked_iff` says when that is right.

What makes this hard is that a string in memory is not a list: it is an address, a set of readable
pages and a function from addresses to bytes, and it may have no end at all.  `Found` says what can
be found of one from an address on, as far as it is readable, and it is that which the mark is
compared with.  Both failures are real: a string of just 32 bytes is marked though nothing is
missing, and one of 31 bytes before an unreadable page is not marked though its end was never seen
(`mark_misleads`).

The two results hold for every address, also those for which the request wraps around the end of the
address space, and for every set of readable pages.

Not claimed: what the kernel will read.  A target can change the string after it was shown; and what
is shown is at most 32 bytes of it, so two calls whose strings begin in the same way look alike.
-/
import GravelBox.Parser.StrRead
import Mathlib.Data.List.TakeWhile

namespace GravelBox

open Stateful

/-! ## 1. The bytes that are read -/

/-- `bytes` is the longest readable prefix of the 32 bytes from `value` on. -/
structure LongestReadable (m : Memory) (value : BitVec 64) (bytes : List (BitVec 8)) : Prop where
  prefix_of : bytes = ((window value).take bytes.length).map m.byte
  readable : ∀ a ∈ (window value).take bytes.length, m.mapped a = true
  stops : ∀ a, (window value)[bytes.length]? = some a → m.mapped a = false

theorem length_window (value : BitVec 64) : (window value).length = kMaxStrLen := by
  rw [window, List.length_map, List.length_range]

/-- The elements before the first one that fails a test. -/
theorem takeWhile_eq_take {α : Type} (p : α → Bool) (l : List α) :
    l.takeWhile p = l.take (l.takeWhile p).length ∧
      ∀ a, l[(l.takeWhile p).length]? = some a → p a = false := by
  induction l with
  | nil => exact ⟨rfl, fun a ha => by cases ha⟩
  | cons b l ih =>
    obtain ⟨htake, hstop⟩ := ih
    by_cases hb : p b = true
    · rw [List.takeWhile_cons_of_pos hb, List.length_cons, List.take_succ_cons]
      exact ⟨congrArg (b :: ·) htake, hstop⟩
    · rw [List.takeWhile_cons_of_neg hb]
      refine ⟨rfl, fun a ha => ?_⟩
      obtain rfl : b = a := Option.some.inj ha
      exact Bool.not_eq_true _ ▸ hb

/-- **What the vectors transfer** is the longest readable prefix. -/
theorem longestReadable_transfer (m : Memory) (value : BitVec 64) :
    LongestReadable m value (m.transfer (strRemotes value)) := by
  have hlen : (m.transfer (strRemotes value)).length =
      ((window value).takeWhile m.mapped).length := by
    rw [transfer_window, List.length_map]
  obtain ⟨htake, hstop⟩ := takeWhile_eq_take m.mapped (window value)
  refine ⟨?_, ?_, ?_⟩
  · rw [hlen, ← htake, transfer_window]
  · rw [hlen, ← htake]
    exact fun a ha => List.all_eq_true.mp List.all_takeWhile a ha
  · rw [hlen]
    exact hstop

/-- Nothing is read if and only if the page of the address is unreadable. -/
theorem transfer_eq_nil_iff (m : Memory) (value : BitVec 64) :
    m.transfer (strRemotes value) = [] ↔ m.mapped value = false := by
  have hhead : window value = value :: (window value).tail := by
    simp [window, kMaxStrLen, List.range_succ_eq_map]
  rw [transfer_window, List.map_eq_nil_iff, hhead]
  by_cases hm : m.mapped value = true
  · rw [List.takeWhile_cons_of_pos hm]
    exact iff_of_false (List.cons_ne_nil _ _) (by rw [hm]; exact Bool.noConfusion)
  · rw [List.takeWhile_cons_of_neg hm]
    exact iff_of_true rfl (Bool.not_eq_true _ ▸ hm)

/-- The number of bytes that some vectors ask for. -/
def totalLen : List IoVec → Nat
  | [] => 0
  | v :: remote => v.len + totalLen remote

theorem totalLen_eq (remote : List IoVec) :
    totalLen remote = (remote.flatMap IoVec.addrs).length := by
  induction remote with
  | nil => rfl
  | cons v remote ih =>
    rw [totalLen, ih, List.flatMap_cons, List.length_append]
    simp [IoVec.addrs]

/-- No page boundary lies within the vector. -/
theorem IoVec.InPage.same_page {v : IoVec} (h : v.InPage) {a : BitVec 64} (ha : a ∈ v.addrs) :
    a.toNat / 4096 = v.base.toNat / 4096 := by
  simp only [IoVec.addrs, List.mem_map, List.mem_range] at ha
  obtain ⟨i, hi, rfl⟩ := ha
  have hfits := h.fits
  have hlt := v.base.isLt
  rw [BitVec.toNat_add, BitVec.toNat_ofNat]
  omega

/-! ## 2. What is written of them -/

/-- What `StrType::write` does with the bytes it got. -/
def writeQuoted (buf : List (BitVec 8)) (os : OStream) : OStream :=
  let (os, i) := writeChars buf (os.put ['"'])
  let os := os.put ['"']
  if i = kMaxStrLen then os.put "...".toList else os

/-- `StrType::write` on any stream: the error text, or the bytes in quotes. -/
theorem StrType.write_cases (target : Tid) (os : OStream) (value : BitVec 64) (w : World) :
    Ends (StrType.write target os value) w
      (fun os' _ =>
        ((w.mem target).mapped value = false ∧ os' = os.put "<fault>".toList) ∨
        ((w.mem target).mapped value = true ∧
          os' = writeQuoted ((w.mem target).transfer (strRemotes value)) os))
      (fun f _ => Unserved target w 1 f) := by
  simp only [StrType.write, ends_bind, ends_tryCatch, ends_map]
  refine (processVmReadv_spec target (strRemotes value) w).mono ?_ ?_
  · rintro buf w' ⟨rfl, hne, -, -⟩
    rw [ne_eq, transfer_eq_nil_iff, Bool.not_eq_false] at hne
    exact Or.inr ⟨hne, rfl⟩
  · rintro f w' (⟨rfl, hnil, -, -⟩ | ⟨rfl, hdead⟩)
    · exact Or.inl ⟨(transfer_eq_nil_iff _ _).mp hnil, rfl⟩
    · exact ⟨rfl, hdead⟩

/-- Whatever the stream pads with, a text ends with what was put last. -/
theorem getLast_put (os : OStream) {s : Str} (hs : s ≠ []) :
    (os.put s).text.getLast? = s.getLast? := by
  have hc : s.getLast? = some (s.getLast hs) := List.getLast?_eq_some_getLast hs
  simp only [OStream.put, List.getLast?_append, hc, Option.some_or]

/-- The text in quotes is not the error text. -/
theorem writeQuoted_ne_fault (buf : List (BitVec 8)) (os : OStream) :
    (writeQuoted buf os).text ≠ (os.put "<fault>".toList).text := by
  intro h
  have hfault := getLast_put os (s := "<fault>".toList) (by decide)
  rw [← h] at hfault
  unfold writeQuoted at hfault
  simp only at hfault
  split at hfault
  · rw [getLast_put _ (by decide)] at hfault
    revert hfault
    decide
  · rw [getLast_put _ (by decide)] at hfault
    revert hfault
    decide

/-- **The split of the read at a page boundary is right.**  For every address, the vectors
are not empty, lie within a page each, and cover the 32 bytes from there on in order.  So a
read gets the longest readable prefix of these, and `<fault>` is printed if and only if the
page of the address is unreadable. -/
theorem strType_reads (value : BitVec 64) :
    (∀ v ∈ strRemotes value,
      0 < v.len ∧ ∀ a ∈ v.addrs, a.toNat / 4096 = v.base.toNat / 4096) ∧
    totalLen (strRemotes value) = kMaxStrLen ∧
    (strRemotes value).flatMap IoVec.addrs = window value ∧
    ∀ (target : Tid) (w : World),
      Ends (processVmReadv target (strRemotes value)) w
        (fun bytes _ => LongestReadable (w.mem target) value bytes)
        (fun f _ => (f = .systemError EFAULT ∧ LongestReadable (w.mem target) value []) ∨
          Unserved target w 1 f) ∧
      ∀ os, Ends (StrType.write target os value) w
        (fun os' _ => os'.text = (os.put "<fault>".toList).text ↔
          (w.mem target).mapped value = false)
        (fun f _ => Unserved target w 1 f) := by
  obtain ⟨hpage, hwindow⟩ := strRemotes_spec value
  refine ⟨fun v hv => ⟨(hpage v hv).pos, fun a ha => (hpage v hv).same_page ha⟩, ?_, hwindow, ?_⟩
  · rw [totalLen_eq, hwindow, length_window]
  · intro target w
    have hlongest := longestReadable_transfer (w.mem target) value
    refine ⟨(processVmReadv_spec target (strRemotes value) w).mono ?_ ?_, fun os => ?_⟩
    · rintro bytes w' ⟨rfl, -, -, -⟩
      exact hlongest
    · rintro f w' (⟨rfl, hnil, -, -⟩ | hdead)
      · rw [hnil] at hlongest
        exact Or.inl ⟨rfl, hlongest⟩
      · exact Or.inr hdead
    · refine (StrType.write_cases target os value w).mono ?_ fun f w' h => h
      rintro os' w' (⟨hm, rfl⟩ | ⟨hm, rfl⟩)
      · exact iff_of_true rfl hm
      · exact iff_of_false (writeQuoted_ne_fault _ os) (by rw [hm]; exact Bool.noConfusion)

/-! ## 3. The bytes that are shown -/

/-- The `i`th address from `value` on. -/
def addrAt (value : BitVec 64) (i : Nat) : BitVec 64 := value + BitVec.ofNat 64 i

/-- `b` is what there is to show at `value`: non-NUL bytes that can be read, up to the first
NUL, the first unreadable page or the 32nd byte. -/
structure Found (m : Memory) (value : BitVec 64) (b : List (BitVec 8)) : Prop where
  short : b.length ≤ kMaxStrLen
  nonzero : ∀ c ∈ b, c ≠ 0
  mapped : ∀ i < b.length, m.mapped (addrAt value i) = true
  bytes : (List.range b.length).map (fun i => m.byte (addrAt value i)) = b
  ends : b.length < kMaxStrLen → m.mapped (addrAt value b.length) = true →
    m.byte (addrAt value b.length) = 0

/-- A byte that is shown, if those before it are. -/
def good (m : Memory) (value : BitVec 64) (i : Nat) : Bool :=
  m.byte (addrAt value i) ≠ 0 && m.mapped (addrAt value i)

theorem good_iff {m : Memory} {value : BitVec 64} {i : Nat} :
    good m value i = true ↔
      m.byte (addrAt value i) ≠ 0 ∧ m.mapped (addrAt value i) = true := by
  rw [good, Bool.and_eq_true, decide_eq_true_eq]

theorem shown_transfer_eq (m : Memory) (value : BitVec 64) :
    shown (m.transfer (strRemotes value)) =
      ((List.range kMaxStrLen).takeWhile (good m value)).map fun i => m.byte (addrAt value i) := by
  rw [transfer_window, window, shown, List.takeWhile_map, List.takeWhile_map, List.takeWhile_map,
    List.takeWhile_takeWhile, List.map_map]
  congr 1
  refine congrArg (fun p => List.takeWhile p (List.range kMaxStrLen)) ?_
  funext i
  rw [Bool.eq_iff_iff, good_iff]
  simp [addrAt]

/-- The numbers below the first that fails a test. -/
theorem takeWhile_range {p : Nat → Bool} {n k : Nat} (hk : k ≤ n) (hp : ∀ i < k, p i = true)
    (hstop : k < n → p k = false) : (List.range n).takeWhile p = List.range k := by
  obtain ⟨j, rfl⟩ := Nat.exists_eq_add_of_le hk
  rw [List.range_add, List.takeWhile_append_of_pos fun i hi => hp i (List.mem_range.mp hi)]
  cases j with
  | zero => simp
  | succ j =>
    have hfail : ¬ p (k + 0) = true := by
      rw [Nat.add_zero, hstop (by omega)]
      exact Bool.noConfusion
    rw [List.range_succ_eq_map, List.map_cons, List.takeWhile_cons_of_neg hfail, List.append_nil]

theorem Found.good_of_lt {m : Memory} {value : BitVec 64} {b : List (BitVec 8)}
    (h : Found m value b) {i : Nat} (hi : i < b.length) : good m value i = true := by
  refine good_iff.mpr ⟨h.nonzero _ ?_, h.mapped i hi⟩
  rw [← h.bytes]
  exact List.mem_map.mpr ⟨i, by simpa using hi, rfl⟩

/-- What is to be shown is shown. -/
theorem Found.shown_eq {m : Memory} {value : BitVec 64} {b : List (BitVec 8)}
    (h : Found m value b) : shown (m.transfer (strRemotes value)) = b := by
  have hstop : b.length < kMaxStrLen → good m value b.length = false := by
    intro hlt
    rw [Bool.eq_false_iff]
    intro hg
    obtain ⟨hne, hm⟩ := good_iff.mp hg
    exact hne (h.ends hlt hm)
  rw [shown_transfer_eq, takeWhile_range h.short (fun i hi => h.good_of_lt hi) hstop, h.bytes]

/-- **There is always something to show**, if only the empty string. -/
theorem found_shown (m : Memory) (value : BitVec 64) :
    Found m value (shown (m.transfer (strRemotes value))) := by
  obtain ⟨htake, hstop⟩ := takeWhile_eq_take (good m value) (List.range kMaxStrLen)
  rw [shown_transfer_eq]
  generalize hk : ((List.range kMaxStrLen).takeWhile (good m value)).length = k at htake hstop
  have hle : k ≤ kMaxStrLen := by
    have hlen := (List.takeWhile_prefix (good m value) (l := List.range kMaxStrLen)).length_le
    rw [hk, List.length_range] at hlen
    exact hlen
  rw [List.take_range, Nat.min_eq_left hle] at htake
  have hgood : ∀ i < k, good m value i = true := by
    intro i hi
    have hmem : i ∈ (List.range kMaxStrLen).takeWhile (good m value) := by
      rw [htake]
      exact List.mem_range.mpr hi
    exact List.all_eq_true.mp List.all_takeWhile i hmem
  rw [htake]
  refine ⟨?_, ?_, ?_, ?_, ?_⟩
  · simpa using hle
  · intro c hc
    obtain ⟨i, hi, rfl⟩ := List.mem_map.mp hc
    exact (good_iff.mp (hgood i (List.mem_range.mp hi))).1
  · intro i hi
    exact (good_iff.mp (hgood i (by simpa using hi))).2
  · rw [List.length_map, List.length_range]
  · rw [List.length_map, List.length_range]
    intro hlt hm
    by_contra hne
    have hfail := hstop k (by rw [List.getElem?_range hlt])
    rw [Bool.eq_false_iff] at hfail
    exact hfail (good_iff.mpr ⟨hne, hm⟩)

/-! ## 4. The mark -/

/-- A NUL that can be read. -/
def NulAt (m : Memory) (a : BitVec 64) : Prop := m.mapped a = true ∧ m.byte a = 0

/-- There is a whole string of fewer than 32 bytes if a NUL follows the bytes shown. -/
theorem Found.pointsTo_iff {m : Memory} {value : BitVec 64} {b : List (BitVec 8)}
    (h : Found m value b) :
    (∃ s, PointsTo m value s) ↔ b.length < kMaxStrLen ∧ NulAt m (addrAt value b.length) := by
  constructor
  · rintro ⟨s, hs⟩
    have hbytes := hs.bytes
    rw [List.range_succ, List.map_append, List.map_singleton] at hbytes
    obtain ⟨hs', hnul⟩ := List.append_inj hbytes (by rw [List.length_map, List.length_range])
    have hzero : m.byte (addrAt value s.length) = 0 := (List.cons.inj hnul).1
    have hfound : Found m value s :=
      ⟨hs.short.le, hs.nonzero, fun i hi => hs.mapped i hi.le, hs', fun _ _ => hzero⟩
    obtain rfl : b = s := h.shown_eq.symm.trans hfound.shown_eq
    exact ⟨hs.short, hs.mapped b.length (Nat.le_refl _), hzero⟩
  · rintro ⟨hlt, hm, hzero⟩
    refine ⟨b, hlt, h.nonzero, fun i hi => ?_, ?_⟩
    · rcases Nat.lt_or_eq_of_le hi with hi | rfl
      · exact h.mapped i hi
      · exact hm
    · have hbytes := h.bytes
      unfold addrAt at hbytes hzero
      rw [List.range_succ, List.map_append, List.map_singleton, hbytes, hzero]

/-- A text that ends with the mark, behind the closing quote. -/
def Marked (text : Str) : Prop := "\"...".toList <:+ text

/-- Where the mark is right: it tells whether anything but the end of the string comes after
the bytes shown. -/
def MarkTells (m : Memory) (value : BitVec 64) (b : List (BitVec 8)) (text : Str) : Prop :=
  Marked text ↔ ¬ NulAt m (addrAt value b.length)

/-- The writer counts. -/
theorem marked_writeQuoted (buf : List (BitVec 8)) (os : OStream) :
    Marked (writeQuoted buf os).text ↔ (shown buf).length = kMaxStrLen := by
  have hquote : (os.put ['"']).width = 0 := rfl
  obtain ⟨-, hlen⟩ := writeChars_appended buf (Appended.refl hquote)
  unfold writeQuoted
  simp only [hlen]
  split
  · rename_i hfull
    refine iff_of_true ?_ hfull
    refine ⟨(writeChars buf (os.put ['"'])).1.text ++ List.replicate
      ((writeChars buf (os.put ['"'])).1.width - 1) (writeChars buf (os.put ['"'])).1.fill, ?_⟩
    simp [OStream.put]
  · rename_i hshort
    refine iff_of_false (fun hmark => ?_) hshort
    obtain ⟨pre, hpre⟩ := hmark
    have hlast := getLast_put (writeChars buf (os.put ['"'])).1 (s := ['"']) (by decide)
    have hdots : "\"...".toList.getLast? = some '.' := rfl
    rw [← hpre, List.getLast?_append, hdots, Option.some_or] at hlast
    exact absurd hlast (by decide)

/-- What a run of the writer leaves, if the target answers the read. -/
theorem StrType.run_write {target : Tid} {value : BitVec 64} {w : World} (os : OStream)
    (hread : (w.mem target).mapped value = true) (hserves : w.Serves (w.cost target 1)) :
    ∃ os' w', (StrType.write target os value).run w = .ok os' w' ∧
      os' = writeQuoted ((w.mem target).transfer (strRemotes value)) os := by
  have hends := StrType.write_cases target os value w
  cases hrun : (StrType.write target os value).run w with
  | ok os' w' =>
    rcases hends.of_ok hrun with ⟨hm, -⟩ | ⟨-, hos'⟩
    · rw [hread] at hm
      cases hm
    · exact ⟨os', w', rfl, hos'⟩
  | error f w' => exact absurd hserves (hends.of_error hrun).2

/-- **The mark is right** if and only if the string ends within the 32 bytes that are read,
or there are 32 bytes to show and the string goes on. -/
theorem marked_iff {target : Tid} (os : OStream) {value : BitVec 64} {w : World}
    (hread : (w.mem target).mapped value = true) (hserves : w.Serves (w.cost target 1)) :
    ∃ os' w' b, (StrType.write target os value).run w = .ok os' w' ∧
      Found (w.mem target) value b ∧
      (MarkTells (w.mem target) value b os'.text ↔
        (∃ s, PointsTo (w.mem target) value s) ∨
        ((∀ i < kMaxStrLen, good (w.mem target) value i = true) ∧
          ¬ NulAt (w.mem target) (addrAt value kMaxStrLen))) := by
  obtain ⟨os', w', hrun, rfl⟩ := StrType.run_write os hread hserves
  have hfound := found_shown (w.mem target) value
  refine ⟨_, w', _, hrun, hfound, ?_⟩
  rw [MarkTells, marked_writeQuoted]
  generalize shown ((w.mem target).transfer (strRemotes value)) = b at hfound
  by_cases hfull : b.length = kMaxStrLen
  · -- 32 bytes are shown, and the 33rd decides
    rw [hfound.pointsTo_iff, iff_true_left hfull, hfull]
    constructor
    · intro hno
      exact Or.inr ⟨fun i hi => hfound.good_of_lt (hfull.symm ▸ hi), hno⟩
    · rintro (⟨hlt, -⟩ | ⟨-, hno⟩)
      · exact absurd hlt (Nat.lt_irrefl _)
      · exact hno
  · have hlt : b.length < kMaxStrLen := Nat.lt_of_le_of_ne hfound.short hfull
    rw [hfound.pointsTo_iff, iff_false_left hfull, not_not]
    constructor
    · exact fun hnul => Or.inl ⟨hlt, hnul⟩
    · rintro (⟨-, hnul⟩ | ⟨hall, -⟩)
      · exact hnul
      · -- the byte after the last one shown would have been shown, too
        obtain ⟨hne, hm⟩ := good_iff.mp (hall b.length hlt)
        exact absurd (hfound.ends hlt hm) hne

/-- A target with this memory that is not killed. -/
def withMemory (m : Memory) : World := { mem := fun _ => m, child := 1, life := none }

theorem withMemory_serves (m : Memory) (n : Nat) : (withMemory m).Serves n := by
  intro k hk
  cases hk

/-- 40 times the letter `a` from the start of page 1 on, then NULs. -/
def longString : Memory :=
  { readable := fun _ => true, byte := fun a => if a.toNat < 0x1028 then 0x61 else 0 }

/-- A string of 40 bytes is cut and marked, and that is right. -/
theorem marked_long :
    ∃ os' w' b, (StrType.write 1 OStream.new 0x1000).run (withMemory longString) = .ok os' w' ∧
      Found longString 0x1000 b ∧
      os'.text = ['"'] ++ List.replicate 32 'a' ++ "\"...".toList ∧
      MarkTells longString 0x1000 b os'.text := by
  have hread : ((withMemory longString).mem 1).mapped 0x1000 = true := rfl
  obtain ⟨os', w', b, hrun, hb, hiff⟩ :=
    marked_iff OStream.new hread (withMemory_serves _ _)
  have htext : (match (StrType.write 1 OStream.new 0x1000).run (withMemory longString) with
      | .ok os _ => os.text
      | .error _ _ => []) = ['"'] ++ List.replicate 32 'a' ++ "\"...".toList := by decide +kernel
  rw [hrun] at htext
  refine ⟨os', w', b, hrun, hb, htext, hiff.mpr (Or.inr ⟨?_, ?_⟩)⟩
  · have hgood : ∀ i < kMaxStrLen, good longString 0x1000 i = true := by decide +kernel
    exact hgood
  · -- the string goes on
    rintro ⟨-, hnul⟩
    exact absurd hnul (by decide)

/-- 32 times the letter `a` from the start of page 1 on, then NULs. -/
def wholeString : Memory :=
  { readable := fun _ => true, byte := fun a => if a.toNat < 0x1020 then 0x61 else 0 }

/-- The letter `a` all over page 1, and nothing else to read. -/
def cutString : Memory := { readable := fun page => page = 1, byte := fun _ => 0x61 }

/-- **The mark misleads both ways.**  A string of just 32 bytes is shown in full and marked
all the same; one that runs into an unreadable page is cut off without a mark. -/
theorem mark_misleads :
    (∃ os' w' b, (StrType.write 1 OStream.new 0x1000).run (withMemory wholeString) = .ok os' w' ∧
      Found wholeString 0x1000 b ∧ ¬ MarkTells wholeString 0x1000 b os'.text) ∧
    (∃ os' w' b, (StrType.write 1 OStream.new 0x1ffe).run (withMemory cutString) = .ok os' w' ∧
      Found cutString 0x1ffe b ∧ ¬ MarkTells cutString 0x1ffe b os'.text) := by
  constructor
  · have hread : ((withMemory wholeString).mem 1).mapped 0x1000 = true := rfl
    obtain ⟨_, w', hrun, rfl⟩ := StrType.run_write OStream.new hread (withMemory_serves _ _)
    refine ⟨_, w', _, hrun, found_shown wholeString 0x1000, ?_⟩
    have hlen : (shown (wholeString.transfer (strRemotes 0x1000))).length = kMaxStrLen := by
      decide +kernel
    rw [MarkTells, marked_writeQuoted, hlen]
    have hnul : NulAt wholeString (addrAt 0x1000 kMaxStrLen) := ⟨rfl, by decide⟩
    exact fun h => (h.mp hlen) hnul
  · have hread : ((withMemory cutString).mem 1).mapped 0x1ffe = true := rfl
    obtain ⟨_, w', hrun, rfl⟩ := StrType.run_write OStream.new hread (withMemory_serves _ _)
    refine ⟨_, w', _, hrun, found_shown cutString 0x1ffe, ?_⟩
    have hlen : (shown (cutString.transfer (strRemotes 0x1ffe))).length = 2 := by
      decide +kernel
    rw [MarkTells, marked_writeQuoted, hlen]
    have hnul : ¬ NulAt cutString (addrAt 0x1ffe 2) := fun h => absurd h.1 (by decide)
    intro h
    have hfull : (shown (cutString.transfer (strRemotes 0x1ffe))).length = kMaxStrLen := h.mpr hnul
    rw [hlen] at hfull
    exact absurd hfull (by decide)

end GravelBox
