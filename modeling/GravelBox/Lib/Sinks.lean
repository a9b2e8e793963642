/-
# Files that several streams go to

Each stream has a sink: a file, and whether it is appended to.  A `Store` has the contents of the
files and, for each stream, the position of its next write that is not appended.  What becomes of a
file does not depend on how the writes of different streams interleave if they are all appended
(`run_append` keeps everything, in order), or if only one stream goes to it (`run_alone`).  Streams
that are not appended overwrite each other, so the file gets no longer than the longest of them
(`length_run`).

A position belongs to a stream and not to a file, and that is the whole difficulty.  Two streams
that go to one file and are not appended write to the same places, each in its own time; what is
left there depends on who was last, and no statement about the content can be made without the
order.  About the length it can, since it is the largest position that any write got to.

An append does not move the position of a stream, and puts its bytes at the end of the file whoever
else has written.  Where appending and other streams are mixed the content depends on the order
again, and none of the three rules applies.

The contents are lists over any type, with a default value for what is written over by nobody: a
position behind the end of a file leaves a hole.

Nothing is claimed about writes that are not done as a whole; a write here is one step.
-/
import GravelBox.Lib.Posix

namespace Sinks

open Posix

variable {F P B : Type}

/-! ## 1. Writing -/

/-- The bytes of the writes that pass a test. -/
def data (p : F → Bool) (ws : List (F × List B)) : List B :=
  (ws.filter fun w => p w.1).flatMap Prod.snd

theorem data_cons_pos (p : F → Bool) {w : F × List B} {ws : List (F × List B)} (h : p w.1 = true) :
    data p (w :: ws) = w.2 ++ data p ws := by
  simp [data, h]

theorem data_cons_neg (p : F → Bool) {w : F × List B} {ws : List (F × List B)} (h : p w.1 = false) :
    data p (w :: ws) = data p ws := by
  simp [data, h]

/-- The files, and where each stream is. -/
structure Store (F P B : Type) where
  content : P → List B
  position : F → Nat

/-- Where the next write of a stream to a file starts. -/
def Store.start (s : Store F P B) (f : F) (path : P) (append : Bool) : Nat :=
  if append then (s.content path).length else s.position f

theorem start_append (s : Store F P B) (f : F) (path : P) :
    s.start f path true = (s.content path).length := rfl

theorem start_over (s : Store F P B) (f : F) (path : P) :
    s.start f path false = s.position f := rfl

section GoesTo

variable [DecidableEq P] (sink : F → Option (P × Bool))

/-- The stream goes to the file. -/
def goesTo (path : P) (f : F) : Bool := (sink f).any fun file => file.1 = path

theorem goesTo_iff {sink : F → Option (P × Bool)} {path : P} {f : F} :
    goesTo sink path f = true ↔ ∃ append, sink f = some (path, append) := by
  unfold goesTo
  rcases sink f with _ | ⟨path', append⟩
  · simp
  · simp

end GoesTo

variable [DecidableEq F] [DecidableEq P] [Inhabited B] (sink : F → Option (P × Bool))

/-- One write. -/
def Store.write (s : Store F P B) (w : F × List B) : Store F P B :=
  match sink w.1 with
  | none => s
  | some (path, append) =>
    { content := Function.update s.content path
        (overwrite (s.content path) (s.start w.1 path append) w.2)
      position := Function.update s.position w.1 (s.start w.1 path append + w.2.length) }

/-- Several writes, in order. -/
def Store.run (s : Store F P B) (ws : List (F × List B)) : Store F P B :=
  ws.foldl (Store.write sink) s

variable {sink} {s : Store F P B} {path : P} {w : F × List B} {ws : List (F × List B)}

@[simp] theorem run_nil : s.run sink [] = s := rfl

@[simp] theorem run_cons : s.run sink (w :: ws) = (s.write sink w).run sink ws := rfl

/-- A write elsewhere. -/
theorem content_write_other (h : goesTo sink path w.1 = false) :
    (s.write sink w).content path = s.content path := by
  unfold goesTo at h
  unfold Store.write
  rcases hsink : sink w.1 with _ | ⟨path', append⟩
  · rfl
  · simp only [hsink, Option.any_some, decide_eq_false_iff_not] at h
    exact Function.update_of_ne (Ne.symm h) _ _

theorem content_write {append : Bool} (h : sink w.1 = some (path, append)) :
    (s.write sink w).content path =
      overwrite (s.content path) (s.start w.1 path append) w.2 := by
  simp [Store.write, h]

theorem position_write {append : Bool} (h : sink w.1 = some (path, append)) :
    (s.write sink w).position w.1 = s.start w.1 path append + w.2.length := by
  simp [Store.write, h]

/-- A write of another stream. -/
theorem position_write_other {f : F} (h : f ≠ w.1) :
    (s.write sink w).position f = s.position f := by
  unfold Store.write
  rcases sink w.1 with _ | ⟨path', append⟩
  · rfl
  · exact Function.update_of_ne h _ _

/-! ## 2. Streams that are appended -/

/-- **Nothing is lost**: the file gets all that is written to it, in order. -/
theorem run_append (h : ∀ f append, sink f = some (path, append) → append = true) :
    (s.run sink ws).content path = s.content path ++ data (goesTo sink path) ws := by
  induction ws generalizing s with
  | nil => exact (List.append_nil _).symm
  | cons w ws ih =>
    rw [run_cons, ih]
    cases hw : goesTo sink path w.1 with
    | false => rw [data_cons_neg _ hw, content_write_other hw]
    | true =>
      obtain ⟨append, hsink⟩ := goesTo_iff.mp hw
      obtain rfl := h _ _ hsink
      rw [data_cons_pos _ hw, content_write hsink, start_append, overwrite_end, List.append_assoc]

/-! ## 3. One stream alone -/

/-- **The other streams do not matter**: the bytes of the only stream replace what was there, as
far as they go. -/
theorem run_alone {f : F} {done rest : List B} (hf : sink f = some (path, false))
    (halone : ∀ f' append, sink f' = some (path, append) → f' = f)
    (hcontent : s.content path = done ++ rest) (hposition : s.position f = done.length) :
    (s.run sink ws).content path =
      done ++ data (· = f) ws ++ rest.drop (data (· = f) ws).length := by
  induction ws generalizing s done rest with
  | nil => simp [data, hcontent]
  | cons w ws ih =>
    rw [run_cons]
    by_cases hw : w.1 = f
    · have hsink : sink w.1 = some (path, false) := hw ▸ hf
      have hstart : s.start w.1 path false = done.length := by
        rw [start_over, hw, hposition]
      have hcontent' : (s.write sink w).content path =
          (done ++ w.2) ++ rest.drop w.2.length := by
        rw [content_write hsink, hstart, hcontent, overwrite_append]
      have hposition' : (s.write sink w).position f = (done ++ w.2).length := by
        rw [← hw, position_write hsink, hstart, List.length_append]
      rw [ih hcontent' hposition', data_cons_pos (· = f) (decide_eq_true hw), List.length_append,
        List.drop_drop]
      simp only [List.append_assoc]
    · have hother : goesTo sink path w.1 = false := by
        refine Bool.eq_false_iff.mpr fun hgoes => hw ?_
        obtain ⟨append, hsink⟩ := goesTo_iff.mp hgoes
        exact halone _ _ hsink
      rw [data_cons_neg (· = f) (decide_eq_false hw)]
      refine ih ?_ ?_
      · rw [content_write_other hother, hcontent]
      · rw [position_write_other (Ne.symm hw), hposition]

/-! ## 4. Streams that overwrite each other -/

theorem length_overwrite {content bytes : List B} {start : Nat} (h : start ≤ content.length) :
    (overwrite content start bytes).length = max content.length (start + bytes.length) := by
  unfold overwrite
  rw [Nat.sub_eq_zero_of_le h]
  simp only [List.replicate_zero, List.append_nil, List.length_append, List.length_take,
    List.length_drop]
  omega

/-- How far a stream gets. -/
def Store.reach (s : Store F P B) (ws : List (F × List B)) (f : F) : Nat :=
  s.position f + (data (· = f) ws).length

/-- No stream to the file is appended or behind its end. -/
structure Over (sink : F → Option (P × Bool)) (path : P) (s : Store F P B) : Prop where
  noAppend : ∀ f append, sink f = some (path, append) → append = false
  inside : ∀ f, goesTo sink path f = true → s.position f ≤ (s.content path).length

/-- A write to the file. -/
theorem Over.length_write (h : Over sink path s) (hw : goesTo sink path w.1 = true) :
    ((s.write sink w).content path).length =
      max (s.content path).length (s.position w.1 + w.2.length) := by
  obtain ⟨append, hsink⟩ := goesTo_iff.mp hw
  obtain rfl := h.noAppend _ _ hsink
  rw [content_write hsink, start_over, length_overwrite (h.inside w.1 hw)]

theorem Over.write (h : Over sink path s) (w : F × List B) : Over sink path (s.write sink w) where
  noAppend := h.noAppend
  inside := by
    intro f hf
    have hinside := h.inside f hf
    cases hw : goesTo sink path w.1 with
    | false =>
      have hne : f ≠ w.1 := by
        rintro rfl
        rw [hf] at hw
        cases hw
      rw [content_write_other hw, position_write_other hne]
      exact hinside
    | true =>
      rw [h.length_write hw]
      rcases eq_or_ne f w.1 with rfl | hne
      · obtain ⟨append, hsink⟩ := goesTo_iff.mp hw
        obtain rfl := h.noAppend _ _ hsink
        rw [position_write hsink, start_over]
        exact Nat.le_max_right _ _
      · rw [position_write_other hne]
        exact Nat.le_trans hinside (Nat.le_max_left _ _)

/-- A write is counted once. -/
theorem Over.reach_write (h : Over sink path s) {f : F} (hf : goesTo sink path f = true) :
    (s.write sink w).reach ws f = s.reach (w :: ws) f := by
  unfold Store.reach
  rcases eq_or_ne f w.1 with rfl | hne
  · obtain ⟨append, hsink⟩ := goesTo_iff.mp hf
    obtain rfl := h.noAppend _ _ hsink
    rw [position_write hsink, start_over, data_cons_pos (· = w.1) (decide_eq_true rfl),
      List.length_append, Nat.add_assoc]
  · rw [position_write_other hne, data_cons_neg (· = f) (decide_eq_false hne.symm)]

/-- **The streams overwrite each other**: the file is as long as it was, or as the farthest of them
gets. -/
theorem length_run (h : Over sink path s) (ws : List (F × List B)) :
    (s.content path).length ≤ ((s.run sink ws).content path).length ∧
      (∀ f, goesTo sink path f = true → s.reach ws f ≤ ((s.run sink ws).content path).length) ∧
      (((s.run sink ws).content path).length = (s.content path).length ∨
        ∃ f, goesTo sink path f = true ∧
          ((s.run sink ws).content path).length = s.reach ws f) := by
  induction ws generalizing s with
  | nil =>
    refine ⟨Nat.le_refl _, fun f hf => ?_, .inl rfl⟩
    have hinside := h.inside f hf
    simpa [Store.reach, data] using hinside
  | cons w ws ih =>
    obtain ⟨hle, hreach, hlen⟩ := ih (h.write w)
    rw [run_cons]
    have hreach' : ∀ f, goesTo sink path f = true →
        s.reach (w :: ws) f ≤ (((s.write sink w).run sink ws).content path).length := by
      intro f hf
      rw [← h.reach_write hf]
      exact hreach f hf
    have hfar : (∃ f, goesTo sink path f = true ∧
        (((s.write sink w).run sink ws).content path).length = (s.write sink w).reach ws f) →
        ∃ f, goesTo sink path f = true ∧
          (((s.write sink w).run sink ws).content path).length = s.reach (w :: ws) f := by
      rintro ⟨f, hf, hlen⟩
      exact ⟨f, hf, hlen.trans (h.reach_write hf)⟩
    cases hw : goesTo sink path w.1 with
    | false =>
      rw [content_write_other hw] at hle hlen
      exact ⟨hle, hreach', hlen.imp id hfar⟩
    | true =>
      rw [h.length_write hw] at hle hlen
      refine ⟨Nat.le_trans (Nat.le_max_left _ _) hle, hreach', ?_⟩
      rcases hlen with hlen | hlen
      · -- the last to make it longer was `w`, or nobody was
        rcases Nat.le_total (s.position w.1 + w.2.length) (s.content path).length with hmax | hmax
        · exact .inl (hlen.trans (Nat.max_eq_left hmax))
        · refine .inr ⟨w.1, hw, Nat.le_antisymm ?_ (hreach' w.1 hw)⟩
          rw [hlen, Nat.max_eq_right hmax, Store.reach,
            data_cons_pos (· = w.1) (decide_eq_true rfl), List.length_append]
          omega
      · exact .inr (hfar hlen)

end Sinks
