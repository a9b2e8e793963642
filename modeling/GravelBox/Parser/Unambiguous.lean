/-
# When the text determines the call

The policy decides on the text of a call, so two different calls should not have the same
text.  Names, separators and numbers can be told apart, and so can the bytes of a string; but
`StrType::write` does not escape the quotation mark (`parser/argtypes.cpp`, lines 71 to 88), so
where a string ends can be told only if it is the last one that may contain a quotation mark.

`unambiguous_iff` draws the line: the text determines the call for every table whose
definitions have at most one string parameter, and for no other.  Where the strings contain no
quotation mark it determines the call in any case.

Both directions are work.  That one string is harmless is shown by taking a text apart from both
ends: the parameters before the string end at a comma, since no number has one, and those behind it
are found from the end of the text.  That two strings are too many is shown by two calls with one
text, for any definition with two string parameters, wherever they stand: the bytes `", "` are moved
from one string to the other (`two_strings_collide`).

What "determines the call" means is stated first (`SameCall`): the number, the values of all
parameters as far as their types go, and of each string the bytes.  It cannot mean the registers,
since a type of 32 bits shows only half of one, and a register behind the last parameter is not
shown at all.

The names in the table are taken to be identifiers, different from each other, and the definitions
to fit the six registers (`WellNamed`); the constructor checks none of that.  Not claimed: anything
about strings of 32 bytes and more, which are cut, or that cannot be read.
-/
import GravelBox.Parser.Parser
import GravelBox.Parser.StrRead

namespace GravelBox

open Stateful Codes

/-! ## 1. Calls, and what their text should determine -/

/-- A system call, and the memory of the process that makes it. -/
structure MadeCall where
  args : SyscallArgs
  mem : Memory

/-- The parser returns `s` for the call, in some world where the memory is the caller's. -/
def Parser.Renders (p : Parser) (ndebug : Bool) (c : MadeCall) (s : Str) : Prop :=
  ∃ w w', w.mem p.target = c.mem ∧ (p.call ndebug c.args).run w = .ok s w'

/-- Every `char*` argument points to a readable NUL-terminated string of fewer than 32 bytes. -/
def Parser.Readable (p : Parser) (c : MadeCall) : Prop :=
  ∀ d, p.defOf c.args = some d → ∀ k, d.argtypes[k]? = some .str →
    ∀ v, argAt c.args.args k = some v → ∃ s, PointsTo c.mem v s

/-- None of these strings contains a quotation mark. -/
def Parser.QuoteFree (p : Parser) (c : MadeCall) : Prop :=
  ∀ d, p.defOf c.args = some d → ∀ k, d.argtypes[k]? = some .str →
    ∀ v, argAt c.args.args k = some v → ∀ s, PointsTo c.mem v s → (0x22 : BitVec 8) ∉ s

/-- The same value, modulo the width of the type; for a `char*`, the same string. -/
def SameParam (m m' : Memory) : ArgType → BitVec 64 → BitVec 64 → Prop
  | .sint32, v, v' | .uint32, v, v' => v.truncate 32 = v'.truncate 32
  | .str, v, v' => ∀ s s', PointsTo m v s → PointsTo m' v' s' → s = s'
  | _, v, v' => v = v'

/-- The same call, as far as the text should tell. -/
structure SameCall (p : Parser) (c c' : MadeCall) : Prop where
  int80 : c.args.int80 = c'.args.int80
  number : c.args.number = c'.args.number
  params : ∀ d, p.defOf c.args = some d → ∀ k ty, d.argtypes[k]? = some ty →
    ∀ v v', argAt c.args.args k = some v → argAt c'.args.args k = some v' →
      SameParam c.mem c'.mem ty v v'
  /-- A call without a definition shows its registers. -/
  regs : p.defOf c.args = none → c.args.args = c'.args.args

/-- Calls that satisfy `Q` and have the same text are the same. -/
def Parser.UnambiguousOn (p : Parser) (Q : MadeCall → Prop) : Prop :=
  ∀ ndebug c c' s, p.Readable c → p.Readable c' → Q c → Q c' →
    p.Renders ndebug c s → p.Renders ndebug c' s → SameCall p c c'

/-- A table of definitions as the source expects it. -/
structure Parser.WellNamed (p : Parser) : Prop where
  ident : ∀ n d, p.syscallMap.lookup n = some d → ∀ c ∈ d.fname, c.isAlphanum ∨ c = '_'
  fresh : ∀ n d, p.syscallMap.lookup n = some d →
    d.fname ≠ "syscall".toList ∧ d.fname ≠ "syscall32".toList
  distinct : ∀ n n' d d', p.syscallMap.lookup n = some d → p.syscallMap.lookup n' = some d' →
    d.fname = d'.fname → n = n'
  short : ∀ n d, p.syscallMap.lookup n = some d → d.argtypes.length ≤ 6

/-- No definition has two string parameters. -/
def Parser.OneString (p : Parser) : Prop :=
  ∀ n d, p.syscallMap.lookup n = some d → d.argtypes.count .str ≤ 1

theorem wellNamed_single {n : BitVec 64} {d : SyscallDef}
    (hident : (d.fname.all fun c => c.isAlphanum || c = '_') = true)
    (hfresh : d.fname ≠ "syscall".toList ∧ d.fname ≠ "syscall32".toList)
    (hshort : d.argtypes.length ≤ 6) : (Parser.single n d).WellNamed := by
  have hident : ∀ c ∈ d.fname, c.isAlphanum ∨ c = '_' := by
    simpa only [List.all_eq_true, Bool.or_eq_true, decide_eq_true_eq] using hident
  refine ⟨fun n' d' hl => ?_, fun n' d' hl => ?_, fun n₁ n₂ d₁ d₂ hl₁ hl₂ _ => ?_,
    fun n' d' hl => ?_⟩
  · exact (lookup_single.mp hl).2 ▸ hident
  · exact (lookup_single.mp hl).2 ▸ hfresh
  · rw [(lookup_single.mp hl₁).1, (lookup_single.mp hl₂).1]
  · exact (lookup_single.mp hl).2 ▸ hshort

theorem defOf_eq_some {p : Parser} {args : SyscallArgs} {d : SyscallDef} :
    p.defOf args = some d ↔ args.int80 = false ∧ p.syscallMap.lookup args.number = some d := by
  unfold Parser.defOf
  cases args.int80 <;> simp

/-- What the parser returns is the text of the call. -/
theorem renders_iff {p : Parser} {ndebug : Bool} {c : MadeCall} {s : Str}
    (hfits : p.Fits c.args) : p.Renders ndebug c s ↔ s = p.text c.mem c.args := by
  constructor
  · rintro ⟨w, w', hmem, hrun⟩
    obtain ⟨htext, -⟩ := (p.call_spec ndebug c.args w).of_ok hrun
    rw [htext, hmem]
  · rintro rfl
    let w : World := ⟨fun _ => c.mem, 0, none⟩
    have hspec := p.call_spec ndebug c.args w
    cases hrun : (p.call ndebug c.args).run w with
    | ok s w' =>
      obtain ⟨rfl, -⟩ := hspec.of_ok hrun
      exact ⟨w, w', rfl, hrun⟩
    | error f w' =>
      obtain ⟨-, hun⟩ := hspec.of_error hrun
      exact absurd (fun k hk => by cases hk) (hun hfits).2

/-! ## 2. One value -/

/-- The characters of numbers and pointers are none of these. -/
def plain (c : Char) : Bool := c != ',' && c != ')' && c != '"'

theorem plain_toDigits {b n : Nat} (hb : 1 < b) (hb' : b ≤ 16) :
    (Nat.toDigits b n).all plain = true := by
  have hall : ∀ d : Fin 16, plain d.val.digitChar = true := by decide
  rw [List.all_eq_true]
  intro c hc
  obtain ⟨d, hd, rfl⟩ := mem_toDigits hb hc
  exact hall ⟨d, by omega⟩

theorem plain_decimal (i : Int) : (decimal i).all plain = true := by
  cases i with
  | ofNat n => exact plain_toDigits (by decide) (by decide)
  | negSucc n =>
    rw [decimal, List.all_cons, plain_toDigits (by decide) (by decide)]
    rfl

theorem argText_plain {m : Memory} {ty : ArgType} {v : BitVec 64} (h : ty ≠ .str) :
    (argText m ty v).all plain = true := by
  have hhex : ∀ n, (Nat.toDigits 16 n).all plain = true :=
    fun n => plain_toDigits (by decide) (by decide)
  cases ty with
  | str => exact absurd rfl h
  | unknown =>
    simp only [argText, List.all_append, hhex]
    rfl
  | sint32 | sint64 => exact plain_decimal _
  | uint32 | uint64 => exact plain_toDigits (by decide) (by decide)
  | ptr =>
    simp only [argText]
    split
    · rfl
    · rw [List.all_append, hhex]
      rfl

/-- The text of a value other than a string determines it. -/
theorem argText_inj {m m' : Memory} {ty : ArgType} {v v' : BitVec 64} (h : ty ≠ .str)
    (heq : argText m ty v = argText m' ty v') : SameParam m m' ty v v' := by
  have hhex : ∀ {w w' : BitVec 64}, Nat.toDigits 16 w.toNat = Nat.toDigits 16 w'.toNat → w = w' :=
    fun h => BitVec.eq_of_toNat_eq (toDigits_injective (by decide) (by decide) h)
  cases ty with
  | str => exact absurd rfl h
  | unknown =>
    simp only [argText, List.append_cancel_left_eq, List.append_cancel_right_eq] at heq
    exact hhex heq
  | sint32 | sint64 => exact BitVec.eq_of_toInt_eq (decimal_injective heq)
  | uint32 | uint64 =>
    exact BitVec.eq_of_toNat_eq (toDigits_injective (by decide) (by decide) heq)
  | ptr =>
    simp only [argText] at heq
    split at heq <;> rename_i hv <;> split at heq <;> rename_i hv'
    · exact hv.trans hv'.symm
    · simp at heq
    · simp at heq
    · rw [List.append_cancel_left_eq] at heq
      exact hhex heq

theorem quote_of_mem_charText : ∀ c : BitVec 8, '"' ∈ charText c → c = 0x22 := by
  decide +kernel

/-- A value followed by a text that a number would not go on with.  A string must be free of
quotation marks, or followed by a text that is. -/
theorem argText_append_inj {m m' : Memory} {ty : ArgType} {v v' : BitVec 64} {r r' : Str}
    (hr : Stops plain r) (hr' : Stops plain r')
    (hstr : ty = .str → ∃ s s', PointsTo m v s ∧ PointsTo m' v' s' ∧
      ((0x22 : BitVec 8) ∉ s ∧ (0x22 : BitVec 8) ∉ s' ∨ '"' ∉ r ∧ '"' ∉ r'))
    (heq : argText m ty v ++ r = argText m' ty v' ++ r') : SameParam m m' ty v v' ∧ r = r' := by
  rcases eq_or_ne ty .str with rfl | hty
  · obtain ⟨s, s', hs, hs', hquote⟩ := hstr rfl
    have hesc : s.flatMap charText = s'.flatMap charText ∧ r = r' := by
      simp only [argText, strText_of_pointsTo hs, strText_of_pointsTo hs', List.append_assoc,
        List.cons_append, List.cons.injEq, true_and] at heq
      have hfree : ∀ t : List (BitVec 8), (0x22 : BitVec 8) ∉ t → '"' ∉ t.flatMap charText := by
        intro t ht hmem
        obtain ⟨c, hc, hq⟩ := List.mem_flatMap.mp hmem
        exact ht (quote_of_mem_charText c hq ▸ hc)
      rcases hquote with ⟨hq, hq'⟩ | ⟨hq, hq'⟩
      · exact append_cons_inj_first (hfree s hq) (hfree s' hq') heq
      · exact append_cons_inj_last hq hq' heq
    refine ⟨fun t t' ht ht' => ?_, hesc.2⟩
    rw [ht.unique hs, ht'.unique hs']
    exact charText_prefixFree.flatMap_injective charText_ne_nil hesc.1
  · obtain ⟨htext, hrest⟩ :=
      append_inj_of_stops (argText_plain hty) (argText_plain hty) hr hr' heq
    exact ⟨argText_inj hty htext, hrest⟩

/-! ## 3. The parameters of one definition -/

section Params

variable {m m' : Memory} {args args' : Fin 6 → BitVec 64}

theorem argAt_of_lt {i : Nat} (h : i < 6) : argAt args i = some (args ⟨i, h⟩) := dif_pos h

/-- After the first parameter, what follows starts with the separator or is the end. -/
theorem paramsText_stops (i : Nat) (tys : List ArgType) :
    Stops plain (paramsText m args (i + 1) tys ++ [')']) := by
  cases tys with
  | nil => exact stops_cons.mpr rfl
  | cons ty tys =>
    simp only [paramsText, if_pos (Nat.succ_pos i), List.append_assoc]
    exact stops_cons.mpr rfl

/-- Only strings contain quotation marks. -/
theorem quote_notMem_paramsText {i : Nat} {tys : List ArgType} (h : .str ∉ tys) :
    '"' ∉ paramsText m args i tys := by
  induction tys generalizing i with
  | nil => simp [paramsText]
  | cons ty tys ih =>
    rw [List.mem_cons, not_or] at h
    simp only [paramsText, List.mem_append, not_or]
    refine ⟨⟨?_, ?_⟩, ih h.2⟩
    · split <;> decide
    · cases argAt args i with
      | none => simp
      | some v =>
        intro hq
        have hplain := List.all_eq_true.mp (argText_plain (m := m) (v := v) (Ne.symm h.1)) _ hq
        simp [plain] at hplain

/-- **The parameters can be told apart**, if at most one of them is a string or the strings
are free of quotation marks. -/
theorem paramsText_inj (tys : List ArgType) : ∀ {i : Nat}, i + tys.length ≤ 6 →
    (∀ j, tys[j]? = some .str → ∀ v v', argAt args (i + j) = some v →
      argAt args' (i + j) = some v' → ∃ s s', PointsTo m v s ∧ PointsTo m' v' s' ∧
        (tys.count .str ≤ 1 ∨ (0x22 : BitVec 8) ∉ s ∧ (0x22 : BitVec 8) ∉ s')) →
    paramsText m args i tys ++ [')'] = paramsText m' args' i tys ++ [')'] →
    ∀ j ty, tys[j]? = some ty → ∀ v v', argAt args (i + j) = some v →
      argAt args' (i + j) = some v' → SameParam m m' ty v v' := by
  induction tys with
  | nil =>
    intro i _ _ _ j ty hj
    simp at hj
  | cons ty tys ih =>
    intro i hlen hstr heq
    rw [List.length_cons] at hlen
    have hi : i < 6 := by omega
    simp only [paramsText, argAt_of_lt hi, Option.elim_some, List.append_assoc,
      List.append_cancel_left_eq] at heq
    have hstep := argText_append_inj (paramsText_stops i tys) (paramsText_stops i tys)
      (fun hty => ?_) heq
    · obtain ⟨hsame, hrest⟩ := hstep
      have htail := ih (by omega) (fun j hj v v' hv hv' => ?_) hrest
      · intro j ty' hj v v' hv hv'
        cases j with
        | zero =>
          obtain rfl : ty = ty' := by simpa using hj
          rw [Nat.add_zero, argAt_of_lt hi, Option.some.injEq] at hv hv'
          rw [← hv, ← hv']
          exact hsame
        | succ j =>
          rw [List.getElem?_cons_succ] at hj
          rw [show i + (j + 1) = i + 1 + j by omega] at hv hv'
          exact htail j ty' hj v v' hv hv'
      · rw [Nat.add_right_comm] at hv hv'
        obtain ⟨s, s', hs, hs', hquote⟩ := hstr (j + 1) hj v v' hv hv'
        refine ⟨s, s', hs, hs', hquote.imp_left fun hcount => ?_⟩
        exact Nat.le_trans (List.count_le_count_cons) hcount
    · subst hty
      obtain ⟨s, s', hs, hs', hquote⟩ := hstr 0 rfl _ _ (argAt_of_lt hi) (argAt_of_lt hi)
      refine ⟨s, s', hs, hs', ?_⟩
      rcases hquote with hcount | hfree
      · -- the only string: nothing after it contains a quotation mark
        rw [List.count_cons_self] at hcount
        have hno : .str ∉ tys := List.count_eq_zero.mp (by omega)
        have hend : '"' ∉ [')'] := by decide
        refine Or.inr ⟨?_, ?_⟩
        · rw [List.mem_append, not_or]
          exact ⟨quote_notMem_paramsText hno, hend⟩
        · rw [List.mem_append, not_or]
          exact ⟨quote_notMem_paramsText hno, hend⟩
      · exact Or.inl hfree

end Params

/-! ## 4. The whole text -/

/-- The name a call is rendered under. -/
def Parser.callName (p : Parser) (args : SyscallArgs) : Str :=
  match p.defOf args with
  | none => if args.int80 then "syscall32".toList else "syscall".toList
  | some d => d.fname

/-- What comes after the name and the parenthesis. -/
def Parser.callBody (p : Parser) (c : MadeCall) : Str :=
  match p.defOf c.args with
  | none => Nat.toDigits 10 c.args.number.toNat ++ (", ".toList ++ regsText c.args.args)
  | some d => paramsText c.mem c.args.args 0 d.argtypes ++ [')']

theorem text_eq (p : Parser) (c : MadeCall) :
    p.text c.mem c.args = p.callName c.args ++ '(' :: p.callBody c := by
  unfold Parser.text Parser.callName Parser.callBody
  cases p.defOf c.args with
  | none =>
    simp only [fallbackText]
    split <;> simp
  | some d => simp [SyscallDef.text]

theorem paren_notMem_callName {p : Parser} (hp : p.WellNamed) (args : SyscallArgs) :
    '(' ∉ p.callName args := by
  unfold Parser.callName
  cases hd : p.defOf args with
  | none =>
    simp only
    split <;> decide
  | some d =>
    intro hmem
    have hident := hp.ident _ d (defOf_eq_some.mp hd).2 '(' hmem
    revert hident
    decide

theorem regText_append_inj {args args' : Fin 6 → BitVec 64} {i : Fin 6} {r r' : Str}
    (h : regText args i ++ r = regText args' i ++ r') : args i = args' i ∧ r = r' := by
  have hstops : ∀ r : Str, Stops plain ((if i.val < 5 then ", ".toList else [')']) ++ r) := by
    intro r
    split <;> exact stops_cons.mpr rfl
  simp only [regText, List.append_assoc, List.append_cancel_left_eq] at h
  obtain ⟨hnum, hrest⟩ := append_inj_of_stops (plain_toDigits (by decide) (by decide))
    (plain_toDigits (by decide) (by decide)) (hstops r) (hstops r') h
  exact ⟨BitVec.eq_of_toNat_eq (toDigits_injective (by decide) (by decide) hnum),
    List.append_cancel_left hrest⟩

/-- The registers can be told apart. -/
theorem regsText_inj {args args' : Fin 6 → BitVec 64} (h : regsText args = regsText args') :
    args = args' := by
  have hloop : ∀ is : List (Fin 6), is.flatMap (regText args) = is.flatMap (regText args') →
      ∀ i ∈ is, args i = args' i := by
    intro is
    induction is with
    | nil => simp
    | cons i is ih =>
      intro heq
      rw [List.flatMap_cons, List.flatMap_cons] at heq
      obtain ⟨hi, hrest⟩ := regText_append_inj heq
      rw [List.forall_mem_cons]
      exact ⟨hi, ih hrest⟩
  funext i
  exact hloop (List.finRange 6) h i (List.mem_finRange i)

/-- A fallback name is no name of the table. -/
theorem callName_ne {p : Parser} (hp : p.WellNamed) {args args' : SyscallArgs} {d : SyscallDef}
    (hd : p.defOf args = some d) (hd' : p.defOf args' = none) :
    p.callName args ≠ p.callName args' := by
  obtain ⟨-, hl⟩ := defOf_eq_some.mp hd
  obtain ⟨hne, hne'⟩ := hp.fresh _ d hl
  simp only [Parser.callName, hd, hd']
  split
  · exact hne'
  · exact hne

/-- Two calls without a definition. -/
theorem sameCall_of_none {p : Parser} {c c' : MadeCall} (hd : p.defOf c.args = none)
    (hd' : p.defOf c'.args = none) (hname : p.callName c.args = p.callName c'.args)
    (hbody : p.callBody c = p.callBody c') : SameCall p c c' := by
  simp only [Parser.callName, hd, hd'] at hname
  simp only [Parser.callBody, hd, hd'] at hbody
  have hint : c.args.int80 = c'.args.int80 := by
    cases h₁ : c.args.int80 <;> cases h₂ : c'.args.int80 <;> simp [h₁, h₂] at hname ⊢
  have hsep : ∀ r : Str, Stops plain (", ".toList ++ r) := fun _ => stops_cons.mpr rfl
  obtain ⟨hnum, hregs⟩ := append_inj_of_stops (plain_toDigits (by decide) (by decide))
    (plain_toDigits (by decide) (by decide)) (hsep _) (hsep _) hbody
  refine ⟨hint, ?_, ?_, fun _ => regsText_inj (List.append_cancel_left hregs)⟩
  · exact BitVec.eq_of_toNat_eq (toDigits_injective (by decide) (by decide) hnum)
  · intro d hd''
    rw [hd] at hd''
    cases hd''

/-- Two calls with definitions. -/
theorem sameCall_of_some {p : Parser} (hp : p.WellNamed) {c c' : MadeCall} {d d' : SyscallDef}
    (hc : p.Readable c) (hc' : p.Readable c')
    (hstr : p.OneString ∨ p.QuoteFree c ∧ p.QuoteFree c') (hd : p.defOf c.args = some d)
    (hd' : p.defOf c'.args = some d') (hname : p.callName c.args = p.callName c'.args)
    (hbody : p.callBody c = p.callBody c') : SameCall p c c' := by
  simp only [Parser.callName, hd, hd'] at hname
  simp only [Parser.callBody, hd, hd'] at hbody
  obtain ⟨hint, hl⟩ := defOf_eq_some.mp hd
  obtain ⟨hint', hl'⟩ := defOf_eq_some.mp hd'
  have hnumber : c.args.number = c'.args.number := hp.distinct _ _ d d' hl hl' hname
  obtain rfl : d = d' := by
    rw [hnumber, hl', Option.some.injEq] at hl
    exact hl.symm
  refine ⟨hint.trans hint'.symm, hnumber, ?_, fun hnone => by rw [hd] at hnone; cases hnone⟩
  rintro d₁ hd₁ k ty hty v v' hv hv'
  obtain rfl : d = d₁ := Option.some.inj (hd.symm.trans hd₁)
  have hlen : 0 + d.argtypes.length ≤ 6 := by
    rw [Nat.zero_add]
    exact hp.short _ d hl
  refine paramsText_inj d.argtypes hlen ?_ hbody k ty hty v v'
    (by rwa [Nat.zero_add]) (by rwa [Nat.zero_add])
  intro j hj w w' hw hw'
  rw [Nat.zero_add] at hw hw'
  obtain ⟨s, hs⟩ := hc d hd j hj w hw
  obtain ⟨s', hs'⟩ := hc' d hd' j hj w' hw'
  refine ⟨s, s', hs, hs', ?_⟩
  rcases hstr with hone | ⟨hq, hq'⟩
  · exact Or.inl (hone _ d hl)
  · exact Or.inr ⟨hq d hd j hj w hw s hs, hq' d hd' j hj w' hw' s' hs'⟩

/-- **The text determines the call**, if its definition has at most one string parameter or
its strings are free of quotation marks. -/
theorem sameCall_of_text_eq {p : Parser} (hp : p.WellNamed) {c c' : MadeCall}
    (hc : p.Readable c) (hc' : p.Readable c')
    (hstr : p.OneString ∨ p.QuoteFree c ∧ p.QuoteFree c')
    (h : p.text c.mem c.args = p.text c'.mem c'.args) : SameCall p c c' := by
  rw [text_eq, text_eq] at h
  obtain ⟨hname, hbody⟩ := append_cons_inj_first (paren_notMem_callName hp c.args)
    (paren_notMem_callName hp c'.args) h
  cases hd : p.defOf c.args with
  | none =>
    cases hd' : p.defOf c'.args with
    | none => exact sameCall_of_none hd hd' hname hbody
    | some d' => exact absurd hname.symm (callName_ne hp hd' hd)
  | some d =>
    cases hd' : p.defOf c'.args with
    | none => exact absurd hname (callName_ne hp hd hd')
    | some d' => exact sameCall_of_some hp hc hc' hstr hd hd' hname hbody

/-! ## 5. Two calls with one text -/

section Collision

/-- A memory with `s` at 4096 and `t` at 8192, and NULs elsewhere. -/
def twoStrings (s t : List (BitVec 8)) : Memory where
  readable _ := true
  byte a :=
    if a.toNat < 4096 then 0
    else if a.toNat < 8192 then s.getD (a.toNat - 4096) 0
    else t.getD (a.toNat - 8192) 0

/-- A string that is shown whole. -/
def Short (s : List (BitVec 8)) : Prop := s.length < kMaxStrLen ∧ ∀ c ∈ s, c ≠ 0

/-- Registers that point to these two from parameters `j` and `j'`, and are 0 elsewhere. -/
def twoArgs (j j' : Nat) : Fin 6 → BitVec 64 := fun i =>
  if i.val = j then 4096 else if i.val = j' then 8192 else 0

variable {s t s' t' : List (BitVec 8)}

theorem pointsTo_of_byte {m : Memory} {a : BitVec 64} (hm : ∀ x, m.mapped x = true)
    (hshort : s.length < kMaxStrLen) (hnz : ∀ c ∈ s, c ≠ 0)
    (hbyte : ∀ i ≤ s.length, m.byte (a + BitVec.ofNat 64 i) = s.getD i 0) : PointsTo m a s := by
  refine ⟨hshort, hnz, fun i _ => hm _, ?_⟩
  refine List.ext_getElem (by simp) fun i h₁ h₂ => ?_
  rw [List.length_map, List.length_range] at h₁
  rw [List.getElem_map, List.getElem_range, hbyte i (by omega)]
  rcases Nat.lt_or_ge i s.length with hlt | hge
  · rw [List.getElem_append_left hlt]
    simp [hlt]
  · rw [List.getElem_append_right hge]
    simp [hge]

theorem pointsTo_zero : PointsTo (twoStrings s t) 0 [] := by
  refine pointsTo_of_byte (fun _ => rfl) (by decide) (by simp) fun i hi => ?_
  obtain rfl : i = 0 := by simpa using hi
  rfl

theorem pointsTo_first (h : Short s) : PointsTo (twoStrings s t) 4096 s := by
  obtain ⟨h, hnz⟩ := h
  refine pointsTo_of_byte (fun _ => rfl) h hnz fun i hi => ?_
  have hk : kMaxStrLen = 32 := rfl
  have haddr : ((4096 : BitVec 64) + BitVec.ofNat 64 i).toNat = 4096 + i := by
    rw [BitVec.toNat_add, toNat_4096, BitVec.toNat_ofNat]
    omega
  simp only [twoStrings, haddr]
  rw [if_neg (by omega), if_pos (by omega), Nat.add_sub_cancel_left]

theorem pointsTo_second (h : Short t) : PointsTo (twoStrings s t) 8192 t := by
  obtain ⟨h, hnz⟩ := h
  refine pointsTo_of_byte (fun _ => rfl) h hnz fun i hi => ?_
  have hk : kMaxStrLen = 32 := rfl
  have haddr : ((8192 : BitVec 64) + BitVec.ofNat 64 i).toNat = 8192 + i := by
    rw [BitVec.toNat_add, show (8192 : BitVec 64).toNat = 8192 from rfl, BitVec.toNat_ofNat]
    omega
  simp only [twoStrings, haddr]
  rw [if_neg (by omega), if_neg (by omega), Nat.add_sub_cancel_left]

/-- A value of 0 has the same text in all these memories. -/
theorem argText_zero (ty : ArgType) :
    argText (twoStrings s t) ty 0 = argText (twoStrings s' t') ty 0 := by
  cases ty with
  | str => exact (strText_of_pointsTo pointsTo_zero).trans (strText_of_pointsTo pointsTo_zero).symm
  | _ => rfl

theorem paramsText_append (m : Memory) (args : Fin 6 → BitVec 64) (xs ys : List ArgType) :
    ∀ i, paramsText m args i (xs ++ ys) =
      paramsText m args i xs ++ paramsText m args (i + xs.length) ys := by
  induction xs with
  | nil => simp [paramsText]
  | cons x xs ih =>
    intro i
    simp only [List.cons_append, paramsText, ih, List.append_assoc, List.length_cons]
    rw [show i + 1 + xs.length = i + (xs.length + 1) by omega]

/-- Parameters that are all 0 have the same text in all these memories. -/
theorem paramsText_zero {args : Fin 6 → BitVec 64} (tys : List ArgType) :
    ∀ {i : Nat}, (∀ k < tys.length, ∀ v, argAt args (i + k) = some v → v = 0) →
      paramsText (twoStrings s t) args i tys = paramsText (twoStrings s' t') args i tys := by
  induction tys with
  | nil => simp [paramsText]
  | cons ty tys ih =>
    intro i hzero
    have hty : argText (twoStrings s t) ty 0 = argText (twoStrings s' t') ty 0 := argText_zero ty
    have hrest := ih fun k hk v hv => hzero (k + 1) (by simpa using hk) v
      (by rwa [show i + (k + 1) = i + 1 + k by omega])
    simp only [paramsText, hrest]
    cases hv : argAt args i with
    | none => rfl
    | some v =>
      obtain rfl := hzero 0 (by simp) v hv
      rw [Option.elim_some, Option.elim_some, hty]

/-- A character that a string renders as itself. -/
def raw (c : Char) : Bool := charText (BitVec.ofNat 8 c.toNat) == [c]

/-- The bytes of a text. -/
def toBytes (text : Str) : List (BitVec 8) := text.map fun c => BitVec.ofNat 8 c.toNat

theorem flatMap_toBytes {text : Str} (h : text.all raw = true) :
    (toBytes text).flatMap charText = text := by
  induction text with
  | nil => rfl
  | cons c text ih =>
    rw [List.all_cons, Bool.and_eq_true, raw, beq_iff_eq] at h
    rw [toBytes, List.map_cons, List.flatMap_cons, h.1]
    exact congrArg (c :: ·) (ih h.2)

theorem toBytes_nonzero {text : Str} (h : text.all raw = true) : ∀ b ∈ toBytes text, b ≠ 0 := by
  rintro b hb rfl
  obtain ⟨c, hc, hzero⟩ := List.mem_map.mp hb
  have hraw := List.all_eq_true.mp h c hc
  rw [raw, hzero, beq_iff_eq] at hraw
  have hlen := congrArg List.length hraw
  rw [show (charText 0).length = 4 by decide +kernel] at hlen
  cases hlen

theorem short_nil : Short [] := ⟨by decide, nofun⟩

/-- A text that renders as itself, with a quotation mark after it. -/
theorem short_toBytes_quote {text : Str} (h : text.all raw = true) (hlen : text.length ≤ 30) :
    Short (toBytes text ++ [0x22]) := by
  have hk : kMaxStrLen = 32 := rfl
  have hbytes : (toBytes text).length = text.length := List.length_map ..
  refine ⟨by rw [List.length_append, hbytes, List.length_singleton]; omega, fun c hc => ?_⟩
  rw [List.mem_append, List.mem_singleton] at hc
  rcases hc with hc | rfl
  · exact toBytes_nonzero h c hc
  · decide

/-- With a quotation mark before it. -/
theorem short_quote_toBytes {text : Str} (h : text.all raw = true) (hlen : text.length ≤ 30) :
    Short (0x22 :: toBytes text) := by
  have hk : kMaxStrLen = 32 := rfl
  have hbytes : (toBytes text).length = text.length := List.length_map ..
  refine ⟨by rw [List.length_cons, hbytes]; omega, fun c hc => ?_⟩
  rcases List.mem_cons.mp hc with rfl | hc
  · decide
  · exact toBytes_nonzero h c hc

/-- What stands between two strings when the values between them are 0: it is short and
renders as itself. -/
theorem gap_raw {args : Fin 6 → BitVec 64} (mid : List ArgType) : ∀ {i : Nat}, 0 < i →
    .str ∉ mid → (∀ k < mid.length, argAt args (i + k) = some 0) →
    (paramsText (twoStrings s t) args i mid).all raw = true ∧
      (paramsText (twoStrings s t) args i mid).length ≤ 7 * mid.length := by
  induction mid with
  | nil => simp [paramsText]
  | cons ty mid ih =>
    intro i hi hstr hzero
    rw [List.mem_cons, not_or] at hstr
    have harg : argAt args i = some 0 := hzero 0 (by simp)
    have hpos : 0 < i + 1 := Nat.succ_pos i
    obtain ⟨hraw, hlen⟩ := ih hpos hstr.2 fun k hk => by
      rw [show i + 1 + k = i + (k + 1) by omega]
      exact hzero (k + 1) (by simpa using hk)
    have hty : argText (twoStrings s t) ty 0 = argText (twoStrings [] []) ty 0 := argText_zero ty
    have hone : (", ".toList ++ argText (twoStrings s t) ty 0).all raw = true ∧
        (", ".toList ++ argText (twoStrings s t) ty 0).length ≤ 7 := by
      rw [hty]
      clear hty
      cases ty with
      | str => exact absurd rfl hstr.1
      | _ => exact ⟨by decide +kernel, by decide +kernel⟩
    simp only [paramsText, if_pos hi, harg, Option.elim_some]
    rw [List.all_append, hone.1, hraw, List.length_append, List.length_cons]
    exact ⟨rfl, by omega⟩

theorem exists_two_str {tys : List ArgType} (h : 2 ≤ tys.count .str) :
    ∃ pre mid post, tys = pre ++ .str :: (mid ++ .str :: post) ∧ .str ∉ mid := by
  have hmem : .str ∈ tys := List.count_pos_iff.mp (by omega)
  obtain ⟨pre, rest, rfl, hpre⟩ := List.eq_append_cons_of_mem hmem
  rw [List.count_append, List.count_cons_self, List.count_eq_zero.mpr hpre] at h
  have hmem' : .str ∈ rest := List.count_pos_iff.mp (by omega)
  obtain ⟨mid, post, rfl, hmid⟩ := List.eq_append_cons_of_mem hmem'
  exact ⟨pre, mid, post, rfl, hmid⟩

/-- The string arguments of these calls are readable. -/
theorem twoArgs_readable {j j' : Nat} {k : Nat} {v : BitVec 64}
    (hs : Short s) (ht : Short t) (hv : argAt (twoArgs j j') k = some v) :
    ∃ r, PointsTo (twoStrings s t) v r := by
  unfold argAt at hv
  split at hv
  · rw [Option.some.injEq, twoArgs] at hv
    split at hv
    · exact ⟨s, hv ▸ pointsTo_first hs⟩
    · split at hv
      · exact ⟨t, hv ▸ pointsTo_second ht⟩
      · exact ⟨[], hv ▸ pointsTo_zero⟩
  · cases hv

theorem twoArgs_zero {j j' k : Nat} (hj : k ≠ j) (hj' : k ≠ j') {v : BitVec 64}
    (hv : argAt (twoArgs j j') k = some v) : v = 0 := by
  unfold argAt at hv
  split at hv
  · rw [Option.some.injEq, twoArgs, if_neg hj, if_neg hj'] at hv
    exact hv.symm
  · cases hv

/-- The text of two strings, all other values being 0. -/
theorem paramsText_two {pre mid post : List ArgType}
    (hlen : (pre ++ .str :: (mid ++ .str :: post)).length ≤ 6)
    (hs : Short s) (ht : Short t) :
    let args := twoArgs pre.length (pre.length + 1 + mid.length)
    paramsText (twoStrings s t) args 0 (pre ++ .str :: (mid ++ .str :: post)) =
      paramsText (twoStrings [] []) args 0 pre ++
        ((if pre.length > 0 then ", ".toList else []) ++
          ((['"'] ++ s.flatMap charText ++ ['"']) ++
            (paramsText (twoStrings [] []) args (pre.length + 1) mid ++
              (", ".toList ++ ((['"'] ++ t.flatMap charText ++ ['"']) ++
                paramsText (twoStrings [] []) args (pre.length + 1 + mid.length + 1) post))))) := by
  intro args
  simp only [List.length_append, List.length_cons] at hlen
  have hfirst : argAt args pre.length = some 4096 := by
    rw [argAt_of_lt (by omega)]
    simp [args, twoArgs]
  have hsecond : argAt args (pre.length + 1 + mid.length) = some 8192 := by
    rw [argAt_of_lt (by omega)]
    have hne : ¬ pre.length + 1 + mid.length = pre.length := by omega
    simp only [args, twoArgs, if_neg hne, if_true]
  have hpre : paramsText (twoStrings s t) args 0 pre = paramsText (twoStrings [] []) args 0 pre :=
    paramsText_zero pre fun k hk v hv => twoArgs_zero (by omega) (by omega) hv
  have hmid : paramsText (twoStrings s t) args (pre.length + 1) mid =
      paramsText (twoStrings [] []) args (pre.length + 1) mid :=
    paramsText_zero mid fun k hk v hv => twoArgs_zero (by omega) (by omega) hv
  have hpost : paramsText (twoStrings s t) args (pre.length + 1 + mid.length + 1) post =
      paramsText (twoStrings [] []) args (pre.length + 1 + mid.length + 1) post :=
    paramsText_zero post fun k hk v hv => twoArgs_zero (by omega) (by omega) hv
  have hgt : pre.length + 1 + mid.length > 0 := by omega
  simp only [paramsText_append, paramsText, Nat.zero_add, hfirst, hsecond, Option.elim_some, hpre,
    hmid, hpost, argText, strText_of_pointsTo (pointsTo_first (t := t) hs),
    strText_of_pointsTo (pointsTo_second (s := s) ht), if_pos hgt, List.append_assoc]

/-- What is rendered between the two strings. -/
def gap (pre mid : List ArgType) : Str :=
  paramsText (twoStrings [] []) (twoArgs pre.length (pre.length + 1 + mid.length))
    (pre.length + 1) mid ++ ", ".toList

theorem gap_short {pre mid : List ArgType} (hmid : .str ∉ mid)
    (hlen : pre.length + 2 + mid.length ≤ 6) :
    (gap pre mid).all raw = true ∧ (gap pre mid).length ≤ 30 := by
  have hzero : ∀ k < mid.length,
      argAt (twoArgs pre.length (pre.length + 1 + mid.length)) (pre.length + 1 + k) = some 0 := by
    intro k hk
    have hne : ¬ pre.length + 1 + k = pre.length := by omega
    have hne' : ¬ pre.length + 1 + k = pre.length + 1 + mid.length := by omega
    rw [argAt_of_lt (by omega)]
    simp only [twoArgs, if_neg hne, if_neg hne']
  have hpos : 0 < pre.length + 1 := Nat.succ_pos pre.length
  obtain ⟨hraw, hmidlen⟩ := gap_raw (s := []) (t := []) mid hpos hmid hzero
  have hsep : ", ".toList.all raw = true ∧ ", ".toList.length = 2 := by decide +kernel
  rw [gap, List.all_append, List.length_append, hraw, hsep.1, hsep.2]
  exact ⟨rfl, by omega⟩

/-- **Two string parameters are ambiguous.**  The strings `""` and `gap"` have the same text
as the strings `"gap` and `""`. -/
theorem two_strings_collide {p : Parser} {n : BitVec 64} {d : SyscallDef}
    (hl : p.syscallMap.lookup n = some d) (hlen : d.argtypes.length ≤ 6)
    (hcount : 2 ≤ d.argtypes.count .str) :
    ∃ c c', p.Readable c ∧ p.Readable c' ∧ p.Fits c.args ∧ p.Fits c'.args ∧
      p.text c.mem c.args = p.text c'.mem c'.args ∧ ¬ SameCall p c c' := by
  obtain ⟨pre, mid, post, htys, hmid⟩ := exists_two_str hcount
  have hlen' := htys ▸ hlen
  have hlens : pre.length + 2 + mid.length ≤ 6 := by
    simp only [List.length_append, List.length_cons] at hlen'
    omega
  let args := twoArgs pre.length (pre.length + 1 + mid.length)
  obtain ⟨hraw, hshort⟩ := gap_short hmid hlens
  have hleft := short_toBytes_quote hraw hshort
  have hright := short_quote_toBytes hraw hshort
  have hd : p.defOf ⟨n, args, false⟩ = some d := defOf_eq_some.mpr ⟨rfl, hl⟩
  have hreadable : ∀ {s t : List (BitVec 8)}, Short s → Short t →
      p.Readable ⟨⟨n, args, false⟩, twoStrings s t⟩ :=
    fun hs ht d' _ k _ v hv => twoArgs_readable hs ht hv
  have hfits : p.Fits ⟨n, args, false⟩ := by
    intro d' hd'
    rw [hd, Option.some.injEq] at hd'
    exact hd' ▸ hlen
  refine ⟨⟨⟨n, args, false⟩, twoStrings [] (toBytes (gap pre mid) ++ [0x22])⟩,
    ⟨⟨n, args, false⟩, twoStrings (0x22 :: toBytes (gap pre mid)) []⟩, hreadable short_nil hleft,
    hreadable hright short_nil, hfits, hfits, ?_, ?_⟩
  · have hquote : charText 0x22 = ['"'] := by decide +kernel
    have hesc := flatMap_toBytes hraw
    simp only [Parser.text, hd, SyscallDef.text, htys, args]
    rw [paramsText_two hlen' short_nil hleft, paramsText_two hlen' hright short_nil]
    simp only [List.flatMap_append, List.flatMap_cons, List.flatMap_nil, hesc, hquote]
    simp only [gap, List.append_assoc, List.nil_append, List.cons_append, List.append_nil]
  · intro hsame
    have hj : d.argtypes[pre.length]? = some .str := by simp [htys]
    have harg : argAt args pre.length = some 4096 := by
      rw [argAt_of_lt (by omega)]
      simp [args, twoArgs]
    have heq := hsame.params d hd pre.length .str hj 4096 4096 harg harg []
      (0x22 :: toBytes (gap pre mid)) (pointsTo_first short_nil) (pointsTo_first hright)
    cases heq

end Collision

/-! ## 6. The result -/

/-- **When the text determines the call.**  For every table of definitions: two calls with the
same text are the same, for all calls whose strings are readable, exactly when no definition
has two string parameters; and for all calls whose strings contain no quotation mark, in any
case. -/
theorem unambiguous_iff {p : Parser} (hp : p.WellNamed) :
    (p.UnambiguousOn (fun _ => True) ↔ p.OneString) ∧ p.UnambiguousOn p.QuoteFree := by
  have hfits : ∀ args, p.Fits args := fun args d hd => hp.short _ d (defOf_eq_some.mp hd).2
  have htext : ∀ {ndebug : Bool} {c c' : MadeCall} {s : Str}, p.Renders ndebug c s →
      p.Renders ndebug c' s → p.text c.mem c.args = p.text c'.mem c'.args := by
    intro ndebug c c' s hr hr'
    rw [renders_iff (hfits _)] at hr hr'
    exact hr.symm.trans hr'
  refine ⟨⟨fun hun n d hl => ?_, fun hone ndebug c c' s hc hc' _ _ hr hr' => ?_⟩,
    fun ndebug c c' s hc hc' hq hq' hr hr' => ?_⟩
  · by_contra hcount
    obtain ⟨c, c', hc, hc', hf, hf', heq, hne⟩ :=
      two_strings_collide hl (hp.short n d hl) (by omega)
    exact hne (hun true c c' _ hc hc' trivial trivial ((renders_iff hf).mpr rfl)
      ((renders_iff hf').mpr heq))
  · exact sameCall_of_text_eq hp hc hc' (Or.inl hone) (htext hr hr')
  · exact sameCall_of_text_eq hp hc hc' (Or.inr ⟨hq, hq'⟩) (htext hr hr')

/-- The definition of `open`. -/
def openDef : SyscallDef := { fname := "open".toList, argtypes := [.str, .uint64, .uint64] }

theorem open_unambiguous : (Parser.single 2 openDef).UnambiguousOn fun _ => True := by
  refine (unambiguous_iff (wellNamed_single (by decide) (by decide) (by decide))).1.mpr ?_
  intro n d hl
  obtain ⟨-, rfl⟩ := lookup_single.mp hl
  decide

/-- The definition of `rename`. -/
def renameDef : SyscallDef := { fname := "rename".toList, argtypes := [.str, .str] }

/-- `rename("", ", \"")` and `rename("\", ", "")`. -/
theorem rename_ambiguous :
    (Parser.single 82 renameDef).WellNamed ∧
      ¬ (Parser.single 82 renameDef).UnambiguousOn fun _ => True := by
  have hp : (Parser.single 82 renameDef).WellNamed :=
    wellNamed_single (by decide) (by decide) (by decide)
  let c : MadeCall := ⟨⟨82, twoArgs 0 1, false⟩, twoStrings [] [0x2c, 0x20, 0x22]⟩
  let c' : MadeCall := ⟨⟨82, twoArgs 0 1, false⟩, twoStrings [0x22, 0x2c, 0x20] []⟩
  have hd : (Parser.single 82 renameDef).defOf ⟨82, twoArgs 0 1, false⟩ = some renameDef :=
    defOf_eq_some.mpr ⟨rfl, lookup_single.mpr ⟨rfl, rfl⟩⟩
  have hfits : (Parser.single 82 renameDef).Fits ⟨82, twoArgs 0 1, false⟩ := by
    intro d hd'
    rw [hd, Option.some.injEq] at hd'
    rw [← hd']
    decide
  have htext : "rename(\"\", \", \"\")".toList =
      (Parser.single 82 renameDef).text c.mem c.args := by
    decide +kernel
  have htext' : "rename(\"\", \", \"\")".toList =
      (Parser.single 82 renameDef).text c'.mem c'.args := by
    decide +kernel
  have hleft : Short [0x2c, 0x20, 0x22] := ⟨by decide, by decide⟩
  have hright : Short [0x22, 0x2c, 0x20] := ⟨by decide, by decide⟩
  refine ⟨hp, fun hun => ?_⟩
  have hsame := hun true c c' _ (fun _ _ _ _ v hv => twoArgs_readable short_nil hleft hv)
    (fun _ _ _ _ v hv => twoArgs_readable hright short_nil hv) trivial trivial
    ((renders_iff hfits).mpr htext) ((renders_iff hfits).mpr htext')
  have heq := hsame.params renameDef hd 0 .str rfl 4096 4096 rfl rfl [] [0x22, 0x2c, 0x20]
    (pointsTo_first short_nil) (pointsTo_first hright)
  cases heq

end GravelBox
