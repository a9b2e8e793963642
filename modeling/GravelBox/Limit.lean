/-
# The limit on the length of a string

A configuration sets `max-string-length`, and `FileConfig` keeps it (`config/file_config.h`, line
48).  `run` makes the parser from the path of the definitions alone (`modules.cpp`, line 44), and
`StrType::write` cuts every string at the constant `kMaxStrLen` (`parser/argtypes.cpp`, line 13).
So the limit that is applied is the one configured just where the two cut the string at the same
place (`limit_applied_iff`).

The README has it that the member is the maximum number of characters that are displayed.  That is
a statement about what ends up in the text on which the policy decides, so it has to be followed
from the document of the configuration through the launch to the parser, and from the memory of
the target to its text: `ShowsFirst` says which characters of a string a text shows, and
`ReadableString.showsFirst_iff` for which numbers the text of `StrType::write` does.

What makes this hard is that the condition is about both numbers and the string: a string that is
shorter than either limit is shown whole, whatever was configured, and one of just 32 characters
is cut by neither where 32 is configured, but is marked as cut.

Not claimed: anything about strings that cannot be read; those are not cut by a limit.  And the
mark `...` after the 32nd character is not counted here; when it is right is `marked_iff`.
-/
import GravelBox.Authorisation
import GravelBox.Parser.Escapes
import GravelBox.Parser.Fresh
import GravelBox.Trace.Decision

namespace GravelBox

open Stateful

/-! ## 1. A string of any length -/

/-- At `a` there is a readable NUL-terminated string. -/
structure ReadableString (m : Memory) (a : BitVec 64) (s : List (BitVec 8)) : Prop where
  nonzero : ∀ c ∈ s, c ≠ 0
  mapped : ∀ i ≤ s.length, m.mapped (addrAt a i) = true
  bytes : (List.range s.length).map (fun i => m.byte (addrAt a i)) = s
  nul : m.byte (addrAt a s.length) = 0

/-- What there is to show of it are its first 32 bytes. -/
theorem ReadableString.found {m : Memory} {a : BitVec 64} {s : List (BitVec 8)}
    (h : ReadableString m a s) : Found m a (s.take kMaxStrLen) := by
  have hlen : (s.take kMaxStrLen).length = min kMaxStrLen s.length := List.length_take
  refine ⟨?_, fun c hc => h.nonzero c (List.mem_of_mem_take hc), ?_, ?_, ?_⟩
  · rw [hlen]
    exact Nat.min_le_left _ _
  · intro i hi
    exact h.mapped i (by omega)
  · have htake := congrArg (List.take kMaxStrLen) h.bytes
    rw [← List.map_take, List.take_range] at htake
    rw [hlen]
    exact htake
  · intro hlt _
    have hall : s.take kMaxStrLen = s := List.take_of_length_le (by omega)
    rw [hall]
    exact h.nul

/-- The text shows exactly the first `n` characters of `s`: between the quotes it has their
texts and nothing else.  There may be a mark after it. -/
def ShowsFirst (n : Nat) (s : List (BitVec 8)) (text : Str) : Prop :=
  ∃ mark, (mark = [] ∨ mark = "...".toList) ∧
    text = ['"'] ++ (s.take n).flatMap charText ++ ['"'] ++ mark

/-- **A string is cut at 32.** -/
theorem ReadableString.shows {m : Memory} {a : BitVec 64} {s : List (BitVec 8)}
    (h : ReadableString m a s) : ShowsFirst kMaxStrLen s (strText m a) := by
  have hread : m.mapped a = true := by
    have hzero := h.mapped 0 (Nat.zero_le _)
    rwa [addrAt, BitVec.add_zero] at hzero
  have hne : m.transfer (strRemotes a) ≠ [] := by
    rw [ne_eq, transfer_eq_nil_iff, hread]
    exact Bool.noConfusion
  have htext : strText m a = quoted (m.transfer (strRemotes a)) := if_neg hne
  rw [htext, quoted, h.found.shown_eq]
  refine ⟨_, ?_, rfl⟩
  split
  · exact .inr rfl
  · exact .inl rfl

/-- A text shows one number of characters, or all of them. -/
theorem ShowsFirst.take_eq {n k : Nat} {s : List (BitVec 8)} {text : Str}
    (h : ShowsFirst n s text) (h' : ShowsFirst k s text) : s.take n = s.take k := by
  obtain ⟨mark, hmark, rfl⟩ := h
  obtain ⟨mark', hmark', heq⟩ := h'
  have hquote : ∀ mark : Str, mark = [] ∨ mark = "...".toList → '"' ∉ mark := by
    rintro _ (rfl | rfl)
    · exact List.not_mem_nil
    · decide
  have hbody := congrArg betweenQuotes heq
  rw [betweenQuotes_eq (hquote mark hmark), betweenQuotes_eq (hquote mark' hmark')] at hbody
  exact charText_prefixFree.flatMap_injective charText_ne_nil hbody

/-- Two limits cut a string at the same place if they are the same or both are too high. -/
theorem take_eq_take_iff_limit {α : Type} {s : List α} {n k : Nat} :
    s.take n = s.take k ↔ n = k ∨ s.length ≤ min n k := by
  rw [List.take_eq_take_iff]
  omega

/-- **The text of a string shows the first `n` characters** if and only if `n` is 32 or the
string is no longer than either. -/
theorem ReadableString.showsFirst_iff {m : Memory} {a : BitVec 64} {s : List (BitVec 8)}
    (h : ReadableString m a s) (n : Nat) :
    ShowsFirst n s (strText m a) ↔ n = kMaxStrLen ∨ s.length ≤ min n kMaxStrLen := by
  rw [← take_eq_take_iff_limit]
  constructor
  · intro hn
    exact hn.take_eq h.shows
  · intro htake
    obtain ⟨mark, hmark, htext⟩ := h.shows
    exact ⟨mark, hmark, by rw [htake]; exact htext⟩

/-! ## 2. The text of a call -/

/-- The texts of the arguments of a call, by the definition `d`. -/
def argTexts (m : Memory) (args : Fin 6 → BitVec 64) (d : SyscallDef) : List Str :=
  (typedArgs args d.argtypes).map fun a => argText m a.1 a.2

theorem SyscallDef.text_eq {d : SyscallDef} (h : d.argtypes.length ≤ 6) (m : Memory)
    (args : Fin 6 → BitVec 64) : d.text m args = d.fname ++ joined (argTexts m args d) := by
  rw [SyscallDef.text, paramsText_eq_intercalate m args h, joined, argTexts]
  simp only [List.append_assoc]

/-- The text of one argument. -/
theorem argTexts_getElem? {m : Memory} {args : Fin 6 → BitVec 64} {d : SyscallDef} {i : Nat}
    {ty : ArgType} {a : BitVec 64} (hty : d.argtypes[i]? = some ty) (ha : argAt args i = some a) :
    (argTexts m args d)[i]? = some (argText m ty a) := by
  have harg : (List.ofFn args)[i]? = some a := by
    rw [List.getElem?_ofFn]
    exact ha
  have hzip : (typedArgs args d.argtypes)[i]? = some (ty, a) := by
    rw [typedArgs, List.getElem?_zip_eq_some]
    exact ⟨hty, harg⟩
  rw [argTexts, List.getElem?_map, hzip, Option.map_some]

/-- What the parser returned for a call that has a definition. -/
theorem text_of_call {p : Parser} {child : Tid} {args : SyscallArgs} {d : SyscallDef}
    {ndebug : Bool} {w w' : World} {text : Str} (hdef : p.defOf args = some d)
    (hcall : ((p.setpid child).call ndebug args).run w = .ok text w') :
    text = d.fname ++ joined (argTexts (w.mem child) args.args d) := by
  have hdef' : (p.setpid child).defOf args = some d := hdef
  obtain ⟨htext, hfits, -, -⟩ := ((p.setpid child).call_spec ndebug args w).of_ok hcall
  rw [htext, Parser.text, hdef']
  exact SyscallDef.text_eq (hfits d hdef') (w.mem child) args.args

/-! ## 3. The text that is decided on -/

variable {Re : Type} (lib : Libraries Re)

/-- The rendering `text` of a call is its name and the texts of its arguments, and the text of
argument `i` shows exactly the first `n` characters of `s`. -/
def LimitApplied (n : Nat) (m : Memory) (args : Fin 6 → BitVec 64) (d : SyscallDef) (i : Nat)
    (s : List (BitVec 8)) (text : Str) : Prop :=
  text = d.fname ++ joined (argTexts m args d) ∧
    ∃ t, (argTexts m args d)[i]? = some t ∧ ShowsFirst n s t

/-- A launch keeps the limit. -/
theorem Granted.maxStrLen {env : Environment} {opts : Options} {user : User}
    {c c' : FileConfig Re} (h : Granted lib env opts c user c') : c'.maxStrLen = c.maxStrLen := by
  rcases h with ⟨-, rfl⟩ | ⟨-, k, -, rfl⟩
  · rfl
  · rfl

/-- **The limit that is applied.**  `c` is a configuration that was read, and `p` and `c'` are
what `tracer.run` is then given.  The callback decides on the text `p` returns, by the actions
of `c'`, which keeps the limit that `c` sets.  That limit is the one applied to the string `s`
at argument `i` if and only if it is 32, or the string is no longer than 32 and than the
limit. -/
theorem limit_applied_iff {env : Environment} {opts : Options} {user : User}
    {c c' : FileConfig Re} {p : Parser} {child : Tid} {args : SyscallArgs} {d : SyscallDef}
    {i : Nat} {a : BitVec 64} {s : List (BitVec 8)} {ndebug : Bool} {w w' : World} {text : Str}
    (hread : FileConfig.read lib env.files opts.config = .ok c)
    (hlaunch : Reaches lib env opts user p c') (hdef : p.defOf args = some d)
    (hstr : d.argtypes[i]? = some .str) (harg : argAt args.args i = some a)
    (hs : ReadableString (w.mem child) a s)
    (hcall : ((p.setpid child).call ndebug args).run w = .ok text w') :
    c'.maxStrLen = c.maxStrLen ∧
    (∀ user', ((tracerCallbacks lib ndebug).syscallCallback args).run
        ((p.setpid child, { inner := c', user := user' }), w) =
      (zoom (fun s => s.1.2) (fun s t => ((s.1.1, t), s.2)) (decideCall lib text)).run
        ((p.setpid child, { inner := c', user := user' }), w')) ∧
    (LimitApplied c.maxStrLen.toNat (w.mem child) args.args d i s text ↔
      c.maxStrLen.toNat = kMaxStrLen ∨ s.length ≤ min c.maxStrLen.toNat kMaxStrLen) := by
  refine ⟨(hlaunch.granted hread).1.maxStrLen lib, fun _ => run_callback lib hcall _, ?_⟩
  have htext := text_of_call hdef hcall
  have harg' := argTexts_getElem? (m := w.mem child) hstr harg
  rw [← hs.showsFirst_iff]
  constructor
  · rintro ⟨-, t, ht, hshows⟩
    obtain rfl := Option.some.inj (ht.symm.trans harg')
    exact hshows
  · intro hshows
    exact ⟨htext, _, harg', hshows⟩

/-! ## 4. Limits of 32 and of two characters -/

/-- The document of a configuration that sets the limit to `n`. -/
def limitDoc (n : Nat) : Json :=
  .object [("syscall-definition".toList, .string "defs".toList),
    ("max-string-length".toList, .int n), ("default-action".toList, .string "ask".toList),
    ("action-groups".toList, .array [])]

/-- A definition list with one call. -/
def openPathDoc : Json :=
  .array [.object [("number".toList, .int 2), ("name".toList, .string "open".toList),
    ("params".toList, .array [.string "char*".toList])]]

/-- Its definition. -/
def openPathDef : SyscallDef := { fname := "open".toList, argtypes := [.str] }

/-- Libraries that know these documents. -/
def limitLib (n : Nat) : Libraries Unit where
  toJsonCpp := .ofDocuments [limitDoc n, openPathDoc]
  compile _ := .error "not known".toList
  fullMatch _ _ := false
  hmac _ _ := List.replicate kHashSize '0'
  hmac_length _ _ := rfl

/-- The files of the launch. -/
def limitEnv (n : Nat) : Environment where
  files path :=
    if path = "config".toList then some (limitDoc n).write
    else if path = "defs".toList then some openPathDoc.write
    else none
  starts _ := true
  failure _ := .blocked

/-- The signature is not verified. -/
def limitOptions : Options :=
  { config := "config".toList, pinentry := some "pinentry-tty".toList, noSignature := true }

/-- A user who is not asked anything. -/
def silentUser : User := { confirms := [], passwords := [], asked := [] }

/-- The configuration that is read. -/
def limitConfig (n : Nat) : FileConfig Unit :=
  { config := (limitDoc n).write, signature := [], key := [], passwordHash := []
    syscalldef := "defs".toList, pinentry := [], maxStrLen := BitVec.ofNat 64 n
    actionDefault := .ask, actionGroups := [] }

/-- It is read, and the launch gets to the tracer with it. -/
structure Launched (n : Nat) : Prop where
  read : FileConfig.read (limitLib n) (limitEnv n).files limitOptions.config = .ok (limitConfig n)
  reaches : Reaches (limitLib n) (limitEnv n) limitOptions silentUser (.single 2 openPathDef)
    (limitConfig n).dismissSignature.removePassword

theorem launched_two : Launched 2 := ⟨rfl, _, rfl⟩

theorem launched_standard : Launched 32 := ⟨rfl, _, rfl⟩

/-- `open` of the string at the start of page 1. -/
def openPathCall : SyscallArgs :=
  { number := 2, args := fun i => if i = 0 then 0x1000 else 0, int80 := false }

theorem openPath_defOf : (Parser.single 2 openPathDef).defOf openPathCall = some openPathDef := by
  have hlookup : (Parser.single 2 openPathDef).syscallMap.lookup 2 = some openPathDef :=
    lookup_single.mpr ⟨rfl, rfl⟩
  exact hlookup

/-- What is returned for that call. -/
theorem exists_openPath_text (b : List (BitVec 8)) :
    ∃ text w', (((Parser.single 2 openPathDef).setpid 1).call false openPathCall).run
      (withMemory (stringAt b)) = .ok text w' := by
  have hspec := ((Parser.single 2 openPathDef).setpid 1).call_spec false openPathCall
    (withMemory (stringAt b))
  cases hrun : (((Parser.single 2 openPathDef).setpid 1).call false openPathCall).run
      (withMemory (stringAt b)) with
  | ok text w' => exact ⟨text, w', rfl⟩
  | error f w' =>
    have hfits : ((Parser.single 2 openPathDef).setpid 1).Fits openPathCall := by
      intro d hd
      obtain rfl : openPathDef = d := Option.some.inj (openPath_defOf.symm.trans hd)
      decide
    exact absurd (withMemory_serves _ _) ((hspec.of_error hrun).2 hfits).2

/-- A path of 40 letters is cut at 32, as the configuration says. -/
theorem limit_applied_cut :
    ∃ text w', (((Parser.single 2 openPathDef).setpid 1).call false openPathCall).run
        (withMemory (stringAt (List.replicate 40 0x61))) = .ok text w' ∧
      text = "open(\"".toList ++ List.replicate 32 'a' ++ "\"...)".toList ∧
      LimitApplied 32 (stringAt (List.replicate 40 0x61)) openPathCall.args openPathDef 0
        (List.replicate 40 0x61) text := by
  obtain ⟨text, w', hcall⟩ := exists_openPath_text (List.replicate 40 0x61)
  have hs : ReadableString ((withMemory (stringAt (List.replicate 40 0x61))).mem 1) 0x1000
      (List.replicate 40 0x61) :=
    ⟨by decide, fun _ _ => rfl, by decide +kernel, by decide +kernel⟩
  have harg : argAt openPathCall.args 0 = some 0x1000 := rfl
  have hlimit := limit_applied_iff (limitLib 32) launched_standard.read launched_standard.reaches
    openPath_defOf rfl harg hs hcall
  refine ⟨text, w', hcall, ?_, hlimit.2.2.mpr (.inl rfl)⟩
  rw [text_of_call openPath_defOf hcall]
  decide +kernel

/-- **The limit is not applied.**  It is set to 2, and three characters of a path are shown. -/
theorem limit_ignored :
    FileConfig.read (limitLib 2) (limitEnv 2).files limitOptions.config = .ok (limitConfig 2) ∧
    (limitConfig 2).maxStrLen = 2 ∧
    Reaches (limitLib 2) (limitEnv 2) limitOptions silentUser (.single 2 openPathDef)
      (limitConfig 2).dismissSignature.removePassword ∧
    ReadableString (stringAt [0x61, 0x62, 0x63]) 0x1000 [0x61, 0x62, 0x63] ∧
    ∃ text w', (((Parser.single 2 openPathDef).setpid 1).call false openPathCall).run
        (withMemory (stringAt [0x61, 0x62, 0x63])) = .ok text w' ∧
      text = "open(\"abc\")".toList ∧
      ¬ LimitApplied 2 (stringAt [0x61, 0x62, 0x63]) openPathCall.args openPathDef 0
        [0x61, 0x62, 0x63] text := by
  have hs : ReadableString (stringAt [0x61, 0x62, 0x63]) 0x1000 [0x61, 0x62, 0x63] :=
    ⟨by decide, fun _ _ => rfl, by decide +kernel, by decide +kernel⟩
  obtain ⟨text, w', hcall⟩ := exists_openPath_text [0x61, 0x62, 0x63]
  have htext := text_of_call openPath_defOf hcall
  refine ⟨launched_two.read, rfl, launched_two.reaches, hs, text, w', hcall, ?_, ?_⟩
  · rw [htext]
    decide +kernel
  · rintro ⟨-, t, ht, hshows⟩
    have harg : (argTexts (stringAt [0x61, 0x62, 0x63]) openPathCall.args openPathDef)[0]? =
        some (argText (stringAt [0x61, 0x62, 0x63]) .str 0x1000) :=
      argTexts_getElem? rfl rfl
    obtain rfl := Option.some.inj (ht.symm.trans harg)
    have hcut := (hs.showsFirst_iff 2).mp hshows
    exact absurd hcut (by decide)

end GravelBox
