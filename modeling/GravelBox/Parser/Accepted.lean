/-
# Definitions that were accepted

The loop of `SyscallDef::write` takes the argument of a parameter by its index
(`parser/syscalldef.h`, lines 58 to 62), and an `assert` says that there are at most six.  The
constructor of `Parser` (`parser/parser.cpp`, lines 20 to 56) checks the kind of every value it
reads, the types and the numbers, but it does not count the parameters (`load_spec`).  So what it
accepts is safe to render (`SafeToRender`) if the document lists no more than six parameters for any
call, and not otherwise (`accepted_safe_iff`).

The condition is on the document, as what a constructor promises is about what it is given: the
elements of the array, each with the length of its list of parameters.  What makes it go through is
that nothing between the document and the table changes that length, and that every element of an
accepted document is in the table; an element that could be hidden behind another would not have to
be safe.

That a definition with seven parameters is not safe is not only a matter of the `assert`: in a build
without assertions the index 6 of an array of six is read, and there is no result at all that the
source promises.  `accepted_seven` is a file that the constructor accepts, and a call that ends in
this way.

Not claimed: that the file that comes with the program has such a definition; it has none.  And the
reads of strings can fail for other reasons (`Trace/Death.lean`), which are not the definition's.
-/
import GravelBox.Parser.Load
import GravelBox.Lib.Fallible

namespace GravelBox

open Stateful Fallible

variable (lib : JsonCpp)

/-! ## 1. What the constructor stores -/

/-- The number of parameters that an element of the definition list has. -/
def paramCount (syscall : Json) : Nat :=
  match syscall.get lib "params".toList with
  | .ok params => params.elements.length
  | .error _ => 0

/-- No definition of the table has more than six parameters. -/
def AllFit (table : AList fun _ : BitVec 64 => SyscallDef) : Prop :=
  ∀ n d, table.lookup n = some d → d.argtypes.length ≤ 6

/-- An assertion of the constructor that held. -/
theorem sanitizeDefinition_eq_ok {path details : Str} {assertion : Bool} {u : Unit} :
    sanitizeDefinition path assertion details = .ok u ↔ assertion = true := by
  unfold sanitizeDefinition
  cases assertion with
  | false => simp [definitionError]
  | true => simp

/-- A list that was converted has kept its length. -/
theorem length_of_mapM {α β : Type} {f : α → Except Fault β} {l : List α} {l' : List β}
    (h : l.mapM f = .ok l') : l.length = l'.length :=
  (mapM_eq_ok.mp h).length_eq

/-- **One element** makes one new definition, with as many parameters as it lists. -/
theorem readDefinition_spec {path : Str} {table table' : AList fun _ : BitVec 64 => SyscallDef}
    {syscall : Json} (h : readDefinition lib path table syscall = .ok table') :
    ∃ number d, table.lookup number = none ∧ d.argtypes.length = paramCount lib syscall ∧
      table' = table.insert number d := by
  simp only [readDefinition, bind_eq_ok, sanitizeDefinition_eq_ok] at h
  obtain ⟨-, -, n, hn, number, hnumber, na, hna, name, hname, params, hparams, -, harray, types,
    htypes, -, hnew, htable⟩ := h
  cases htable
  refine ⟨number, _, Option.isNone_iff_eq_none.mp hnew, ?_, rfl⟩
  rw [paramCount, hparams]
  exact (length_of_mapM htypes).symm

/-- A new definition fits if it has at most six parameters. -/
theorem allFit_insert {table : AList fun _ : BitVec 64 => SyscallDef} {number : BitVec 64}
    {d : SyscallDef} (hnew : table.lookup number = none) :
    AllFit (table.insert number d) ↔ AllFit table ∧ d.argtypes.length ≤ 6 := by
  constructor
  · intro h
    refine ⟨fun n d' hd' => ?_, h number d (AList.lookup_insert table)⟩
    have hne : n ≠ number := by
      rintro rfl
      rw [hnew] at hd'
      cases hd'
    exact h n d' (by rw [AList.lookup_insert_ne hne]; exact hd')
  · rintro ⟨htable, hd⟩ n d' hd'
    rcases eq_or_ne n number with rfl | hn
    · rw [AList.lookup_insert] at hd'
      cases hd'
      exact hd
    · rw [AList.lookup_insert_ne hn] at hd'
      exact htable n d' hd'

/-- **The loop over the definitions**: the table fits if it did and every element does. -/
theorem allFit_foldlM_iff {path : Str} {elements : List Json}
    {table table' : AList fun _ : BitVec 64 => SyscallDef}
    (h : elements.foldlM (readDefinition lib path) table = .ok table') :
    AllFit table' ↔ AllFit table ∧ ∀ syscall ∈ elements, paramCount lib syscall ≤ 6 := by
  induction elements generalizing table with
  | nil =>
    cases h
    simp
  | cons syscall elements ih =>
    rw [List.foldlM_cons, bind_eq_ok] at h
    obtain ⟨t, hone, hrest⟩ := h
    obtain ⟨number, d, hnew, hlen, rfl⟩ := readDefinition_spec lib hone
    rw [ih hrest, allFit_insert hnew, hlen, List.forall_mem_cons, and_assoc]

/-- The constructor catches exceptions only to throw others. -/
theorem tryLoad_of_load {files : Str → Option Str} {path : Str} {p : Parser}
    (h : Parser.load lib files path = .ok p) : Parser.tryLoad lib files path = .ok p := by
  unfold Parser.load at h
  split at h
  · cases h
  · exact h

theorem allFit_empty : AllFit ∅ := by
  intro n d h
  rw [AList.lookup_empty] at h
  cases h

/-- **`Parser::Parser`** that returned: what it read, and when its table fits. -/
theorem load_spec {files : Str → Option Str} {path : Str} {p : Parser}
    (h : Parser.load lib files path = .ok p) :
    ∃ bytes doc, files path = some bytes ∧ lib.parse bytes = .ok doc ∧
      (AllFit p.syscallMap ↔ ∀ syscall ∈ doc.elements, paramCount lib syscall ≤ 6) := by
  have htry := tryLoad_of_load lib h
  simp only [Parser.tryLoad, bind_eq_ok, sanitizeDefinition_eq_ok] at htry
  obtain ⟨bytes, hbytes, doc, hdoc, -, -, table, htable, hp⟩ := htry
  cases hp
  have hfile : files path = some bytes := by
    unfold readDefinitionFile at hbytes
    cases hf : files path with
    | none =>
      rw [hf] at hbytes
      cases hbytes
    | some b =>
      rw [hf] at hbytes
      exact congrArg some (Except.ok.inj hbytes)
  refine ⟨bytes, doc, hfile, mapError_eq_ok.mp hdoc, ?_⟩
  exact (allFit_foldlM_iff lib htable).trans (and_iff_right allFit_empty)

/-! ## 2. When they are safe to render -/

/-- No stored definition has more than six parameters, and whatever is called, neither the
assertion of `SyscallDef::write` fails nor is a seventh register read. -/
def SafeToRender (p : Parser) : Prop :=
  AllFit p.syscallMap ∧ ∀ pid ndebug args w,
    Ends ((p.setpid pid).call ndebug args) w (fun _ _ => True)
      (fun f _ => f ≠ .assertion ∧ f ≠ .outOfBounds)

theorem AllFit.fits {p : Parser} (h : AllFit p.syscallMap) (pid : Tid) (args : SyscallArgs) :
    (p.setpid pid).Fits args := by
  intro d hd
  unfold Parser.defOf at hd
  split at hd
  · cases hd
  · exact h _ d hd

theorem AllFit.safe {p : Parser} (h : AllFit p.syscallMap) : SafeToRender p := by
  refine ⟨h, fun pid ndebug args w => ?_⟩
  refine ((p.setpid pid).call_spec ndebug args w).mono (fun _ _ _ => trivial) ?_
  rintro f w' ⟨-, hkilled⟩
  obtain ⟨rfl, -⟩ := hkilled (h.fits pid args)
  exact ⟨Fault.noConfusion, Fault.noConfusion⟩

/-- **What the constructor accepts is safe to render** if and only if no element of its
document lists more than six parameters. -/
theorem accepted_safe_iff {files : Str → Option Str} {path : Str} {p : Parser}
    (h : Parser.load lib files path = .ok p) :
    ∃ bytes doc, files path = some bytes ∧ lib.parse bytes = .ok doc ∧
      (SafeToRender p ↔ ∀ syscall ∈ doc.elements, paramCount lib syscall ≤ 6) := by
  obtain ⟨bytes, doc, hfile, hdoc, hfit⟩ := load_spec lib h
  refine ⟨bytes, doc, hfile, hdoc, ?_⟩
  rw [← hfit]
  exact ⟨And.left, AllFit.safe⟩

/-! ## 3. A definition with seven parameters -/

/-- A document with one call of `n` integers. -/
def integerCall (n : Nat) : Json :=
  .array [.object [("number".toList, .uint 0), ("name".toList, .string "f".toList),
    ("params".toList, .array (List.replicate n (.string "int32_t".toList)))]]

/-- The library for its text. -/
def integerCalls (n : Nat) : JsonCpp := .ofDocuments [integerCall n]

/-- A directory with its text. -/
def integerFiles (n : Nat) (path : Str) : Option Str :=
  if path = "defs".toList then some (integerCall n).write else none

/-- The parser of that document. -/
def integerParser (n : Nat) : Parser :=
  .single 0 { fname := "f".toList, argtypes := List.replicate n .sint32 }

theorem load_two : Parser.load (integerCalls 2) (integerFiles 2) "defs".toList =
    .ok (integerParser 2) := rfl

theorem accepted_safe_two : SafeToRender (integerParser 2) := by
  obtain ⟨bytes, doc, hfile, hdoc, hiff⟩ := accepted_safe_iff (integerCalls 2) load_two
  cases hfile
  obtain rfl : integerCall 2 = doc := Except.ok.inj hdoc
  refine hiff.mpr fun syscall hmem => ?_
  obtain rfl := List.mem_singleton.mp hmem
  decide

/-- **Seven parameters are accepted**, and the call is not safe to render: in a build without
assertions the loop reads past the sixth register. -/
theorem accepted_seven :
    Parser.load (integerCalls 7) (integerFiles 7) "defs".toList = .ok (integerParser 7) ∧
      ¬ SafeToRender (integerParser 7) ∧
      ∃ w w', ((integerParser 7).call true { number := 0, args := fun _ => 0, int80 := false }).run
        w = .error .outOfBounds w' := by
  let w : World :=
    { mem := fun _ => { readable := fun _ => true, byte := fun _ => 0 }, child := 0, life := none }
  refine ⟨rfl, fun hsafe => ?_, w, w, rfl⟩
  exact absurd (hsafe.1 0 _ (lookup_single.mpr ⟨rfl, rfl⟩)) (by decide)

end GravelBox
