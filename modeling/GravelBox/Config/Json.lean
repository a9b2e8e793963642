/-
# JSON values

`FileConfig::FileConfig` (`config/file_config.cpp`) and `Parser::Parser` (`parser/parser.cpp`) read
a `Json::Value` of JsonCpp.  What they see of it is its kind, its elements, and three conversions,
each of which throws for the kinds that it does not convert.

The library is a parameter, `JsonCpp`: its parser, the conversions, and what its exceptions say.
Of the conversions only that is known which the library documents.  The documentation is a function
for each of them (`memberOrNull`, `textOf`, `uint64Of`), with no value where it says that an
exception is thrown, and `JsonCpp` has three fields that say that the library keeps to it.

Two things of the documentation are easily overlooked, and matter for what GravelBox accepts: a
member that is not there is null, and null is converted to the empty string and to 0.

Nothing is assumed of the parser: which value a text stands for is up to the library.  `write` is
the other direction, without blanks; with it the examples have documents that can be read, and
`JsonCpp.ofDocuments` is the library for these.
-/
import GravelBox.Utils
import GravelBox.Lib.Codes
import GravelBox.Lib.Fallible

namespace GravelBox

open Fallible

/-! ## 1. Values -/

/-- `Json::Value`. -/
inductive Json
  | null
  | int (i : Int)
  | uint (n : Nat)
  /-- A floating-point number: its text, and its integral part if a `uint64_t` holds it. -/
  | real (text : Str) (integral : Option (BitVec 64))
  | string (s : Str)
  | boolean (b : Bool)
  | array (elements : List Json)
  | object (members : List (Str × Json))

/-- `value.isObject()`. -/
def Json.isObject : Json → Bool
  | .object _ => true
  | _ => false

/-- `value.isArray()`. -/
def Json.isArray : Json → Bool
  | .array _ => true
  | _ => false

/-- The elements that a loop over `value` visits. -/
def Json.elements : Json → List Json
  | .array elements => elements
  | _ => []

/-! ## 2. What the library documents -/

/-- The documentation of `value[key]`: null if there is no such member. -/
def Json.memberOrNull (key : Str) : Json → Option Json
  | .object members => some ((members.lookup key).getD .null)
  | .null => some .null
  | _ => none

/-- The documentation of `value.asString()`. -/
def Json.textOf : Json → Option Str
  | .null => some []
  | .int i => some (Codes.decimal i)
  | .uint n => some (Nat.toDigits 10 n)
  | .real text _ => some text
  | .string s => some s
  | .boolean b => some (if b then "true".toList else "false".toList)
  | _ => none

/-- The documentation of `value.asUInt64()`. -/
def Json.uint64Of : Json → Option (BitVec 64)
  | .null => some 0
  | .int i => if 0 ≤ i ∧ i ≤ 0xffffffffffffffff then some (BitVec.ofInt 64 i) else none
  | .uint n => if n ≤ 0xffffffffffffffff then some (BitVec.ofNat 64 n) else none
  | .real _ integral => integral
  | .boolean b => some (if b then 1 else 0)
  | _ => none

/-! ## 3. The library -/

/-- JsonCpp: its parser and its conversions, each of which returns a value or throws an exception
with a text. -/
structure JsonCpp where
  parse : Str → Except Str Json
  get : Json → Str → Except Str Json
  asString : Json → Except Str Str
  asUInt64 : Json → Except Str (BitVec 64)
  get_documented : ∀ value key, (get value key).toOption = value.memberOrNull key
  asString_documented : ∀ value, (asString value).toOption = value.textOf
  asUInt64_documented : ∀ value, (asUInt64 value).toOption = value.uint64Of

variable (lib : JsonCpp)

/-- `iss >> value`. -/
def JsonCpp.read (s : Str) : Except Fault Json := (lib.parse s).mapError .jsonException

/-- `value[key]`. -/
def Json.get (key : Str) (value : Json) : Except Fault Json :=
  (lib.get value key).mapError .jsonException

/-- `value.asString()`. -/
def Json.asString (value : Json) : Except Fault Str := (lib.asString value).mapError .jsonException

/-- `value.asUInt64()`. -/
def Json.asUInt64 (value : Json) : Except Fault (BitVec 64) :=
  (lib.asUInt64 value).mapError .jsonException

theorem mapError_ok_iff {α : Type} {x : Except Str α} {o : Option α} (h : x.toOption = o) {a : α} :
    x.mapError Fault.jsonException = .ok a ↔ o = some a := by
  rw [mapError_eq_ok, ← h]
  cases x with
  | error e => simp [Except.toOption]
  | ok b => simp [Except.toOption]

/-- **The conversions** return what they are documented to return. -/
theorem get_ok_iff {key : Str} {value v : Json} :
    value.get lib key = .ok v ↔ value.memberOrNull key = some v :=
  mapError_ok_iff (lib.get_documented value key)

theorem asString_ok_iff {value : Json} {s : Str} :
    value.asString lib = .ok s ↔ value.textOf = some s :=
  mapError_ok_iff (lib.asString_documented value)

theorem asUInt64_ok_iff {value : Json} {n : BitVec 64} :
    value.asUInt64 lib = .ok n ↔ value.uint64Of = some n :=
  mapError_ok_iff (lib.asUInt64_documented value)

/-! ## 4. Documents that can be read -/

/-- A string in quotes. -/
def quote (s : Str) : Str :=
  '"' :: s.flatMap (fun c => if c = '"' ∨ c = '\\' then ['\\', c] else [c]) ++ ['"']

mutual

/-- The text of a value. -/
def Json.write : Json → Str
  | .null => "null".toList
  | .int i => Codes.decimal i
  | .uint n => Nat.toDigits 10 n
  | .real text _ => text
  | .string s => quote s
  | .boolean b => if b then "true".toList else "false".toList
  | .array elements => '[' :: writeElements elements ++ [']']
  | .object members => '\x7b' :: writeMembers members ++ ['\x7d']

def writeElements : List Json → Str
  | [] => []
  | [value] => value.write
  | value :: values => value.write ++ ',' :: writeElements values

def writeMembers : List (Str × Json) → Str
  | [] => []
  | [member] => writeMember member
  | member :: members => writeMember member ++ ',' :: writeMembers members

def writeMember : Str × Json → Str
  | (key, value) => quote key ++ ':' :: value.write

end

/-- The value, or an exception. -/
def orThrow {α : Type} : Option α → Except Str α
  | some a => .ok a
  | none => .error "not converted".toList

theorem toOption_orThrow {α : Type} (o : Option α) : (orThrow o).toOption = o := by
  cases o with
  | none => rfl
  | some a => rfl

/-- The library that parses the texts of some documents, and no others. -/
def JsonCpp.ofDocuments (docs : List Json) : JsonCpp where
  parse s :=
    match docs.find? fun doc => doc.write = s with
    | some doc => .ok doc
    | none => .error "not known".toList
  get value key := orThrow (value.memberOrNull key)
  asString value := orThrow value.textOf
  asUInt64 value := orThrow value.uint64Of
  get_documented _ _ := toOption_orThrow _
  asString_documented _ := toOption_orThrow _
  asUInt64_documented _ := toOption_orThrow _

theorem ofDocuments_parse (doc : Json) (docs : List Json) :
    (JsonCpp.ofDocuments (doc :: docs)).parse doc.write = .ok doc := by
  simp [JsonCpp.ofDocuments]

end GravelBox
