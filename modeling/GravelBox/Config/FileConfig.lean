/-
# The configuration

`FileConfig` (`config/file_config.h` and `config/file_config.cpp`) is read from a JSON document
once; then its signature is verified, and it is asked for the action of every call.  Regular
expressions and HMAC-SHA-512 come from libraries, which are a parameter (`Libraries`).

`FileConfig.read` is the constructor (lines 27 to 104), member by member in the order of the
source, as the order decides which of several mistakes is reported.  Its `try` block catches two
kinds of exception and throws a third for them.  The conversions of the library are used as they
are: a member that is not there is null, and null is the empty string and 0, so no member is
required but the default action and the list of groups.

`verifySignature` (lines 106 to 125) compares the HMAC of the bytes that were read with the file
that the member `signature` names, and then forgets the bytes.  The key stays: the decision
password is verified under it (`verifyHmac`, lines 137 to 149).  `getAction` (lines 127 to 135) is
a search with an early return, over groups and over the patterns of each.

Not claimed: anything about the regular expressions themselves.  Whether a pattern matches a text
is a total predicate here; `std::regex_match` may run out of stack on long texts, but those of the
calls are short.
-/
import GravelBox.Config.Json

namespace GravelBox

def kHashSize : Nat := 512 / 8

/-- The libraries a configuration is read and verified with. -/
structure Libraries (Re : Type) extends JsonCpp where
  /-- `std::regex`, or what its exception says. -/
  compile : Str → Except Str Re
  /-- `std::regex_match`. -/
  fullMatch : Re → Str → Bool
  /-- `HMAC` with `EVP_sha512`, of a key and data. -/
  hmac : Str → Str → Str
  hmac_length : ∀ key data, (hmac key data).length = kHashSize

/-- `FileConfig::Action`. -/
inductive Action
  | allow
  | deny
  | ask
  deriving DecidableEq, Repr

/-- `FileConfig::ActionGroup`. -/
structure ActionGroup (Re : Type) where
  action : Action
  patterns : List Re

/-- `FileConfig`. -/
structure FileConfig (Re : Type) where
  config : Str
  signature : Str
  key : Str
  passwordHash : Str
  syscalldef : Str
  pinentry : Str
  maxStrLen : BitVec 64
  actionDefault : Action
  actionGroups : List (ActionGroup Re)

variable {Re : Type} (lib : Libraries Re)

/-! ## 1. Reading the document -/

/-- `error`. -/
def configError {α : Type} (path details : Str) : Except Fault α :=
  .error (.configException path "GravelBox configuration".toList details)

/-- `sanitize`. -/
def sanitize (path : Str) (assertion : Bool) (details : String) : Except Fault Unit :=
  if assertion = false then configError path details.toList else .ok ()

/-- `to_action`. -/
def toAction (path s : Str) : Except Fault Action :=
  if s = "allow".toList then .ok .allow
  else if s = "ask".toList then .ok .ask
  else if s = "deny".toList then .ok .deny
  else configError path ("unknown action: \"".toList ++ s ++ ['"'])

/-- The value of a hexadecimal digit. -/
def hexDigit (c : Char) : Option Nat :=
  if c.isDigit then some (c.toNat - '0'.toNat)
  else if 'a' ≤ c ∧ c ≤ 'f' then some (c.toNat - 'a'.toNat + 10)
  else if 'A' ≤ c ∧ c ≤ 'F' then some (c.toNat - 'A'.toNat + 10)
  else none

/-- `std::stoul(s, nullptr, 16)` for two characters, or `none` where it throws.  A prefix
`0x` would need a third: here it reads as the digit 0. -/
def stoul16 (s : Str) : Option (BitVec 64) :=
  -- a NUL ends the string for `strtoul`
  let (negative, s) := takeSign ((s.takeWhile (· ≠ Char.ofNat 0)).dropWhile isspace)
  let digits := (s.takeWhile fun c => (hexDigit c).isSome).filterMap hexDigit
  let n := BitVec.ofNat 64 (digits.foldl (fun n d => 16 * n + d) 0)
  if digits = [] then none else some (if negative then -n else n)

/-- The loop of `hex2bytes`. -/
def hexPairs (path hex : Str) : Str → Except Fault Str
  | c :: c' :: rest =>
    match stoul16 [c, c'] with
    | none => configError path ("invalid hex string \"".toList ++ hex ++ ['"'])
    | some byte => do
      let bytes ← hexPairs path hex rest
      return Char.ofNat (byte.toNat % 256) :: bytes
  | _ => .ok []

/-- `hex2bytes`. -/
def hex2bytes (path hex : Str) : Except Fault Str :=
  if hex.length % 2 ≠ 0 then configError path ("invalid hex string \"".toList ++ hex ++ ['"'])
  else hexPairs path hex hex

/-- The string of a member. -/
def stringMember (key : String) (value : Json) : Except Fault Str := do
  let member ← value.get lib.toJsonCpp key.toList
  member.asString lib.toJsonCpp

/-- One pattern of a group. -/
def readPattern (p : Json) : Except Fault Re := do
  let s ← p.asString lib.toJsonCpp
  (lib.compile s).mapError .regexError

/-- One element of the action groups. -/
def readGroup (path : Str) (ag : Json) : Except Fault (ActionGroup Re) := do
  let action ← toAction path (← stringMember lib "action" ag)
  let patterns ← ag.get lib.toJsonCpp "patterns".toList
  sanitize path patterns.isArray "patterns is not an array"
  return { action := action, patterns := ← patterns.elements.mapM (readPattern lib) }

/-- The bytes of the configuration file. -/
def readBytes (files : Str → Option Str) (path : Str) : Except Fault Str :=
  match files path with
  | none => configError path ("Cannot open file \"".toList ++ path ++ ['"'])
  | some bytes => .ok bytes

/-- The check of the password hash; an empty one stands for no password. -/
def checkHash (path hash : Str) : Except Fault Unit :=
  if hash ≠ [] then sanitize path (hash.length = kHashSize) "password hash size incorrect"
  else .ok ()

/-- The `try` block of `FileConfig::FileConfig`. -/
def FileConfig.tryRead (files : Str → Option Str) (path : Str) :
    Except Fault (FileConfig Re) := do
  let bytes ← readBytes files path
  let config ← lib.read bytes
  sanitize path config.isObject "config is not an object"
  let signature ← stringMember lib "signature" config
  let passwordHash ← hex2bytes path (← stringMember lib "password" config)
  checkHash path passwordHash
  let syscalldef ← stringMember lib "syscall-definition" config
  let pinentry ← stringMember lib "pinentry" config
  let maxStrLen ← (← config.get lib.toJsonCpp "max-string-length".toList).asUInt64 lib.toJsonCpp
  let actionDefault ← toAction path (← stringMember lib "default-action" config)
  let actionGroups ← config.get lib.toJsonCpp "action-groups".toList
  sanitize path actionGroups.isArray "action group is not an array"
  return { config := bytes, signature := signature, key := [], passwordHash := passwordHash
           syscalldef := syscalldef, pinentry := pinentry, maxStrLen := maxStrLen
           actionDefault := actionDefault
           actionGroups := ← actionGroups.elements.mapM (readGroup lib path) }

/-- `FileConfig::FileConfig`. -/
def FileConfig.read (files : Str → Option Str) (path : Str) : Except Fault (FileConfig Re) :=
  match FileConfig.tryRead lib files path with
  | .error (.regexError what) => configError path ("Regex error: ".toList ++ what)
  | .error (.jsonException what) => configError path what
  | r => r

/-! ## 2. Asking it -/

/-- The loops of `get_action`. -/
def findAction (syscall : Str) (actionDefault : Action) : List (ActionGroup Re) → Action
  | [] => actionDefault
  | ag :: groups =>
    if ag.patterns.any fun r => lib.fullMatch r syscall then ag.action
    else findAction syscall actionDefault groups

/-- `FileConfig::get_action`. -/
def FileConfig.getAction (c : FileConfig Re) (syscall : Str) : Action :=
  findAction lib syscall c.actionDefault c.actionGroups

/-- `FileConfig::verify_hmac`. -/
def FileConfig.verifyHmac (c : FileConfig Re) (data mac : Str) : Bool :=
  lib.hmac c.key data = mac

/-- `FileConfig::verify_password`. -/
def FileConfig.verifyPassword (c : FileConfig Re) (password : Str) : Bool :=
  c.verifyHmac lib password c.passwordHash

/-- `FileConfig::has_password`. -/
def FileConfig.hasPassword (c : FileConfig Re) : Bool := c.passwordHash ≠ []

/-- `FileConfig::remove_password`. -/
def FileConfig.removePassword (c : FileConfig Re) : FileConfig Re := { c with passwordHash := [] }

/-- `FileConfig::dismiss_signature`. -/
def FileConfig.dismissSignature (c : FileConfig Re) : FileConfig Re := { c with config := [] }

/-- What `verify_signature` throws. -/
def signatureError {α σ : Type} (path details : Str) : EStateM Fault σ α :=
  throw (.configException path "GravelBox configuration signature".toList details)

/-- `FileConfig::verify_signature`. -/
def FileConfig.verifySignature (files : Str → Option Str) (key : Str) :
    EStateM Fault (FileConfig Re) Bool := do
  modify fun c => { c with key := key }
  let c ← get
  match files c.signature with
  | none =>
    signatureError c.signature ("Cannot open file \"".toList ++ c.signature ++ ['"'])
  | some sig => do
    if sig.length ≠ kHashSize then
      signatureError c.signature "Incorrect signature length".toList
    if c.verifyHmac lib c.config sig then do
      modify FileConfig.dismissSignature
      return true
    return false

/-- What becomes of a key. -/
theorem run_verifySignature (files : Str → Option Str) (key : Str) (c : FileConfig Re) :
    (FileConfig.verifySignature lib files key).run c =
      match files c.signature with
      | none => (signatureError c.signature
          ("Cannot open file \"".toList ++ c.signature ++ ['"'])).run { c with key := key }
      | some sig =>
        if sig.length ≠ kHashSize then
          (signatureError c.signature "Incorrect signature length".toList).run { c with key := key }
        else if lib.hmac key c.config = sig then .ok true { c with key := key, config := [] }
        else .ok false { c with key := key } := by
  have hstart : (FileConfig.verifySignature lib files key).run c =
      (match files c.signature with
        | none => signatureError c.signature
            ("Cannot open file \"".toList ++ c.signature ++ ['"'])
        | some sig => do
          if sig.length ≠ kHashSize then
            signatureError c.signature "Incorrect signature length".toList
          if { c with key := key }.verifyHmac lib c.config sig then do
            modify FileConfig.dismissSignature
            return true
          return false : EStateM Fault (FileConfig Re) Bool).run { c with key := key } := rfl
  rw [hstart]
  cases files c.signature with
  | none => rfl
  | some sig =>
    simp only
    by_cases hlen : sig.length ≠ kHashSize
    · rw [if_pos hlen, if_pos hlen]
      rfl
    · rw [if_neg hlen, if_neg hlen]
      by_cases hmac : lib.hmac key c.config = sig
      · rw [if_pos hmac, FileConfig.verifyHmac, if_pos (decide_eq_true hmac)]
        rfl
      · rw [if_neg hmac, FileConfig.verifyHmac,
          if_neg (by rw [decide_eq_true_eq]; exact hmac)]
        rfl

end GravelBox
