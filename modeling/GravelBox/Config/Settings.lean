/-
# Writing a configuration down

The constructor of `FileConfig` (`config/file_config.cpp`, lines 27 to 104) reads a document.
`Settings` are what somebody wants to configure, and `Settings.document` is a document that says
so.  What the constructor makes of that document is `Settings.load`, down to the exception that it
throws (`read_document`), and whatever document a configuration was read from, there are settings
for it (`exists_settings`).  So the configurations there can be are those that can be written down,
and each reads as it was meant (`settings_round_trip`).

What makes this hard is that the constructor can stop at many places, and `Settings.load` names
only two of them.  The others have to be shown to be out of reach for a document that was written
from settings: the digits of the hash are read as its bytes, a limit that does not fit a signed
number is parsed as an unsigned one and converted as such, and the name of an action is read as the
action.  The patterns are left: whether one compiles is up to the library, so the first that does
not decides.

In the other direction a document that was accepted may be written in ways that no settings are:
with members missing, numbers for strings, `1g` for a byte.  Its settings are those of the
configuration that came of it.

Not claimed: that the file is the same text.  How values are laid out in a file, and what a parser
makes of it, is up to the library; the hypothesis is that the text is parsed as the document.
-/
import GravelBox.Config.Document
import GravelBox.Config.Hex

namespace GravelBox

open Fallible

/-! ## 1. Settings -/

/-- The texts of an action group. -/
structure GroupText where
  action : Action
  patterns : List Str

/-- What a configuration is to say. -/
structure Settings where
  signature : Str
  passwordHash : Str
  syscalldef : Str
  pinentry : Str
  maxStrLen : BitVec 64
  actionDefault : Action
  actionGroups : List GroupText

/-- A number, as the library parses it: one that a signed integer holds is signed. -/
def numberValue (n : BitVec 64) : Json :=
  if n.toNat ≤ 0x7fffffffffffffff then .int n.toNat else .uint n.toNat

def GroupText.document (g : GroupText) : Json :=
  .object [("action".toList, .string g.action.name),
    ("patterns".toList, .array (g.patterns.map .string))]

/-- The document with these settings. -/
def Settings.document (s : Settings) : Json :=
  .object [("signature".toList, .string s.signature),
    ("password".toList, .string (hexText s.passwordHash)),
    ("syscall-definition".toList, .string s.syscalldef),
    ("pinentry".toList, .string s.pinentry),
    ("max-string-length".toList, numberValue s.maxStrLen),
    ("default-action".toList, .string s.actionDefault.name),
    ("action-groups".toList, .array (s.actionGroups.map GroupText.document))]

variable {Re : Type} (lib : Libraries Re)

/-- The group with its patterns compiled. -/
def GroupText.compile (g : GroupText) : Except Str (ActionGroup Re) := do
  return { action := g.action, patterns := ← g.patterns.mapM lib.compile }

/-- What the settings come to, read from the file at `path` with these bytes: a hash of another
size is refused, then the first pattern that is no regular expression. -/
def Settings.load (s : Settings) (path bytes : Str) : Except Fault (FileConfig Re) :=
  if s.passwordHash ≠ [] ∧ s.passwordHash.length ≠ kHashSize then
    configError path "password hash size incorrect".toList
  else
    match s.actionGroups.mapM (GroupText.compile lib) with
    | .error what => configError path ("Regex error: ".toList ++ what)
    | .ok groups =>
      .ok { config := bytes, signature := s.signature, key := [], passwordHash := s.passwordHash
            syscalldef := s.syscalldef, pinentry := s.pinentry, maxStrLen := s.maxStrLen
            actionDefault := s.actionDefault, actionGroups := groups }

/-! ## 2. Reading them -/

theorem asUInt64_numberValue (json : JsonCpp) (n : BitVec 64) :
    (numberValue n).asUInt64 json = .ok n := by
  have hn := n.isLt
  rw [asUInt64_ok_iff]
  unfold numberValue
  by_cases h : n.toNat ≤ 0x7fffffffffffffff
  · rw [if_pos h]
    have hrange : (0 : Int) ≤ n.toNat ∧ (n.toNat : Int) ≤ 0xffffffffffffffff := by omega
    rw [Json.uint64Of, if_pos hrange, BitVec.ofInt_natCast, BitVec.ofNat_toNat, BitVec.setWidth_eq]
  · rw [if_neg h, Json.uint64Of, if_pos (by omega), BitVec.ofNat_toNat, BitVec.setWidth_eq]

theorem toAction_name (path : Str) (a : Action) : toAction path a.name = .ok a := by
  cases a with
  | allow | ask | deny => rfl

theorem readPattern_string (p : Str) :
    readPattern lib (.string p) = (lib.compile p).mapError .regexError := by
  have htext : (Json.string p).asString lib.toJsonCpp = .ok p :=
    (asString_ok_iff lib.toJsonCpp).mpr rfl
  rw [readPattern, htext]
  rfl

/-- A group is read as it was written. -/
theorem readGroup_document (path : Str) (g : GroupText) :
    readGroup lib path g.document = (g.compile lib).mapError .regexError := by
  have haction : stringMember lib "action" g.document = .ok g.action.name :=
    hasString_of_member lib rfl rfl
  have hpatterns : g.document.get lib.toJsonCpp "patterns".toList =
      .ok (.array (g.patterns.map .string)) := (get_ok_iff lib.toJsonCpp).mpr rfl
  have hread : ((Json.array (g.patterns.map .string)).elements.mapM (readPattern lib)) =
      (g.patterns.mapM lib.compile).mapError .regexError :=
    mapM_map_mapError (readPattern_string lib) g.patterns
  unfold readGroup GroupText.compile
  rw [haction]
  simp only [bind, Except.bind, toAction_name, hpatterns, hread]
  cases g.patterns.mapM lib.compile with
  | error what => rfl
  | ok patterns => rfl

/-- The check of the hash, and what is read after it. -/
theorem tryRead_document {s : Settings} {files : Str → Option Str} {path bytes : Str}
    (hhash : IsBytes s.passwordHash) (hfile : files path = some bytes)
    (hparse : lib.parse bytes = .ok s.document) :
    FileConfig.tryRead lib files path = (do
      checkHash path s.passwordHash
      let groups ← (s.actionGroups.mapM (GroupText.compile lib)).mapError .regexError
      return { config := bytes, signature := s.signature, key := [], passwordHash := s.passwordHash
               syscalldef := s.syscalldef, pinentry := s.pinentry, maxStrLen := s.maxStrLen
               actionDefault := s.actionDefault, actionGroups := groups }) := by
  have hbytes : readBytes files path = .ok bytes := readBytes_eq_ok.mpr hfile
  have hdoc : lib.read bytes = .ok s.document := mapError_eq_ok.mpr hparse
  have hobject : sanitize path s.document.isObject "config is not an object" = .ok () := rfl
  have hsignature : stringMember lib "signature" s.document = .ok s.signature :=
    hasString_of_member lib rfl rfl
  have hpassword : stringMember lib "password" s.document = .ok (hexText s.passwordHash) :=
    hasString_of_member lib rfl rfl
  have hhex : hex2bytes path (hexText s.passwordHash) = .ok s.passwordHash :=
    (spells_hexText hhash).hex2bytes_eq path
  have hdef : stringMember lib "syscall-definition" s.document = .ok s.syscalldef :=
    hasString_of_member lib rfl rfl
  have hpinentry : stringMember lib "pinentry" s.document = .ok s.pinentry :=
    hasString_of_member lib rfl rfl
  have hlen : s.document.get lib.toJsonCpp "max-string-length".toList =
      .ok (numberValue s.maxStrLen) := (get_ok_iff lib.toJsonCpp).mpr rfl
  have hdefault : stringMember lib "default-action" s.document = .ok s.actionDefault.name :=
    hasString_of_member lib rfl rfl
  have harray : s.document.get lib.toJsonCpp "action-groups".toList =
      .ok (.array (s.actionGroups.map GroupText.document)) := (get_ok_iff lib.toJsonCpp).mpr rfl
  have hisArray : sanitize path (Json.array (s.actionGroups.map GroupText.document)).isArray
      "action group is not an array" = .ok () := rfl
  have hgroups : ((Json.array (s.actionGroups.map GroupText.document)).elements.mapM
      (readGroup lib path)) = (s.actionGroups.mapM (GroupText.compile lib)).mapError .regexError :=
    mapM_map_mapError (readGroup_document lib path) s.actionGroups
  unfold FileConfig.tryRead
  simp only [hbytes, hdoc, hobject, hsignature, hpassword, hhex, hdef, hpinentry, hlen,
    asUInt64_numberValue, hdefault, toAction_name, harray, hisArray, hgroups, bind, Except.bind]

/-- **What is made of the document**: of any file that has it. -/
theorem read_document {s : Settings} {files : Str → Option Str} {path bytes : Str}
    (hhash : IsBytes s.passwordHash) (hfile : files path = some bytes)
    (hparse : lib.parse bytes = .ok s.document) :
    FileConfig.read lib files path = s.load lib path bytes := by
  unfold FileConfig.read
  rw [tryRead_document lib hhash hfile hparse]
  unfold Settings.load checkHash
  by_cases hnil : s.passwordHash = []
  · rw [if_neg (not_not.mpr hnil), if_neg fun h => h.1 hnil]
    cases s.actionGroups.mapM (GroupText.compile lib) with
    | error what => rfl
    | ok groups => rfl
  · rw [if_pos hnil]
    by_cases hlen : s.passwordHash.length = kHashSize
    · rw [if_neg fun h => h.2 hlen, decide_eq_true hlen]
      cases s.actionGroups.mapM (GroupText.compile lib) with
      | error what => rfl
      | ok groups => rfl
    · rw [if_pos ⟨hnil, hlen⟩, decide_eq_false hlen]
      rfl

/-! ## 3. Settings for a configuration -/

/-- What is decoded is bytes. -/
theorem isBytes_of_hexPairs {path hex s bytes : Str} (h : hexPairs path hex s = .ok bytes) :
    IsBytes bytes := by
  induction s using hexPairs.induct generalizing bytes with
  | case1 c c' rest hnone =>
    rw [hexPairs, hnone] at h
    cases h
  | case2 c c' rest byte hsome ih =>
    rw [hexPairs, hsome] at h
    obtain ⟨rest', hrest, hpure⟩ := bind_eq_ok.mp h
    cases hpure
    refine List.forall_mem_cons.mpr ⟨?_, ih hrest⟩
    rw [toNat_ofNat_byte (Nat.mod_lt _ (by decide))]
    exact Nat.mod_lt _ (by decide)
  | case3 s hshort =>
    rcases s with _ | ⟨c, _ | ⟨c', rest⟩⟩
    · cases h
      exact List.forall_mem_nil _
    · cases h
      exact List.forall_mem_nil _
    · exact absurd rfl (hshort c c' rest)

theorem isBytes_of_hex2bytes {path hex bytes : Str} (h : hex2bytes path hex = .ok bytes) :
    IsBytes bytes := by
  unfold hex2bytes at h
  split at h
  · cases h
  · exact isBytes_of_hexPairs h

/-- The constructor leaves the key empty. -/
theorem key_of_read {files : Str → Option Str} {path : Str} {c : FileConfig Re}
    (h : FileConfig.read lib files path = .ok c) : c.key = [] := by
  have htry := tryRead_of_read lib h
  simp only [FileConfig.tryRead, bind_eq_ok] at htry
  obtain ⟨_, -, _, -, _, -, _, -, _, -, _, -, _, -, _, -, _, -, _, -, _, -, _, -, _, -, _, -, _, -,
    _, -, hc⟩ := htry
  cases hc
  rfl

/-- A group that was read has texts. -/
theorem exists_groupText {path : Str} {ag : Json} {g : ActionGroup Re}
    (h : readGroup lib path ag = .ok g) : ∃ t : GroupText, t.compile lib = .ok g := by
  simp only [readGroup, bind_eq_ok, mapM_eq_ok] at h
  obtain ⟨_, -, a, -, ps, -, -, -, rs, hrs, hg⟩ := h
  cases hg
  have hpattern : ∀ r ∈ rs, ∃ text, lib.compile text = .ok r := by
    intro r hr
    obtain ⟨p, -, hp⟩ := exists_partner hrs.flip hr
    obtain ⟨text, -, hcompile⟩ := bind_eq_ok.mp hp
    exact ⟨text, mapError_eq_ok.mp hcompile⟩
  obtain ⟨texts, htexts⟩ := exists_mapM hpattern
  exact ⟨{ action := a, patterns := texts }, bind_eq_ok.mpr ⟨rs, htexts, rfl⟩⟩

/-- **Each configuration has settings**, whatever document it was read from. -/
theorem exists_settings {files : Str → Option Str} {path : Str} {c : FileConfig Re}
    (h : FileConfig.read lib files path = .ok c) :
    ∃ s : Settings, IsBytes s.passwordHash ∧
      ∀ path' bytes, s.load lib path' bytes = .ok { c with config := bytes } := by
  obtain ⟨doc, hfrom⟩ := read_spec lib h
  obtain ⟨elements, -, hgroups⟩ := hfrom.actionGroups
  have hgroup : ∀ g ∈ c.actionGroups, ∃ t : GroupText, t.compile lib = .ok g := by
    intro g hg
    obtain ⟨ag, -, hag⟩ := exists_partner hgroups.flip hg
    exact exists_groupText lib hag
  obtain ⟨texts, htexts⟩ := exists_mapM hgroup
  obtain ⟨hex, -, hhash⟩ := hfrom.password
  refine ⟨{ signature := c.signature, passwordHash := c.passwordHash, syscalldef := c.syscalldef
            pinentry := c.pinentry, maxStrLen := c.maxStrLen, actionDefault := c.actionDefault
            actionGroups := texts }, isBytes_of_hex2bytes hhash, fun path' bytes => ?_⟩
  have hsize : ¬ (c.passwordHash ≠ [] ∧ c.passwordHash.length ≠ kHashSize) := fun hbad =>
    hfrom.hashSize.elim hbad.1 hbad.2
  unfold Settings.load
  rw [if_neg hsize, htexts]
  simp only [← key_of_read lib h]

/-- **The round trip.**  A file with the document of some settings is read as what they come to:
the configuration that they describe, or the exception for the first thing that is wrong with
them.  And for each configuration that was read from any file there are settings, whose document
is read as the same configuration from any other file. -/
theorem settings_round_trip :
    (∀ (s : Settings) (files : Str → Option Str) (path bytes : Str), IsBytes s.passwordHash →
      files path = some bytes → lib.parse bytes = .ok s.document →
        FileConfig.read lib files path = s.load lib path bytes) ∧
    ∀ (files : Str → Option Str) (path : Str) (c : FileConfig Re),
      FileConfig.read lib files path = .ok c → ∃ s : Settings,
        ∀ (files' : Str → Option Str) (path' bytes : Str), files' path' = some bytes →
          lib.parse bytes = .ok s.document →
            FileConfig.read lib files' path' = .ok { c with config := bytes } := by
  refine ⟨fun s files path bytes hhash hfile hparse => read_document lib hhash hfile hparse, ?_⟩
  intro files path c h
  obtain ⟨s, hhash, hload⟩ := exists_settings lib h
  refine ⟨s, fun files' path' bytes hfile hparse => ?_⟩
  rw [read_document lib hhash hfile hparse, hload]

/-- Settings with which the user is asked about every call. -/
def askAll : Settings :=
  { signature := ['s'], passwordHash := [], syscalldef := ['d'], pinentry := ['p'], maxStrLen := 32
    actionDefault := .deny, actionGroups := [{ action := .ask, patterns := [".*".toList] }] }

/-- The text of their document. -/
def askAllText : Str := askAll.document.write

/-- Libraries that know this document and the pattern `.*`. -/
def askAllLib : Libraries Unit where
  toJsonCpp := .ofDocuments [askAll.document]
  compile s := if s = ".*".toList then .ok () else .error "not known".toList
  fullMatch _ s := '\n' ∉ s
  hmac _ _ := List.replicate kHashSize 'h'
  hmac_length _ _ := List.length_replicate

theorem askAllLib_parse : askAllLib.parse askAllText = .ok askAll.document := by
  rw [askAllLib, askAllText, ofDocuments_parse]

/-- They are read, and can be written down again. -/
theorem askAll_read :
    ∃ c : FileConfig Unit,
      FileConfig.read askAllLib (fun _ => some askAllText) "config".toList = .ok c ∧
        c.actionGroups = [{ action := .ask, patterns := [()] }] ∧
        ∃ s : Settings, ∀ bytes, askAllLib.parse bytes = .ok s.document →
          FileConfig.read askAllLib (fun _ => some bytes) "other".toList =
            .ok { c with config := bytes } := by
  obtain ⟨hread, hwrite⟩ := settings_round_trip askAllLib
  have h := hread askAll (fun _ => some askAllText) "config".toList askAllText
    (List.forall_mem_nil _) rfl askAllLib_parse
  obtain ⟨s, hs⟩ := hwrite _ _ _ h
  exact ⟨_, h, rfl, s, fun bytes hparse => hs _ _ bytes rfl hparse⟩

end GravelBox
