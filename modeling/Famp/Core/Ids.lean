import Famp.Json.Serde

/-!
# Identifiers, principals and protocol enumerations

The identifier grammars of `famp-core`: UUIDs in the text forms their parser
accepts, principals `agent:<authority>/<name>`, artifact ids, and the small
enumerations that the envelope and the bus share.
-/

set_option autoImplicit false

namespace Famp.Core

open Json

/-! ## UUIDs -/

structure Uuid where
  bits : BitVec 128
  deriving DecidableEq, Repr

namespace Uuid

def nil : Uuid := ⟨0⟩

def hexDigit? (c : Char) : Option Nat :=
  if '0' ≤ c ∧ c ≤ '9' then some (c.toNat - '0'.toNat)
  else if 'a' ≤ c ∧ c ≤ 'f' then some (c.toNat - 'a'.toNat + 10)
  else if 'A' ≤ c ∧ c ≤ 'F' then some (c.toNat - 'A'.toNat + 10)
  else none

def parseHex (digits : List Char) : Option Nat :=
  digits.foldlM (fun value c => (hexDigit? c).map fun digit => 16 * value + digit) 0

/-- Thirty-two hexadecimal digits. -/
def parseSimple (digits : List Char) : Option Uuid :=
  if digits.length = 32 then (parseHex digits).map fun value => ⟨BitVec.ofNat 128 value⟩ else none

/-- Groups of 8, 4, 4, 4 and 12 digits between hyphens. -/
def parseHyphenated (text : List Char) : Option Uuid :=
  match text.splitOn '-' with
  | [a, b, c, d, e] =>
    if a.length = 8 ∧ b.length = 4 ∧ c.length = 4 ∧ d.length = 4 ∧ e.length = 12 then
      parseSimple (a ++ b ++ c ++ d ++ e)
    else none
  | _ => none

/-- The accepted forms are told apart by their length: simple, hyphenated,
hyphenated in braces, hyphenated after `urn:uuid:`. -/
def parseStr (text : String) : Option Uuid :=
  let chars := text.toList
  if chars.length = 32 then parseSimple chars
  else if chars.length = 36 then parseHyphenated chars
  else if chars.length = 38 ∧ chars.head? = some '\x7b' ∧ chars.getLast? = some '\x7d' then
    parseHyphenated ((chars.drop 1).dropLast)
  else if chars.length = 45 ∧ chars.take 9 = "urn:uuid:".toList then
    parseHyphenated (chars.drop 9)
  else none

def hexChar (digit : Nat) : Char :=
  if digit < 10 then Char.ofNat ('0'.toNat + digit) else Char.ofNat ('a'.toNat + (digit - 10))

/-- The `count` lowest hexadecimal digits, most significant first. -/
def hexChars : Nat → Nat → List Char
  | 0, _ => []
  | count + 1, value => hexChars count (value / 16) ++ [hexChar (value % 16)]

def hyphenated (id : Uuid) : String :=
  let digits := hexChars 32 id.bits.toNat
  String.ofList (digits.take 8 ++ '-' :: (digits.drop 8).take 4 ++ '-' :: (digits.drop 12).take 4 ++
    '-' :: (digits.drop 16).take 4 ++ '-' :: digits.drop 20)

end Uuid

/-- `MessageId`: only texts of 36 bytes are tried. -/
def messageIdFromStr (text : String) : Option Uuid :=
  if text.utf8ByteSize = 36 then Uuid.parseStr text else none

def readMessageId (tree : Tree) : Option Uuid := tree.asStr?.bind messageIdFromStr

/-! ## Principals -/

structure Principal where
  authority : String
  name : String
  deriving DecidableEq, Repr

namespace Principal

def isAsciiAlphanumeric (c : Char) : Bool :=
  ('0' ≤ c && c ≤ '9') || ('a' ≤ c && c ≤ 'z') || ('A' ≤ c && c ≤ 'Z')

def validLabel (label : List Char) : Bool :=
  !label.isEmpty && label.head? != some '-' && label.getLast? != some '-' &&
    label.all fun c => isAsciiAlphanumeric c || c == '-'

/-- Dot-separated labels of letters, digits and inner hyphens, 253 bytes at
most. -/
def validateAuthority (text : List Char) : Bool :=
  !text.isEmpty && decide (text.length ≤ 253) && text.all (fun c => decide (c.toNat < 128)) &&
    (text.splitOn '.').all validLabel

def validateNameOrInstanceId (text : List Char) : Bool :=
  !text.isEmpty && decide (text.length ≤ 64) &&
    text.all fun c => isAsciiAlphanumeric c || c == '.' || c == '_' || c == '-'

/-- `agent:<authority>/<name>`, without an instance tail. -/
def fromStr (text : String) : Option Principal :=
  let chars := text.toList
  if chars.take 6 = "agent:".toList then
    let rest := chars.drop 6
    if rest.contains '#' then none
    else if rest.contains '/' then
      let authority := rest.takeWhile (· ≠ '/')
      let name := rest.drop (authority.length + 1)
      if validateAuthority authority && validateNameOrInstanceId name then
        some ⟨String.ofList authority, String.ofList name⟩
      else none
    else none
  else none

end Principal

def readPrincipal (tree : Tree) : Option Principal := tree.asStr?.bind Principal.fromStr

/-! ## Artifact ids -/

/-- `sha256:` and sixty-four lower-case hexadecimal digits. -/
def validArtifactId (text : String) : Bool :=
  let chars := text.toList
  chars.contains ':' && chars.takeWhile (· ≠ ':') == "sha256".toList &&
    (let hex := chars.drop 7
     decide (hex.length = 64) &&
       hex.all fun c => ('0' ≤ c && c ≤ '9') || ('a' ≤ c && c ≤ 'f'))

abbrev ArtifactId := { text : String // validArtifactId text = true }

def readArtifactId (tree : Tree) : Option ArtifactId :=
  tree.asStr?.bind fun text =>
    if valid : validArtifactId text = true then some ⟨text, valid⟩ else none

/-! ## Enumerations -/

inductive MessageClass where
  | request | commit | deliver | ack | control | auditLog
  deriving DecidableEq, Repr

def MessageClass.ofName : String → Option MessageClass
  | "request" => some .request
  | "commit" => some .commit
  | "deliver" => some .deliver
  | "ack" => some .ack
  | "control" => some .control
  | "audit_log" => some .auditLog
  | _ => none

inductive AuthorityScope where
  | advisory | negotiate | commitLocal | commitDelegate | transfer
  deriving DecidableEq, Repr

def AuthorityScope.ofName : String → Option AuthorityScope
  | "advisory" => some .advisory
  | "negotiate" => some .negotiate
  | "commit_local" => some .commitLocal
  | "commit_delegate" => some .commitDelegate
  | "transfer" => some .transfer
  | _ => none

inductive TerminalStatus where
  | completed | failed | cancelled
  deriving DecidableEq, Repr

def TerminalStatus.ofName : String → Option TerminalStatus
  | "completed" => some .completed
  | "failed" => some .failed
  | "cancelled" => some .cancelled
  | _ => none

end Famp.Core
