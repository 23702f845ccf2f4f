import Famp.Bus.Proto
import Famp.Envelope.Bus

/-!
# Frames and mailbox records

How messages are read from frames and replies written to them, and how a mailbox
record carries the provenance of the envelope in it.
-/

set_option autoImplicit false

namespace Famp.Bus

open Famp.Core Json Json.Serde Envelope

/-! ## Reading messages -/

def lowerOrDigit (c : Char) : Bool := ('a' ≤ c && c ≤ 'z') || ('0' ≤ c && c ≤ '9')

/-- `^#[a-z0-9][a-z0-9_-]{0,31}$` -/
def channelRe (name : String) : Bool :=
  match name.toList with
  | '#' :: first :: rest =>
    lowerOrDigit first && decide (rest.length ≤ 31) &&
      rest.all fun c => lowerOrDigit c || c == '_' || c == '-'
  | _ => false

/-- `^uds:/tmp/cc-socks/[0-9]{1,10}\.sock$` -/
def wakeAddrValid (candidate : String) : Bool :=
  let chars := candidate.toList
  let digits := (chars.drop 18).takeWhile fun c => '0' ≤ c && c ≤ '9'
  chars.take 18 == "uds:/tmp/cc-socks/".toList && decide (1 ≤ digits.length) &&
    decide (digits.length ≤ 10) && chars.drop (18 + digits.length) == ".sock".toList

def Target.read : Tree → Option Target
  | .obj members =>
    match recordFields [required "kind", required "name"] (.obj members) with
    | some [kind, name] => do
      let kind ← readField readString kind
      let name ← readField readString name
      if kind = "agent" then return .agent name
      else if kind = "channel" then if channelRe name then return .channel name else none
      else none
    | _ => none
  | _ => none

def Origin.ofName : String → Option Origin
  | "local" => some .local
  | "gateway" => some .gateway
  | "unknown" => some .unknown
  | _ => none

def Origin.read (tree : Tree) : Option Origin := (variantName tree).bind Origin.ofName

def readUuid (tree : Tree) : Option Uuid := tree.asStr?.bind Uuid.parseStr

def InspectKind.read (tree : Tree) : Option InspectKind :=
  match taggedContent "op" tree with
  | some ("broker", content) => (recordFields [] content).map fun _ => .broker
  | some ("identities", content) => (recordFields [] content).map fun _ => .identities
  | some ("waiters", content) => (recordFields [] content).map fun _ => .waiters
  | some ("tasks", content) =>
    match recordFields [defaulted "id", defaulted "full"] content with
    | some [id, full] => do
      return .tasks (← readOption readUuid id) (← readDefault false readBool full)
    | _ => none
  | some ("messages", content) =>
    match recordFields [defaulted "to", defaulted "tail"] content with
    | some [recipient, tail] => do
      return .messages (← readOption readString recipient)
        (← readOption (readUnsigned 64) tail)
    | _ => none
  | _ => none

def BusMessage.read (tree : Tree) : Option BusMessage :=
  match taggedContent "op" tree with
  | some ("hello", content) =>
    match recordFields [required "bus_proto", required "client", defaulted "bind_as"] content with
    | some [busProto, client, bindAs] => do
      return .hello (← readField (readUnsigned 32) busProto) (← readField readString client)
        (← readOption readString bindAs)
    | _ => none
  | some ("register", content) =>
    match recordFields [required "name", required "pid", defaulted "cwd", defaulted "listen",
        defaulted "origin"] content with
    | some [name, pid, cwd, listen, origin] => do
      return .register (← readField readString name) (← readField (readUnsigned 32) pid)
        (← readOption readString cwd) (← readDefault false readBool listen)
        (← readOption Origin.read origin)
    | _ => none
  | some ("send", content) =>
    match recordFields [required "to", required "envelope"] content with
    | some [target, envelope] => do
      return .send (← readField Target.read target) (Value.ofTree (← envelope))
    | _ => none
  | some ("inbox", content) =>
    match recordFields [defaulted "since", defaulted "include_terminal"] content with
    | some [since, includeTerminal] => do
      return .inbox (← readOption (readUnsigned 64) since)
        (← readOption readBool includeTerminal)
    | _ => none
  | some ("await", content) =>
    match recordFields [required "timeout_ms", defaulted "task"] content with
    | some [timeoutMs, task] => do
      return .await (← readField (readUnsigned 64) timeoutMs) (← readOption readUuid task)
    | _ => none
  | some ("join", content) =>
    match recordFields [required "channel", defaulted "role"] content with
    | some [channel, role] => do
      return .join (← readField readString channel) (← readOption readString role)
    | _ => none
  | some ("leave", content) =>
    match recordFields [required "channel"] content with
    | some [channel] => do return .leave (← readField readString channel)
    | _ => none
  | some ("sessions", content) => (recordFields [] content).map fun _ => .sessions
  | some ("whoami", content) => (recordFields [] content).map fun _ => .whoami
  | some ("inspect", content) =>
    match recordFields [required "kind"] content with
    | some [kind] => do return .inspect (← readField InspectKind.read kind)
    | _ => none
  | some ("set_listen", content) =>
    match recordFields [required "listen"] content with
    | some [listen] => do return .setListen (← readField readBool listen)
    | _ => none
  | some ("set_wake_addr", content) =>
    match recordFields [optional "wake_addr"] content with
    | some [wakeAddr] => do return .setWakeAddr (← readOption readString wakeAddr)
    | _ => none
  | _ => none

theorem Target.read_channel {tree : Tree} {name : String}
    (found : Target.read tree = some (.channel name)) : channelRe name = true := by
  unfold Target.read at found
  split at found
  · split at found
    · obtain ⟨kind, _, found⟩ := read_first found
      obtain ⟨named, _, found⟩ := read_first found
      split at found
      · cases found
      · split at found
        · split at found
          · cases found
            assumption
          · cases found
        · cases found
    · cases found
  · cases found

theorem BusMessage.read_send {tree : Tree} {target : Target} {envelope : Value}
    (found : BusMessage.read tree = some (.send target envelope)) :
    ∃ part, Target.read part = some target := by
  unfold BusMessage.read at found
  split at found
  case h_3 =>
    split at found
    · rename_i part _ _
      obtain ⟨target, read, found⟩ := read_first found
      obtain ⟨_, _, found⟩ := read_first found
      cases found
      rw [readField_eq_bind] at read
      obtain ⟨part, _, read⟩ := Option.bind_eq_some_iff.mp read
      exact ⟨part, read⟩
    · cases found
  -- every other tag leads to another message
  all_goals
    try split at found
    all_goals
      repeat obtain ⟨_, _, found⟩ := read_first found
      first
      | cases found
      | simp at found

/-! ## Writing replies -/

def Origin.name : Origin → String
  | .local => "local"
  | .gateway => "gateway"
  | .unknown => "unknown"

theorem envelopeOrigin_increasing : ["envelope", "origin"].Pairwise (· < ·) := by decide

def StampedEnvelope.toValue (stamped : StampedEnvelope) : Value :=
  Value.record ["envelope", "origin"] envelopeOrigin_increasing [stamped.envelope, .str stamped.origin.name]

def BusErrorKind.name : BusErrorKind → String
  | .notRegistered => "not_registered"
  | .nameTaken => "name_taken"
  | .channelNameInvalid => "channel_name_invalid"
  | .notJoined => "not_joined"
  | .envelopeInvalid => "envelope_invalid"
  | .envelopeTooLarge => "envelope_too_large"
  | .taskNotFound => "task_not_found"
  | .brokerProtoMismatch => "broker_proto_mismatch"
  | .brokerUnreachable => "broker_unreachable"
  | .internal => "internal"

def Target.toValue : Target → Value
  | .agent name => Value.record ["kind", "name"] MailboxName.kindName_increasing [.str "agent", .str name]
  | .channel name => Value.record ["kind", "name"] MailboxName.kindName_increasing [.str "channel", .str name]

def Delivered.toValue (row : Delivered) : Value :=
  match row.wakeAddr with
  | none =>
    Value.record ["ok", "to", "woken"] (by decide)
      [.bool row.ok, row.target.toValue, .bool row.woken]
  | some wakeAddr =>
    Value.record ["ok", "to", "wake_addr", "woken"] (by decide)
      [.bool row.ok, row.target.toValue, .str wakeAddr, .bool row.woken]

def SessionRow.toValue (row : SessionRow) : Value :=
  Value.record ["joined", "name", "pid"] (by decide)
    [.arr (row.joined.map .str), .str row.name, .int row.pid]

def MemberInfo.toValue (member : MemberInfo) : Value :=
  match member.role with
  | none => Value.record ["name"] (by decide) [.str member.name]
  | some role => Value.record ["name", "role"] (by decide) [.str member.name, .str role]

def stampedValues (envelopes : List StampedEnvelope) : Value :=
  .arr (envelopes.map StampedEnvelope.toValue)

def BusReply.toValue : BusReply → Value
  | .helloOk busProto =>
    Value.record ["bus_proto", "op"] (by decide) [.int busProto, .str "hello_ok"]
  | .helloErr kind message =>
    Value.record ["kind", "message", "op"] (by decide)
      [.str kind.name, .str message, .str "hello_err"]
  | .registerOk active drained peers =>
    Value.record ["active", "drained", "op", "peers"] (by decide)
      [.str active, stampedValues drained, .str "register_ok", .arr (peers.map .str)]
  | .sendOk taskId delivered =>
    Value.record ["delivered", "op", "task_id"] (by decide)
      [.arr (delivered.map Delivered.toValue), .str "send_ok", .str taskId.hyphenated]
  | .inboxOk envelopes nextOffset =>
    Value.record ["envelopes", "next_offset", "op"] (by decide)
      [stampedValues envelopes, .int nextOffset, .str "inbox_ok"]
  | .awaitOk envelopes mailbox nextOffset =>
    Value.record ["envelopes", "mailbox", "next_offset", "op"] (by decide)
      [stampedValues envelopes, mailbox.toValue, .int nextOffset, .str "await_ok"]
  | .awaitTimeout => Value.record ["op"] (by decide) [.str "await_timeout"]
  | .joinOk channel members drained =>
    Value.record ["channel", "drained", "members", "op"] (by decide)
      [.str channel, stampedValues drained, .arr (members.map MemberInfo.toValue),
        .str "join_ok"]
  | .leaveOk channel => Value.record ["channel", "op"] (by decide) [.str channel, .str "leave_ok"]
  | .sessionsOk rows =>
    Value.record ["op", "rows"] (by decide)
      [.str "sessions_ok", .arr (rows.map SessionRow.toValue)]
  | .whoamiOk none joined =>
    Value.record ["joined", "op"] (by decide) [.arr (joined.map .str), .str "whoami_ok"]
  | .whoamiOk (some active) joined =>
    Value.record ["active", "joined", "op"] (by decide)
      [.str active, .arr (joined.map .str), .str "whoami_ok"]
  | .setListenOk listenMode =>
    Value.record ["listen_mode", "op"] (by decide) [.bool listenMode, .str "set_listen_ok"]
  | .setWakeAddrOk wakeAddr =>
    Value.record ["op", "wake_addr"] (by decide)
      [.str "set_wake_addr_ok", (wakeAddr.map Value.str).getD Value.null]
  | .err kind message =>
    Value.record ["kind", "message", "op"] (by decide)
      [.str kind.name, .str message, .str "err"]

/-! ## Frames -/

def maxFrameBytes : Nat := 16 * 1024 * 1024

def lenPrefixBytes : Nat := 4

inductive FrameError where
  | frameTooLarge (len : Nat)
  | emptyFrame
  | encode (error : String)
  | decode (error : String)
  deriving DecidableEq, Repr

def FrameError.toText : FrameError → String
  | .frameTooLarge len => "frame length " ++ toString len ++ " exceeds maximum 16 MiB"
  | .emptyFrame => "frame length cannot be zero"
  | .encode error => "canonical JSON encode failed: " ++ error
  | .decode error => "canonical JSON decode (strict-parse) failed: " ++ error

/-- `u32::to_be_bytes` -/
def beBytes (len : Nat) : Bytes :=
  [UInt8.ofNat (len / 2 ^ 24), UInt8.ofNat (len / 2 ^ 16), UInt8.ofNat (len / 2 ^ 8),
    UInt8.ofNat len]

def encodeFrame (K : Text) (value : Value) : Except FrameError Bytes :=
  match K.canonicalize value with
  | .error error => .error (.encode error)
  | .ok body =>
    if 2 ^ 32 ≤ body.length then .error (.frameTooLarge (2 ^ 32 - 1))
    else if maxFrameBytes < body.length then .error (.frameTooLarge body.length)
    else .ok (beBytes body.length ++ body)

/-- A frame at the head of the buffer, with the number of bytes it takes. -/
def tryDecodeFrame {T : Type} (K : Text) (read : Tree → Option T) (buf : Bytes) :
    Except FrameError (Option (T × Nat)) :=
  match buf with
  | a :: b :: c :: d :: rest =>
    let len := a.toNat * 2 ^ 24 + b.toNat * 2 ^ 16 + c.toNat * 2 ^ 8 + d.toNat
    if len = 0 then .error .emptyFrame
    else if maxFrameBytes < len then .error (.frameTooLarge len)
    else if rest.length < len then .ok none
    else
      match K.parse (rest.take len) with
      | .error error => .error (.decode error)
      | .ok tree =>
        if tree.hasDuplicateKey then .error (.decode "duplicate key in JSON object")
        else
          match read tree with
          | none => .error (.decode "the payload is not of the expected type")
          | some value => .ok (some (value, lenPrefixBytes + len))
  | _ => .ok none

theorem tryDecodeFrame_ok {T : Type} {K : Text} {read : Tree → Option T} {buf : Bytes} {message : T}
    {used : Nat} (decoded : tryDecodeFrame K read buf = .ok (some (message, used))) :
    ∃ tree, read tree = some message := by
  unfold tryDecodeFrame at decoded
  split at decoded
  · dsimp only at decoded
    split at decoded
    · cases decoded
    · split at decoded
      · cases decoded
      · split at decoded
        · cases decoded
        · split at decoded
          · cases decoded
          · rename_i tree _
            split at decoded
            · cases decoded
            · split at decoded
              · cases decoded
              · cases decoded
                exact ⟨tree, by assumption⟩
  · cases decoded

/-- A reply encodes exactly when its canonical bytes fit in a frame. -/
theorem encodeFrame_ok_iff (K : Text) (value : Value) :
    (∃ frame, encodeFrame K value = .ok frame) ↔
      ∃ body, K.canonicalize value = .ok body ∧ body.length ≤ maxFrameBytes := by
  unfold encodeFrame
  cases canonical : K.canonicalize value with
  | error error => simp
  | ok body =>
    have small : maxFrameBytes < 2 ^ 32 := by decide
    simp only [Except.ok.injEq, exists_eq_left']
    split
    · rename_i huge
      simp; omega
    · split
      · rename_i large
        simp; omega
      · rename_i fits
        simp; omega

theorem toNat_beBytes (len : Nat) (bound : len < 2 ^ 32) :
    (UInt8.ofNat (len / 2 ^ 24)).toNat * 2 ^ 24 + (UInt8.ofNat (len / 2 ^ 16)).toNat * 2 ^ 16 +
      (UInt8.ofNat (len / 2 ^ 8)).toNat * 2 ^ 8 + (UInt8.ofNat len).toNat = len := by
  simp only [UInt8.toNat_ofNat']
  omega

/-- A frame that was encoded is decoded to what is read from its text, and its
length is the number of bytes taken. -/
theorem tryDecodeFrame_encodeFrame {T : Type} (K : Text) (read : Tree → Option T) {value : Value}
    {body : Bytes} {tree : Tree} {message : T} (canonical : K.canonicalize value = .ok body)
    (nonempty : body ≠ []) (small : body.length ≤ maxFrameBytes) (parsed : K.parse body = .ok tree)
    (single : tree.hasDuplicateKey = false) (found : read tree = some message) :
    ∃ frame, encodeFrame K value = .ok frame ∧
      tryDecodeFrame K read frame = .ok (some (message, frame.length)) := by
  have limit : maxFrameBytes < 2 ^ 32 := by decide
  have encoded : encodeFrame K value = .ok (beBytes body.length ++ body) := by
    have word : ¬2 ^ 32 ≤ body.length := by omega
    have fits : ¬maxFrameBytes < body.length := by omega
    simp only [encodeFrame, canonical, if_neg word, if_neg fits]
  refine ⟨_, encoded, ?_⟩
  have positive : body.length ≠ 0 := by simpa using nonempty
  have fits : ¬maxFrameBytes < body.length := by omega
  have length := toNat_beBytes body.length (by omega)
  simp only [beBytes, List.cons_append, List.nil_append, tryDecodeFrame, length, if_neg positive,
    if_neg fits, Nat.lt_irrefl, if_false, List.take_length, parsed, single, Bool.false_eq_true,
    found, List.length_cons, lenPrefixBytes]
  congr 3
  omega

end Famp.Bus
