import Famp.Bus.Mailbox
import Famp.Core.Ids

/-!
# Bus messages and replies

The vocabulary of the bus: what a client sends, what the broker replies, and the
effects that the broker stages for its executor.
-/

set_option autoImplicit false

namespace Famp.Bus

open Famp.Core Json

def busProtoVersion : Nat := 3

abbrev ClientId := Nat

/-! ## Provenance and errors -/

inductive Origin where
  | «local» | gateway | unknown
  deriving DecidableEq, Repr

/-- `Origin::default`: absence is never trusted. -/
def Origin.default : Origin := .unknown

structure StampedEnvelope where
  origin : Origin
  envelope : Value
  deriving DecidableEq

inductive BusErrorKind where
  | notRegistered | nameTaken | channelNameInvalid | notJoined | envelopeInvalid
  | envelopeTooLarge | taskNotFound | brokerProtoMismatch | brokerUnreachable | internal
  deriving DecidableEq, Repr

/-! ## Messages -/

inductive AwaitFilter where
  | any
  | task (id : Uuid)
  deriving DecidableEq, Repr

inductive Target where
  | agent (name : String)
  | channel (name : String)
  deriving DecidableEq, Repr

inductive InspectKind where
  | broker
  | identities
  | tasks (id : Option Uuid) (full : Bool)
  | messages (recipient : Option String) (tail : Option Nat)
  | waiters
  deriving DecidableEq, Repr

inductive BusMessage where
  | hello (busProto : Nat) (client : String) (bindAs : Option String)
  | register (name : String) (pid : Nat) (cwd : Option String) (listen : Bool)
      (origin : Option Origin)
  | send (target : Target) (envelope : Value)
  | inbox (since : Option Nat) (includeTerminal : Option Bool)
  | await (timeoutMs : Nat) (task : Option Uuid)
  | join (channel : String) (role : Option String)
  | leave (channel : String)
  | sessions
  | whoami
  | inspect (kind : InspectKind)
  | setListen (listen : Bool)
  | setWakeAddr (wakeAddr : Option String)
  deriving DecidableEq

/-! ## Replies -/

structure Delivered where
  target : Target
  ok : Bool
  woken : Bool
  wakeAddr : Option String
  deriving DecidableEq, Repr

structure SessionRow where
  name : String
  pid : Nat
  joined : List String
  deriving DecidableEq, Repr

structure MemberInfo where
  name : String
  role : Option String
  deriving DecidableEq, Repr

/-- `InspectOk` is written by the executor and not by the broker, so it is not
among these replies. -/
inductive BusReply where
  | helloOk (busProto : Nat)
  | helloErr (kind : BusErrorKind) (message : String)
  | registerOk (active : String) (drained : List StampedEnvelope) (peers : List String)
  | sendOk (taskId : Uuid) (delivered : List Delivered)
  | inboxOk (envelopes : List StampedEnvelope) (nextOffset : Nat)
  | awaitOk (envelopes : List StampedEnvelope) (mailbox : MailboxName) (nextOffset : Nat)
  | awaitTimeout
  | joinOk (channel : String) (members : List MemberInfo) (drained : List StampedEnvelope)
  | leaveOk (channel : String)
  | sessionsOk (rows : List SessionRow)
  | whoamiOk (active : Option String) (joined : List String)
  | setListenOk (listenMode : Bool)
  | setWakeAddrOk (wakeAddr : Option String)
  | err (kind : BusErrorKind) (message : String)
  deriving DecidableEq

/-! ## Inputs and staged effects -/

inductive BrokerInput where
  | wire (client : ClientId) (msg : BusMessage)
  | disconnect (client : ClientId)
  | tick
  deriving DecidableEq

inductive Out where
  | reply (client : ClientId) (reply : BusReply)
  | appendMailbox (target : MailboxName) (line : Bytes) (origin : Origin)
  | advanceCursor (name : MailboxName) (offset : Nat)
  | parkAwait (client : ClientId) (filter : AwaitFilter) (deadline : Nat)
  | unparkAwait (client : ClientId)
  | releaseClient (client : ClientId)
  | inspectRequest (client : ClientId) (kind : InspectKind)
  | sessionEnded (name : String) (pid : Nat) (joined : List String)
  deriving DecidableEq

end Famp.Bus
