import Famp.Bus.Codec
import Famp.Json.Plain

/-!
# Frames of a stream

The task of a connection takes one frame after the other from its stream and hands
the messages to the broker's loop.  The first frame that is not as it should be, or
the end of the stream, ends the connection.
-/

set_option autoImplicit false

namespace Famp.Bus

open Famp.Core Json

/-! ## One frame -/

inductive BusClientError where
  /-- The stream ends before the bytes that are asked for. -/
  | io
  | frame (error : FrameError)
  | decode (error : String)
  deriving DecidableEq

def readExact (count : Nat) (stream : Bytes) : Except BusClientError (Bytes × Bytes) :=
  if stream.length < count then .error .io else .ok (stream.take count, stream.drop count)

/-- `u32::from_be_bytes` -/
def fromBeBytes (bytes : Bytes) : Nat := bytes.foldl (fun word byte => word * 2 ^ 8 + byte.toNat) 0

def fromSliceStrict {T : Type} (K : Text) (read : Tree → Option T) (body : Bytes) :
    Except BusClientError T :=
  match K.parse body with
  | .error error => .error (.decode error)
  | .ok tree =>
    if tree.hasDuplicateKey then .error (.decode "duplicate key in JSON object")
    else
      match read tree with
      | none => .error (.decode "the payload is not of the expected type")
      | some message => .ok message

def readFrame {T : Type} (K : Text) (read : Tree → Option T) (stream : Bytes) :
    Except BusClientError (T × Bytes) :=
  match readExact lenPrefixBytes stream with
  | .error error => .error error
  | .ok (lenBuf, stream) =>
    let len := fromBeBytes lenBuf
    if len = 0 then .error (.frame .emptyFrame)
    else if maxFrameBytes < len then .error (.frame (.frameTooLarge len))
    else
      match readExact len stream with
      | .error error => .error error
      | .ok (body, stream) => (fromSliceStrict K read body).map (·, stream)

section Frames
variable {T : Type} {K : Text} {read : Tree → Option T}

theorem readExact_ok_iff {count : Nat} {stream taken rest : Bytes} :
    readExact count stream = .ok (taken, rest) ↔ stream = taken ++ rest ∧ taken.length = count := by
  unfold readExact
  split
  · simp only [reduceCtorEq, false_iff, not_and]
    rintro rfl long
    simp only [List.length_append] at *
    omega
  · simp only [Except.ok.injEq, Prod.mk.injEq]
    constructor
    · rintro ⟨rfl, rfl⟩
      exact ⟨(List.take_append_drop ..).symm, List.length_take_of_le (by omega)⟩
    · rintro ⟨rfl, rfl⟩
      exact ⟨List.take_left, List.drop_left⟩

theorem fromSliceStrict_ok_iff {body : Bytes} {message : T} :
    fromSliceStrict K read body = .ok message ↔
      ∃ tree, K.parse body = .ok tree ∧ tree.hasDuplicateKey = false ∧ read tree = some message := by
  unfold fromSliceStrict
  cases K.parse body with
  | error error => simp
  | ok tree =>
    cases duplicate : tree.hasDuplicateKey <;> cases found : read tree <;> simp [duplicate, found]

theorem fromBeBytes_beBytes {len : Nat} (word : len < 2 ^ 32) : fromBeBytes (beBytes len) = len := by
  simp only [fromBeBytes, beBytes, List.foldl_cons, List.foldl_nil, UInt8.toNat_ofNat']
  omega

theorem beBytes_fromBeBytes {head : Bytes} (four : head.length = lenPrefixBytes) :
    beBytes (fromBeBytes head) = head := by
  obtain ⟨a, b, c, d, rfl⟩ : ∃ a b c d, head = [a, b, c, d] := List.length_eq_four.mp four
  have bounds := And.intro (And.intro a.toNat_lt b.toNat_lt) (And.intro c.toNat_lt d.toNat_lt)
  simp only [fromBeBytes, beBytes, List.foldl_cons, List.foldl_nil, List.cons.injEq, and_true,
    ← UInt8.toNat_inj, UInt8.toNat_ofNat']
  omega

/-- A frame of the wire: the length of the body, from 1 to `maxFrameBytes`, as four
bytes with the highest first, then the body, JSON that repeats no key. -/
def IsFrame (K : Text) (read : Tree → Option T) (frame : Bytes) (message : T) : Prop :=
  ∃ body tree, frame = beBytes body.length ++ body ∧
    1 ≤ body.length ∧ body.length ≤ maxFrameBytes ∧
    K.parse body = .ok tree ∧ tree.hasDuplicateKey = false ∧ read tree = some message

theorem isFrame_of_readFrame {stream rest : Bytes} {message : T}
    (taken : readFrame K read stream = .ok (message, rest)) :
    ∃ frame, stream = frame ++ rest ∧ IsFrame K read frame message := by
  unfold readFrame at taken
  split at taken
  · cases taken
  rename_i head stream first
  obtain ⟨rfl, four⟩ := readExact_ok_iff.mp first
  dsimp only at taken
  by_cases empty : fromBeBytes head = 0
  · rw [if_pos empty] at taken
    cases taken
  by_cases large : maxFrameBytes < fromBeBytes head
  · rw [if_neg empty, if_pos large] at taken
    cases taken
  rw [if_neg empty, if_neg large] at taken
  split at taken
  · cases taken
  rename_i body stream second
  obtain ⟨rfl, word⟩ := readExact_ok_iff.mp second
  cases found : fromSliceStrict K read body with
  | error error =>
    rw [found] at taken
    cases taken
  | ok message =>
    rw [found] at taken
    cases taken
    obtain ⟨tree, parsed⟩ := fromSliceStrict_ok_iff.mp found
    refine ⟨head ++ body, (List.append_assoc ..).symm, ⟨body, tree, ?_, by omega, by omega, parsed⟩⟩
    rw [word, beBytes_fromBeBytes four]

theorem readFrame_of_isFrame {frame : Bytes} {message : T} (framed : IsFrame K read frame message)
    (rest : Bytes) : readFrame K read (frame ++ rest) = .ok (message, rest) := by
  obtain ⟨body, tree, rfl, nonempty, small, parsed⟩ := framed
  have limit : maxFrameBytes < 2 ^ 32 := by decide
  have positive : ¬body.length = 0 := by omega
  have fits : ¬maxFrameBytes < body.length := by omega
  have four : (beBytes body.length).length = lenPrefixBytes := rfl
  rw [readFrame, readExact_ok_iff.mpr ⟨List.append_assoc .., four⟩]
  dsimp only
  rw [fromBeBytes_beBytes (by omega), if_neg positive, if_neg fits,
    readExact_ok_iff.mpr ⟨rfl, rfl⟩]
  dsimp only
  rw [fromSliceStrict_ok_iff.mpr ⟨tree, parsed⟩]
  rfl

theorem readFrame_error_iff {stream : Bytes} :
    (∃ error, readFrame K read stream = .error error) ↔
      ∀ frame message, IsFrame K read frame message → ¬frame <+: stream := by
  constructor
  · rintro ⟨error, refused⟩ frame message framed ⟨rest, rfl⟩
    rw [readFrame_of_isFrame framed] at refused
    cases refused
  · intro none
    cases taken : readFrame K read stream with
    | error error => exact ⟨error, rfl⟩
    | ok pair =>
      obtain ⟨frame, whole, framed⟩ := isFrame_of_readFrame taken
      exact absurd ⟨pair.2, whole.symm⟩ (none frame pair.1 framed)

theorem length_lt_of_readFrame {stream rest : Bytes} {message : T}
    (taken : readFrame K read stream = .ok (message, rest)) : rest.length < stream.length := by
  obtain ⟨frame, rfl, body, tree, rfl, nonempty, -⟩ := isFrame_of_readFrame taken
  simp only [List.length_append]
  omega

end Frames

/-! ## The frames of a connection -/

inductive BrokerMsg where
  | frame (client : ClientId) (msg : BusMessage)
  | disconnect (client : ClientId)
  deriving DecidableEq

/-- What the read loop of `client_task` sends to the broker, when `stream` is all that
the peer writes. -/
def clientTask (K : Text) (id : ClientId) (stream : Bytes) : List BrokerMsg :=
  match _taken : readFrame K BusMessage.read stream with
  | .error _ => [.disconnect id]
  | .ok (msg, rest) => .frame id msg :: clientTask K id rest
termination_by stream.length
decreasing_by exact length_lt_of_readFrame _taken

section Connections
variable {K : Text} {id : ClientId} {stream rest : Bytes} {msg : BusMessage}

theorem clientTask_of_ok (taken : readFrame K BusMessage.read stream = .ok (msg, rest)) :
    clientTask K id stream = .frame id msg :: clientTask K id rest := by
  rw [clientTask]
  split
  · rename_i refused
    rw [refused] at taken
    cases taken
  · rename_i other
    rw [other] at taken
    cases taken
    rfl

theorem clientTask_of_error {error : BusClientError}
    (refused : readFrame K BusMessage.read stream = .error error) :
    clientTask K id stream = [.disconnect id] := by
  rw [clientTask]
  split
  · rfl
  · rename_i taken
    rw [taken] at refused
    cases refused

theorem exists_clientTask_eq (K : Text) (id : ClientId) (stream : Bytes) :
    ∃ msgs : List BusMessage, clientTask K id stream = msgs.map (.frame id) ++ [.disconnect id] := by
  fun_induction clientTask K id stream with
  | case1 => exact ⟨[], rfl⟩
  | case2 stream msg rest _ ih =>
    obtain ⟨msgs, sent⟩ := ih
    exact ⟨msg :: msgs, by rw [sent, List.map_cons, List.cons_append]⟩

/-- The broker is handed the messages of the frames at the head of the stream, in
order, up to the first bytes that begin with no frame, and then one disconnect:
nothing after it. -/
theorem clientTask_hands_over_frames (K : Text) (id : ClientId) (stream : Bytes) :
    (∃ msgs : List BusMessage, clientTask K id stream = msgs.map (.frame id) ++ [.disconnect id]) ∧
      ∀ msgs : List BusMessage, clientTask K id stream = msgs.map (.frame id) ++ [.disconnect id] ↔
        ∃ frames rest, stream = frames.flatten ++ rest ∧
          List.Forall₂ (IsFrame K BusMessage.read) frames msgs ∧
          ∀ frame msg, IsFrame K BusMessage.read frame msg → ¬frame <+: rest := by
  refine ⟨exists_clientTask_eq K id stream, fun msgs => ⟨?_, ?_⟩⟩
  · intro sent
    induction msgs generalizing stream with
    | nil =>
      cases taken : readFrame K BusMessage.read stream with
      | error error => exact ⟨[], stream, rfl, .nil, readFrame_error_iff.mp ⟨error, taken⟩⟩
      | ok pair =>
        rw [clientTask_of_ok taken] at sent
        cases sent
    | cons msg msgs ih =>
      cases taken : readFrame K BusMessage.read stream with
      | error error =>
        rw [clientTask_of_error taken] at sent
        cases sent
      | ok pair =>
        rw [clientTask_of_ok taken, List.map_cons, List.cons_append, List.cons.injEq,
          BrokerMsg.frame.injEq] at sent
        obtain ⟨⟨-, rfl⟩, sent⟩ := sent
        obtain ⟨frames, rest, split, framed, ends⟩ := ih _ sent
        obtain ⟨frame, whole, first⟩ := isFrame_of_readFrame taken
        refine ⟨frame :: frames, rest, ?_, .cons first framed, ends⟩
        rw [whole, split, List.flatten_cons, List.append_assoc]
  · rintro ⟨frames, rest, rfl, framed, ends⟩
    induction framed with
    | nil =>
      obtain ⟨error, refused⟩ := readFrame_error_iff.mpr ends
      exact clientTask_of_error refused
    | cons first _ ih =>
      rw [List.flatten_cons, List.append_assoc, clientTask_of_ok (readFrame_of_isFrame first _), ih]
      rfl

def whoamiFrame : Bytes := [0, 0, 0, 15] ++ utf8 "\x7b\"op\":\"whoami\"\x7d"

def leaveFrame : Bytes := [0, 0, 0, 29] ++ utf8 "\x7b\"channel\":\"#a\",\"op\":\"leave\"\x7d"

/-- Two frames, a length of zero, and a frame after it that nobody reads. -/
theorem whoamiThenLeave_handed_over :
    clientTask Plain.text 7 (whoamiFrame ++ leaveFrame ++ [0, 0, 0, 0] ++ whoamiFrame) =
      [.frame 7 .whoami, .frame 7 (.leave "#a"), .disconnect 7] := by
  have framed : List.Forall₂ (IsFrame Plain.text BusMessage.read) [whoamiFrame, leaveFrame]
      [.whoami, .leave "#a"] := by
    refine .cons ⟨utf8 "\x7b\"op\":\"whoami\"\x7d", .obj [("op", .str "whoami")], ?_⟩
      (.cons ⟨utf8 "\x7b\"channel\":\"#a\",\"op\":\"leave\"\x7d",
        .obj [("channel", .str "#a"), ("op", .str "leave")], ?_⟩ .nil)
    · decide +kernel
    · decide +kernel
  refine ((clientTask_hands_over_frames Plain.text 7 _).2 [.whoami, .leave "#a"]).mpr
    ⟨_, [0, 0, 0, 0] ++ whoamiFrame, by simp, framed, ?_⟩
  exact readFrame_error_iff.mp ⟨.frame .emptyFrame, by decide +kernel⟩

end Connections

end Famp.Bus
