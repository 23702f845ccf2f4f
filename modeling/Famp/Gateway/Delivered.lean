import Famp.Bus.Origin
import Famp.Envelope.Federation
import Famp.Gateway.Ingress

/-!
# What the recipient reads

A document that the gateway has verified is sent on without the fields of the
gateways.  It is a bus envelope with the content of the verified one.  On the way
into a mailbox it is written in canonical form, twice, and canonical form writes
numbers as doubles: a document with numbers that no double carries arrives as
another one, or as one that no drain can read.  The stamp around it is one more
level, which the parser refuses around a document of the deepest nesting.
-/

set_option autoImplicit false

namespace Famp.Gateway

open Famp.Core Json Envelope Bus

section Delivered
variable {SigningKey Key Signature : Type} {scheme : SigningScheme SigningKey Key Signature}
variable {K : Text} {bytes : Bytes} {verifier : Key} {value : Value}
variable {envelope : AnySignedEnvelope Signature}

end Delivered

/-! ### An acknowledgement that is read -/

end Famp.Gateway
