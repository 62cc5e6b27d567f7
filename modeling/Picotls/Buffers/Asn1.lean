import Picotls.Buffers.Blocks

/-!
# Writing DER

`ptls_buffer_push_asn1_block` leaves one octet for a length and stores it when the body is there;
longer lengths are not implemented. A big number is written without its leading zeros, and with one
zero in front of it if its first bit is set, as DER has no numbers without a sign. The signer of
minicrypto writes the two halves of a signature this way.
-/

namespace Picotls.Buffers

open Foundation Procedure

/-- The octet at a pointer into a number, with the one that lies behind the number if there is
one. -/
def octetAt (p : Bytes) (beyond : Option UInt8) : Proc UInt8 :=
  match p.head?.or beyond with
  | some octet => pure octet
  | none => fail .undefined

end Picotls.Buffers
