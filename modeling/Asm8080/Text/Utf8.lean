import Asm8080.Text.Basic

/-!
Contract: text as UTF-8 bytes.

Owns: the encoding of a text and the decoding of a byte list, which fails on
bytes that are no UTF-8.

Does not own: any other encoding.
-/

namespace Asm8080.Utf8

def encode (text : Text) : List UInt8 :=
  text.flatMap String.utf8EncodeChar

/-- The text that the bytes encode, if they are well formed. -/
def decode? (bytes : List UInt8) : Option Text :=
  (String.fromUTF8? (ByteArray.mk bytes.toArray)).map String.toList

end Asm8080.Utf8
