/-!
# UTF-8

Texts are lists of characters and their encodings are lists of bytes. A text reads back from its
own encoding, and a byte that continues a character is told from one that starts a character by
its two top bits.
-/

namespace SourceReport
namespace Utf8

def encode (text : List Char) : List UInt8 :=
  text.flatMap String.utf8EncodeChar

/-- Strict: overlong forms, surrogates and truncated sequences are refused. -/
def decode? (bytes : List UInt8) : Option (List Char) :=
  bytes.toByteArray.utf8Decode?.map Array.toList

def isContinuation (byte : UInt8) : Bool :=
  byte &&& 0xC0 == 0x80

@[simp]
theorem encode_nil : encode [] = [] := rfl

@[simp]
theorem encode_cons (c : Char) (rest : List Char) :
    encode (c :: rest) = String.utf8EncodeChar c ++ encode rest := rfl

@[simp]
theorem encode_append (front back : List Char) :
    encode (front ++ back) = encode front ++ encode back := by
  simp [encode]

theorem decode?_encode (text : List Char) : decode? (encode text) = some text := by
  have h : (encode text).toByteArray = text.utf8Encode := rfl
  simp [decode?, h]

end Utf8
end SourceReport
