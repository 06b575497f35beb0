namespace Unsugar.Utf8

/-! # UTF-8

Texts as byte lists and back.
-/

def encode (text : String) : List UInt8 := text.toUTF8.data.toList

def decode? (bytes : List UInt8) : Option String := String.fromUTF8? ⟨bytes.toArray⟩

theorem decode?_encode (text : String) : decode? (encode text) = some text := by
  have valid : ByteArray.IsValidUTF8 ⟨text.toUTF8.data.toList.toArray⟩ := text.isValidUTF8
  exact dif_pos valid

theorem encode_injective {left right : String} (same : encode left = encode right) :
    left = right := by
  have read := decode?_encode left
  rw [same, decode?_encode] at read
  exact (Option.some.inj read).symm

end Unsugar.Utf8
