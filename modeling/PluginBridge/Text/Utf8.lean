import PluginBridge.Bytes

/-!
# UTF-8

Text as bytes. Reading accepts exactly the well-formed sequences, so each text has one form.
-/
namespace PluginBridge.Text

def utf8 (text : String) : Bytes :=
  text.toUTF8.data.toList

def ofUtf8? (bytes : Bytes) : Option String :=
  String.fromUTF8? bytes.toByteArray

theorem toByteArray_utf8 (text : String) : (utf8 text).toByteArray = text.toByteArray := by
  apply ByteArray.ext
  simp [utf8]

theorem ofUtf8?_utf8 (text : String) : ofUtf8? (utf8 text) = some text := by
  unfold ofUtf8?
  rw [toByteArray_utf8]
  simp [String.fromUTF8?, String.fromUTF8, text.isValidUTF8]

/-- The number of bytes of the longest part, from the start, that holds whole characters only. -/
def validLength (bytes : ByteArray) : Nat → Nat → Nat
  | 0, position => position
  | fuel + 1, position =>
    match bytes.utf8DecodeChar? position with
    | some c => validLength bytes fuel (position + c.utf8Size)
    | none => position

def afterValid (bytes : Bytes) : Bytes :=
  bytes.drop (validLength bytes.toByteArray bytes.length 0)

end PluginBridge.Text
