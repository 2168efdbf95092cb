import PluginBridge.Bytes
import PluginBridge.Text.Digit

/-!
# Hexadecimal

Bytes as text: two digits for each, the higher first, in small letters.
-/
namespace PluginBridge.Bytes

def hex (bytes : Bytes) : String :=
  String.ofList (bytes.flatMap fun byte =>
    [Nat.digitChar (byte.toNat / 16), Nat.digitChar (byte.toNat % 16)])

def ofHexDigits? : List Char → Option Bytes
  | [] => some []
  | high :: low :: rest => do
    let high ← Text.digit? 16 high
    let low ← Text.digit? 16 low
    let bytes ← ofHexDigits? rest
    some (UInt8.ofNat (high * 16 + low) :: bytes)
  | [_] => none

def ofHex? (text : String) : Option Bytes :=
  ofHexDigits? text.toList

end PluginBridge.Bytes
