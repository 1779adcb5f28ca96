import MapStyle.Text.Hex
import MapStyle.Text.Unprinted

/-!
# Quoted texts

The form in which diagnostics show a text: between double quotes, with a backslash
before quotes and backslashes, letters for the common controls and code points in
hexadecimal for every other character that is not written as itself.
-/

namespace MapStyle.Text

/-- One character of a quoted text. -/
def escape (c : Char) : List Char :=
  match c with
  | '\x00' => ['\\', '0']
  | '\t' => ['\\', 't']
  | '\r' => ['\\', 'r']
  | '\n' => ['\\', 'n']
  | '"' => ['\\', '"']
  | '\\' => ['\\', '\\']
  | c =>
    if isUnprinted c then ['\\', 'u', '\x7b'] ++ Nat.toDigits 16 c.toNat ++ ['\x7d']
    else [c]

/-- A text between quotes. -/
def quoted (text : String) : String :=
  String.ofList ('"' :: text.toList.flatMap escape ++ ['"'])

end MapStyle.Text
