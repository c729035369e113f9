import Interop.Text.Hex
import Interop.Text.Printable

/-!
Text in double quotes, as it stands in descriptions of values.
-/
namespace Interop.Text

/-- Quotes, backslashes, line ends, tabs and the null character have escapes of their own; other
characters that are not printable are written by code point. -/
def quoteChar (c : Char) : String :=
  match c with
  | '"' => "\\\""
  | '\\' => "\\\\"
  | '\n' => "\\n"
  | '\r' => "\\r"
  | '\t' => "\\t"
  | _ =>
    if c.toNat = 0 then "\\0"
    else if isPrintable c then c.toString
    else "\\u\x7b" ++ hexText c.toNat ++ "\x7d"

def quote (text : String) : String :=
  "\"" ++ String.join (text.toList.map quoteChar) ++ "\""

end Interop.Text
