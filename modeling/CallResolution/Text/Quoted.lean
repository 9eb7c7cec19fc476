import CallResolution.Text.Hex
import CallResolution.Text.Printable

namespace CallResolution.Text

def escape (c : Char) : String :=
  match c with
  | '"' => "\\\""
  | '\\' => "\\\\"
  | '\t' => "\\t"
  | '\n' => "\\n"
  | '\r' => "\\r"
  | c =>
    if c.toNat = 0 then "\\0"
    else if isPrintable c then c.toString
    else "\\u\x7b" ++ hex c.toNat ++ "\x7d"

/-- A text between double quotes. Quotes, backslashes and characters that are not printable are
escaped. -/
def quoted (s : String) : String := "\"" ++ String.join (s.toList.map escape) ++ "\""

end CallResolution.Text
