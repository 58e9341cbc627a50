import CompiledScript.Text.Hex
import CompiledScript.Text.Unprintable

/-!
# Quoted text

A text is shown between double quotes.  The quote, the backslash and the usual
control characters are written as a backslash with a letter or sign, and every
other character without a glyph of its own as its code between braces.  All else
stands for itself.
-/

namespace CompiledScript.Quoted

set_option autoImplicit false

/-- A character as it stands between the quotes. -/
def shown (char : Char) : String :=
  match char with
  | '\x00' => "\\0"
  | '\t' => "\\t"
  | '\r' => "\\r"
  | '\n' => "\\n"
  | '\\' => "\\\\"
  | '"' => "\\\""
  | char =>
    if Unprintable.contains char then
      "\\u\x7b" ++ Hex.padded 1 char.toNat ++ "\x7d"
    else char.toString

def write (text : String) : String :=
  "\"" ++ String.join (text.toList.map shown) ++ "\""

end CompiledScript.Quoted
