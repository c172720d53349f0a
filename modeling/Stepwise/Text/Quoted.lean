import Stepwise.Text.Hidden

/-!
# Quoted texts

A quoted text stands between double quotes.  Quotes, backslashes, and characters
without a visible form are escaped: tab, newline, carriage return and null by a
letter, every other one by its code.
-/

namespace Stepwise.Text

/-- A character inside a quoted text. -/
def quoteChar (character : Char) : String :=
  match character with
  | '"' => "\\\""
  | '\\' => "\\\\"
  | '\t' => "\\t"
  | '\n' => "\\n"
  | '\r' => "\\r"
  | '\x00' => "\\0"
  | _ =>
      if isHidden character then
        "\\u\x7b" ++ String.ofList (Nat.toDigits 16 character.toNat) ++ "\x7d"
      else character.toString

/-- A text between quotes. -/
def quote (content : String) : String :=
  "\"" ++ String.join (content.toList.map quoteChar) ++ "\""

end Stepwise.Text
