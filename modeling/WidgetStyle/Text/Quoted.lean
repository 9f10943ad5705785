import WidgetStyle.Text.Printable

/-!
# Quoted text

How a text is shown inside a message: between quotes, with everything that does
not show as itself written as an escape.  Single quotes are used, unless the
text holds a single quote and no double quote.
-/

namespace WidgetStyle.Text

/-- The quote that encloses the text. -/
def quoteFor (text : List Char) : Char :=
  if text.contains '\'' && !text.contains '"' then '"' else '\''

/-- The last `width` hexadecimal digits of a number, in lower case. -/
def hexDigits (width number : Nat) : List Char :=
  match width with
  | 0 => []
  | width + 1 => hexDigits width (number / 16) ++ [Nat.digitChar (number % 16)]

/-- The shortest numeric escape that can express the code point. -/
def escapeCode (code : Nat) : List Char :=
  if code < 0x100 then '\\' :: 'x' :: hexDigits 2 code
  else if code < 0x10000 then '\\' :: 'u' :: hexDigits 4 code
  else '\\' :: 'U' :: hexDigits 8 code

/-- One character as it is written between the given quotes. -/
def escapeCharacter (quote character : Char) : List Char :=
  if character == quote || character == '\\' then ['\\', character]
  else if character == '\n' then ['\\', 'n']
  else if character == '\r' then ['\\', 'r']
  else if character == '\t' then ['\\', 't']
  else if isPrintable character then [character]
  else escapeCode character.toNat

/-- The text between quotes. -/
def quoted (text : List Char) : List Char :=
  let quote := quoteFor text
  quote :: text.flatMap (escapeCharacter quote) ++ [quote]

/-- A string between quotes. -/
def quotedString (text : String) : String :=
  String.ofList (quoted text.toList)

/-- A single character between quotes. -/
def quotedChar (character : Char) : String :=
  String.ofList (quoted [character])

end WidgetStyle.Text
