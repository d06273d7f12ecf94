import HtmlConformance.Unicode.Glyph

namespace HtmlConformance.Text

/-! A text as error messages show it: in double quotes, with the quote, the backslash and
four controls behind a backslash, and every other character without a glyph of its own by
number. -/

def quotedChar (char : Char) : List Char :=
  if char = '\x00' then ['\\', '0']
  else if char = '\t' then ['\\', 't']
  else if char = '\r' then ['\\', 'r']
  else if char = '\n' then ['\\', 'n']
  else if char = '\\' || char = '"' then ['\\', char]
  else if Unicode.isGlyphless char then
    ['\\', 'u', '{'] ++ Nat.toDigits 16 char.toNat ++ ['}']
  else [char]

def quoted (text : String) : String :=
  String.ofList ('"' :: text.toList.flatMap quotedChar ++ ['"'])

end HtmlConformance.Text
