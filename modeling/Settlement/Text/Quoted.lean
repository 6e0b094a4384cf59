import Settlement.Text.Basic
import Settlement.Text.Hex
import Settlement.Text.Printable
/-!
Text in quotes, as messages and labels show it. Single quotes are used unless the text holds
one and no double quote; the quote, the backslash and all that is not printable are escaped.
-/
namespace Settlement.Text

def quoteFor (cs : List Char) : Char :=
  if cs.contains '\'' && !cs.contains '"' then '"' else '\''

/-- A code point inside quotes. A half that stands alone is not printable. -/
def escaped (quote : Char) (point : Nat) : List Char :=
  let c := charOf point
  if c = quote || c = '\\' then ['\\', c]
  else if c = '\n' then ['\\', 'n']
  else if c = '\r' then ['\\', 'r']
  else if c = '\t' then ['\\', 't']
  else if isPrintable c && c.toNat = point then [c]
  else if point < 0x100 then '\\' :: 'x' :: hex 2 point
  else if point < 0x10000 then '\\' :: 'u' :: hex 4 point
  else '\\' :: 'U' :: hex 8 point

def quoted (text : Text) : String :=
  let quote := quoteFor text.chars
  String.ofList (quote :: text.points.flatMap (escaped quote) ++ [quote])

end Settlement.Text
