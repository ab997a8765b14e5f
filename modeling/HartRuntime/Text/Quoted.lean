import HartRuntime.Numeral
import HartRuntime.Text.Hidden

namespace HartRuntime.Text

/-- A character as it stands between quotes. A quote, a backslash and a few controls have
    a short form; what would not show is written by its code point. -/
def escape (c : Char) : List Char :=
  if c = '"' then ['\\', '"']
  else if c = '\\' then ['\\', '\\']
  else if c = '\n' then ['\\', 'n']
  else if c = '\r' then ['\\', 'r']
  else if c = '\t' then ['\\', 't']
  else if c = '\x00' then ['\\', '0']
  else if isHidden c then
    ['\\', 'u', '\x7b'] ++ (Numeral.codes 16 c.toNat).map Char.ofNat ++ ['\x7d']
  else [c]

/-- A text in double quotes. -/
def quote (text : String) : String :=
  String.ofList ('"' :: text.toList.flatMap escape ++ ['"'])

end HartRuntime.Text
