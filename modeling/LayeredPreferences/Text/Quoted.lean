import LayeredPreferences.Text.Invisible

set_option autoImplicit false

/-!
# Text quoted for a reader

Between quotation marks; the marks themselves, backslashes, line ends, tabs and
characters without a shape are written as escapes.
-/
namespace LayeredPreferences.Text

def quotedChar (c : Char) : List Char :=
  if c = '"' then ['\\', '"']
  else if c = '\\' then ['\\', '\\']
  else if c = '\n' then ['\\', 'n']
  else if c = '\r' then ['\\', 'r']
  else if c = '\t' then ['\\', 't']
  else if c.toNat = 0 then ['\\', '0']
  else if isInvisible c then "\\u\x7b".toList ++ Nat.toDigits 16 c.toNat ++ "\x7d".toList
  else [c]

def quoted (cs : List Char) : List Char :=
  '"' :: (cs.flatMap quotedChar ++ ['"'])

end LayeredPreferences.Text
