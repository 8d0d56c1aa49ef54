import LayeredPreferences.Number.Notation

set_option autoImplicit false

/-!
# Writing JSON

Compact text: nothing stands between the tokens.
-/
namespace LayeredPreferences.Json

def nullWord : List Char := ['n', 'u', 'l', 'l']

def trueWord : List Char := ['t', 'r', 'u', 'e']

def falseWord : List Char := ['f', 'a', 'l', 's', 'e']

/-- Numbers with a fraction always show a point or an exponent; values that are no numbers are
    written as `null`. -/
def realNotation : Notation where
  half := .even
  inPlace e := -5 ≤ e && e ≤ 15
  whole := ['.', '0']
  infinite _ := nullWord
  notANumber := nullWord

def writeReal (x : Binary64) : List Char := realNotation.write x

def writeInteger : Int → List Char
  | .ofNat n => Nat.toDigits 10 n
  | .negSucc n => '-' :: Nat.toDigits 10 (n + 1)

def writeBool : Bool → List Char
  | true => trueWord
  | false => falseWord

/-- Quotation marks, backslashes and the characters below the space are escaped. -/
def writeChar (c : Char) : List Char :=
  if c = '"' then ['\\', '"']
  else if c = '\\' then ['\\', '\\']
  else if c = '\x08' then ['\\', 'b']
  else if c = '\x0c' then ['\\', 'f']
  else if c = '\n' then ['\\', 'n']
  else if c = '\r' then ['\\', 'r']
  else if c = '\t' then ['\\', 't']
  else if c.toNat < 0x20 then
    ['\\', 'u', '0', '0', Nat.digitChar (c.toNat / 16), Nat.digitChar (c.toNat % 16)]
  else [c]

def writeString (s : String) : List Char :=
  '"' :: (s.toList.flatMap writeChar ++ ['"'])

def separated : List (List Char) → List Char
  | [] => []
  | [item] => item
  | item :: rest => item ++ ',' :: separated rest

def writeList (items : List (List Char)) : List Char :=
  '[' :: (separated items ++ [']'])

def writeMember (name : String) (value : List Char) : List Char :=
  writeString name ++ ':' :: value

def writeObject (members : List (String × List Char)) : List Char :=
  '{' :: (separated (members.map fun m => writeMember m.1 m.2) ++ ['}'])

end LayeredPreferences.Json
