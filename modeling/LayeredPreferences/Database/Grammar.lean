import LayeredPreferences.Database.Token

set_option autoImplicit false

/-!
# Reading statements

A phrase takes the tokens it is made of from the front, or refuses the first one
that does not fit. What is wrong with the meaning of a phrase is a complaint: it
counts if the next token fits, and is forgotten otherwise.
-/
namespace LayeredPreferences.Database

inductive StatementFault where
  | unexpected (token : Token)
  | unfinished
  /-- What it says of itself is not what is said elsewhere. -/
  | unlike
  | meaningless (reason : String)
deriving DecidableEq

def StatementFault.message? : StatementFault → Option String
  | .unexpected token =>
    some (if token.kind = .illegal then "unrecognized token: \"" ++ token.raw ++ "\""
      else "near \"" ++ token.raw ++ "\": syntax error")
  | .unfinished => some "incomplete input"
  | .unlike => none
  | .meaningless reason => some reason

structure Reading where
  tokens : List Token
  complaint : Option StatementFault
  /-- The first other database that is named as one to read from. -/
  otherDatabase : Option String

def Reading.ofBytes (bytes : List UInt8) : Reading := ⟨Token.list bytes, none, none⟩

abbrev Phrase (α : Type) := StateT Reading (Except StatementFault) α

namespace Phrase

def refuse {α : Type} : Phrase α := fun r =>
  .error (match r.tokens with
    | [] => .unfinished
    | token :: _ => .unexpected token)

def complain (fault : StatementFault) : Phrase Unit := modify ({ · with complaint := some fault })

def wrong (reason : String) : Phrase Unit := complain (.meaningless reason)

def settle : Phrase Unit := fun r =>
  match r.complaint with
  | some fault => .error fault
  | none => .ok ((), r)

def next? : Phrase (Option Token) := fun r => .ok (r.tokens.head?, r)

def sees (p : Token → Bool) : Phrase Bool := fun r => .ok (r.tokens.head?.any p, r)

def seesSecond (p : Token → Bool) : Phrase Bool := fun r => .ok ((r.tokens.drop 1).head?.any p, r)

def skip : Phrase Unit := do
  if ← sees (·.kind = .illegal) then refuse
  settle
  modify fun r => { r with tokens := r.tokens.tail }

def accept (p : Token → Bool) : Phrase Bool := do
  let isSuch ← sees p
  if isSuch then skip
  return isSuch

def expect (p : Token → Bool) : Phrase Token := do
  match ← next? with
  | some token => if p token then do skip; return token else refuse
  | none => refuse

def seesWord (word : String) : Phrase Bool := sees (Token.isWord word)

def seesSign (sign : String) : Phrase Bool := sees (Token.isSign sign)

def acceptWord (word : String) : Phrase Bool := accept (Token.isWord word)

def acceptSign (sign : String) : Phrase Bool := accept (Token.isSign sign)

def words (list : List String) : Phrase Unit := list.forM fun word => do
  let _ ← expect (Token.isWord word)

def sign (sign : String) : Phrase Unit := do
  let _ ← expect (Token.isSign sign)

def name : Phrase String := return (← expect Token.isName).value

def isOneOf (words : List String) (token : Token) : Bool := words.any (token.isWord ·)

def oneOf (list : List String) : Phrase Unit := do
  let _ ← expect (isOneOf list)

def length : Phrase Nat := return (← get).tokens.length

def growing {α : Type} (step : α → Phrase (Option α)) (x : α) : Nat → Phrase α
  | 0 => return x
  | fuel + 1 => do
    match ← step x with
    | some y => growing step y fuel
    | none => return x

def grow {α : Type} (step : α → Phrase (Option α)) (x : α) : Phrase α := do
  growing step x (← length)

def repeated {α : Type} (item : Phrase (Option α)) : Phrase (List α) := do
  let list ← grow (fun xs => return (← item).map (· :: xs)) []
  return list.reverse

def takeWhile (p : Token → Bool) : Phrase (List Token) :=
  repeated do
    if ← sees p then return some (← expect p)
    return none

def separated {α : Type} (item : Phrase α) : Phrase (List α) := do
  let x ← item
  return x :: (← repeated do
    if ← acceptSign "," then return some (← item)
    return none)

def bracketed {α : Type} (inner : Phrase α) : Phrase α := do
  sign "("
  let x ← inner
  sign ")"
  return x

/-- Whatever stands in brackets that have been opened, with brackets in it. -/
def skipBrackets (depth : Nat) : Nat → Phrase Unit
  | 0 => refuse
  | fuel + 1 => do
    let token ← expect fun _ => true
    if token.isSign "(" then skipBrackets (depth + 1) fuel
    else if token.isSign ")" then
      match depth with
      | 0 => return
      | depth + 1 => skipBrackets depth fuel
    else skipBrackets depth fuel

/-- The end of a statement, whatever was complained about. Nothing is looked at after it. -/
def ending : Phrase Unit := do
  if (← next?).isSome && !(← seesSign ";") then refuse

def finish : Phrase Unit := do
  ending
  settle

end Phrase

end LayeredPreferences.Database
