import LayeredPreferences.Database.Document.Notation

set_option autoImplicit false

/-!
# Documents as they are written

A text is read as one element. It is noted where a sign stood last that was not looked
for, or what is wrong, and whether the wide notation was used.
-/
namespace LayeredPreferences.Database.Document

structure Notes where
  place : Nat
  isWide : Bool

abbrev Reader := StateM Notes

inductive Found where
  | element (bytes : List UInt8) (next : Cursor)
  | sign (c : Cursor)
  | finish
  | failure

def Found.sign? : Found → Option (Cursor × Char)
  | .sign c => some (c, c.char 0)
  | _ => none

def stopAt (place : Nat) : Reader Unit := modify ({ · with place := place })

def widen (isWide : Bool) : Reader Unit :=
  modify fun notes => { notes with isWide := notes.isWide || isWide }

def failAt (place : Nat) : Reader Found := do
  stopAt place
  return .failure

def refuse (found : Found) (place : Nat) : Reader Found :=
  match found with
  | .failure => return .failure
  | _ => failAt place

/-! ## Single elements -/

def quoted (c : Cursor) (mark : UInt8) : Reader Found := do
  match quotation mark ⟨.plain, mark = 0x27, 0⟩ (c.place + 1) (c.rest.drop 1) c.rest.length with
  | .error place => failAt place
  | .ok piece =>
    widen piece.isWide
    return .element (element piece.kind ((c.rest.drop 1).take piece.length))
      (c.drop (piece.length + 2))

/-- A sign before a number is left out if it is a plus. -/
def numeral (c : Cursor) : Reader Found := do
  let isPlus : Bool := c.char 0 = '+'
  match signedInfinity? c, number c with
  | some (bytes, length), _ =>
    widen true
    return .element bytes (c.drop length)
  | none, .error place => failAt place
  | none, .ok (kind, finish) =>
    widen (isPlus || kind = .wideWhole || kind = .wideReal)
    let digits := c.rest.take (finish - c.place)
    return .element (element kind (digits.drop isPlus.toNat)) (c.drop digits.length)

def word (c : Cursor) : Reader Found := do
  match word? c.rest with
  | some (word, bytes, isWide) =>
    widen isWide
    return .element bytes (c.drop word.length)
  | none => failAt c.place

/-! ## Lists and objects -/

def signAfter? (separator closing : Char) (c : Cursor) : Option Cursor :=
  [c, c.afterBlanks].find? fun c => c.char 0 = separator || c.char 0 = closing

/-- What follows an element: the next sign of two, or what is found where reading goes on. -/
def stopAfter (separator closing : Char) (next : Cursor) (more : Reader Found) : Reader Found :=
  match signAfter? separator closing next with
  | some stop => return .sign stop
  | none => more

def label (found : Found) (c : Cursor) : Reader Found :=
  match found with
  | .element bytes next =>
    if (kind? bytes).any Kind.isText then return .element bytes next else failAt c.place
  | found => do
    let c := c.drop c.gap
    match name? c.rest with
    | some piece =>
      widen true
      return .element (element piece.kind (c.rest.take piece.length)) (c.drop piece.length)
    | none => refuse found c.place

mutual

def read (level : Nat) (c : Cursor) : Nat → Reader Found
  | 0 => return .failure
  | fuel + 1 => do
    let c := c.afterBlanks
    widen (c.gap ≠ 0)
    let c := c.drop c.gap
    let first := c.char 0
    if c.rest.isEmpty then return .finish
    else if ['\x7d', ']', ',', ':'].contains first then
      stopAt c.place
      return .sign c
    else if first = '\x7b' ∨ first = '[' then
      if mostLevels ≤ level then failAt c.place
      else if first = '[' then items (level + 1) [] (c.drop 1) fuel
      else members (level + 1) [] (c.drop 1) fuel
    else if first = '"' ∨ first = '\'' then quoted c (if first = '"' then 0x22 else 0x27)
    else if first.isDigit ∨ ['+', '-', '.'].contains first then numeral c
    else word c

def items (level : Nat) (done : List (List UInt8)) (c : Cursor) : Nat → Reader Found
  | 0 => return .failure
  | fuel + 1 => do
    let list (done : List (List UInt8)) (last : Cursor) : Found :=
      .element (element .list done.reverse.flatten) (last.drop 1)
    match ← read level c fuel with
    | .element bytes next =>
      match (← stopAfter ',' ']' next (read level next.afterBlanks fuel)).sign? with
      | some (stop, ',') => items level (bytes :: done) (stop.drop 1) fuel
      | some (stop, ']') => return list (bytes :: done) stop
      | _ => failAt next.afterBlanks.place
    | .sign stop =>
      if stop.char 0 = ']' then
        widen !done.isEmpty
        return list done stop
      else failAt c.place
    | found => refuse found c.place

def members (level : Nat) (done : List (List UInt8)) (c : Cursor) : Nat → Reader Found
  | 0 => return .failure
  | fuel + 1 => do
    let object (done : List (List UInt8)) (last : Cursor) : Found :=
      .element (element .object done.reverse.flatten) (last.drop 1)
    let found ← read level c fuel
    match found.sign? with
    | some (stop, '\x7d') =>
      widen !done.isEmpty
      return object done stop
    | _ =>
      match ← label found c with
      | .element name next =>
        let found ← stopAfter ':' ':' next (read level next.afterBlanks fuel)
        match found.sign? with
        | some (colon, ':') =>
          match ← read level (colon.drop 1) fuel with
          | .element bytes next =>
            let done := bytes :: name :: done
            match (← stopAfter ',' '\x7d' next (read level next.afterBlanks fuel)).sign? with
            | some (stop, ',') => members level done (stop.drop 1) fuel
            | some (stop, '\x7d') => return object done stop
            | _ => failAt next.afterBlanks.place
          | found => refuse found (colon.place + 1)
        | _ => refuse found next.afterBlanks.place
      | found => return found

end

/-- The element that a text is, and whether it is in the wide notation; or where reading stopped.
    Blanks of the wide notation can follow. -/
def ofText (bytes : List UInt8) : Except Nat (List UInt8 × Bool) :=
  let (found, notes) := (read 0 ⟨0, bytes⟩ (4 * bytes.length + 8)).run ⟨0, false⟩
  match found with
  | .element found next =>
    let rest := next.afterBlanks
    if rest.rest.isEmpty then .ok (found, notes.isWide)
    else if rest.gap = rest.rest.length then .ok (found, true)
    else .error notes.place
  | _ => .error notes.place

end LayeredPreferences.Database.Document
