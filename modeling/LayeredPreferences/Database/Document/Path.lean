import LayeredPreferences.Database.Document.Element
import LayeredPreferences.Database.Document.Escape

set_option autoImplicit false

/-!
# Paths in documents

A path leads from an element into what it holds, step by step: by the label of a member
or by a place in a list, which can be counted from the end. What is there can be
looked up, taken out or replaced, and what is not there can be put there.
-/
namespace LayeredPreferences.Database.Document

inductive PathFault where
  | nowhere
  | unreadable
  | damaged
deriving DecidableEq

def label? (path : List UInt8) : Option (List UInt8 × Bool × List UInt8) :=
  match path with
  | 0x22 :: rest =>
    let label := rest.takeWhile (· ≠ 0x22)
    match rest.drop label.length with
    | [] => none
    | _ :: tail => some (label, !label.contains 0x5c, tail)
  | _ =>
    let label := path.takeWhile fun b => b ≠ 0x2e && b ≠ 0x5b
    if label.isEmpty then none else some (label, true, path.drop label.length)

def pathNumber (digits : List UInt8) : Nat :=
  digits.foldl (fun n b => (10 * n + (b.toNat - 0x30)) % Nat.pow 2 32) 0

def placeAmong (count : Nat) (path : List UInt8) : Except PathFault (Nat × List UInt8) :=
  let closed (place : Nat) (path : List UInt8) : Except PathFault (Nat × List UInt8) :=
    match path with
    | 0x5d :: tail => .ok (place, tail)
    | _ => .error .unreadable
  let digits := path.takeWhile isDigit
  match path with
  | 0x23 :: 0x2d :: rest =>
    let digits := rest.takeWhile isDigit
    if digits.isEmpty then .error .unreadable
    else if count < pathNumber digits then .error .nowhere
    else closed (count - pathNumber digits) (rest.drop digits.length)
  | 0x23 :: rest => closed count rest
  | _ =>
    if digits.isEmpty then .error .unreadable
    else closed (pathNumber digits) (path.drop digits.length)

inductive MemberPlace where
  | member (label value : Nat)
  | finish (place : Nat)

def memberPlace (label : List UInt8) (isLiteral : Bool) (bytes : List UInt8) (place finish : Nat) :
    Nat → Except PathFault MemberPlace
  | 0 => .error .damaged
  | fuel + 1 => do
    if finish ≤ place then
      return ← if finish < place then throw .damaged else pure (.finish place)
    let here := bytes.drop place
    match kind? here, extent? here with
    | some kind, some extent =>
      let value := place + extent.total
      let valueHere := bytes.drop value
      if !kind.isText || finish ≤ value || (kind? valueHere).isNone then throw .damaged
      match extent? valueHere with
      | none => throw .damaged
      | some valueExtent =>
        let next := value + valueExtent.total
        if sameLabel isLiteral kind.isLiteral label ((here.drop extent.width).take extent.size) then
          if finish < next then throw .damaged
          return .member place value
        memberPlace label isLiteral bytes next finish fuel
    | _, _ => throw .damaged

/-- Where an element of a list is, among those between two places; where they end if so many come
    before it as there are. -/
def itemPlace (bytes : List UInt8) (place finish : Nat) :
    Nat → Nat → Except PathFault (Nat × Bool)
  | _, 0 => .error .damaged
  | index, fuel + 1 => do
    if finish ≤ place then
      if finish < place then throw .damaged
      if 0 < index then throw .nowhere
      return (place, false)
    match index with
    | 0 => return (place, true)
    | index + 1 =>
      match extent? (bytes.drop place) with
      | none => throw .damaged
      | some extent => itemPlace bytes (place + extent.total) finish index fuel

inductive Step where
  /-- With where the label is, if there is one. -/
  | found (start place : Nat)
  /-- Something can be put there, with this before it. -/
  | free (place : Nat) (label : List UInt8)

def step (bytes path : List UInt8) : Except PathFault (Step × List UInt8) := do
  let extent := extent bytes
  let finish := extent.total
  match path with
  | 0x2e :: path =>
    match label? path with
    | none => throw .unreadable
    | some (label, isLiteral, tail) =>
      if kind? bytes ≠ some .object then throw .nowhere
      match ← memberPlace label isLiteral bytes extent.width finish (finish + 1) with
      | .member start place => return (.found start place, tail)
      | .finish place =>
        return (.free place (element (if isLiteral then .raw else .wideText) label), tail)
  | 0x5b :: path =>
    if kind? bytes ≠ some .list then throw .nowhere
    let (index, tail) ← placeAmong (count bytes) path
    let (place, isThere) ← itemPlace bytes extent.width finish index (finish + 1)
    return (if isThere then .found place place else .free place [], tail)
  | _ => throw .unreadable

def find (bytes path : List UInt8) : Nat → Except PathFault (List UInt8)
  | 0 => .error .unreadable
  | fuel + 1 => do
    if path.isEmpty then return bytes
    match ← step bytes path with
    | (.found _ place, tail) => find (bytes.drop place) tail fuel
    | (.free _ _, _) => throw .nowhere

def find? (bytes path : List UInt8) : Except PathFault (List UInt8) :=
  find bytes path (path.length + 1)

/-! ## Changes -/

inductive Edit where
  | remove
  | replace (new : List UInt8)
  | insert (new : List UInt8)
  | put (new : List UInt8)

namespace Edit

def addition? : Edit → Option (List UInt8)
  | .insert new | .put new => some new
  | _ => none

def applied (edit : Edit) (bytes : List UInt8) : List UInt8 :=
  match edit with
  | .remove => after bytes
  | .insert _ => bytes
  | .replace new | .put new => new ++ after bytes

def isRemoval : Edit → Bool
  | .remove => true
  | _ => false

end Edit

def adjusted (old new : List UInt8) : List UInt8 :=
  if old.length = new.length then new
  else resized ((extent old).size + new.length - old.length) new

/-- A document after an edit where a path leads. What is put into nothing comes with the lists and
    objects that the path goes through. -/
def edited (edit : Edit) (bytes path : List UInt8) : Nat → Except PathFault (List UInt8)
  | 0 => .error .unreadable
  | fuel + 1 => do
    if path.isEmpty then return edit.applied bytes
    match ← step bytes path with
    | (.found start place, tail) =>
      let here := bytes.drop place
      if tail.isEmpty && edit.isRemoval then
        return adjusted bytes (bytes.take start ++ after here)
      return adjusted bytes (bytes.take place ++ (← edited edit here tail fuel))
    | (.free place label, tail) =>
      match edit.addition? with
      | none => throw .nowhere
      | some new =>
        let new ←
          if tail.isEmpty then pure new
          else
            let empty := element (if tail.head? = some 0x2e then .object else .list) []
            edited edit empty tail fuel
        return adjusted bytes (bytes.take place ++ label ++ new ++ bytes.drop place)

def edit (edit : Edit) (bytes path : List UInt8) : Except PathFault (List UInt8) :=
  edited edit bytes path (path.length + 1)

end LayeredPreferences.Database.Document
