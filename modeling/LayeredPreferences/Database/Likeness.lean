set_option autoImplicit false

/-!
# Likeness

A text is like a pattern if it has the characters of the pattern one after the
other. One sign of the pattern stands for any characters, and one for any single
character. Characters are numbers here, and zero ends a text.
-/
namespace LayeredPreferences.Database

/-- Signs with a meaning: an escape takes the meaning from what follows, and an opening bracket
    starts a set of characters. -/
structure LikenessSigns where
  many : Nat
  one : Option Nat
  escape : Option Nat
  hasSets : Bool
  isFolded : Bool

inductive Likeness where
  | like
  | unlike
  /-- Unlike, and so it is wherever the last sign for many characters had ended. -/
  | never
deriving DecidableEq

namespace LikenessSigns

def fold (n : Nat) : Nat := if 0x41 ≤ n ∧ n ≤ 0x5a then n + 0x20 else n

def same (signs : LikenessSigns) (a b : Nat) : Bool := a = b || signs.isFolded && fold a = fold b

/-- Whether a character is in the set at the front, and what follows the closing bracket. Two
    characters with a line between are a range. -/
def inSet (c : Nat) (isIn : Bool) (before : Option Nat) : List Nat → Option (Bool × List Nat)
  | [] => none
  | 0x5d :: rest => some (isIn, rest)
  | 0x2d :: last :: rest =>
    match before with
    | some first =>
      if last = 0x5d then inSet c (isIn || c = 0x2d) (some 0x2d) (last :: rest)
      else inSet c (isIn || first ≤ c && c ≤ last) none rest
    | none => inSet c (isIn || c = 0x2d) (some 0x2d) (last :: rest)
  | d :: rest => inSet c (isIn || c = d) (some d) rest

/-- A set that starts with a closing bracket has it. -/
def set (c : Nat) (pattern : List Nat) : Option (Bool × List Nat) :=
  let isNegated := pattern.head? = some 0x5e
  let pattern := if isNegated then pattern.drop 1 else pattern
  let hasBracket := pattern.head? = some 0x5d
  (inSet c (hasBracket && c = 0x5d) none (if hasBracket then pattern.drop 1 else pattern)).map
    fun found => (found.1 != isNegated, found.2)

/-- What is left of the pattern after signs for many characters, and of the text after a character
    for each sign for one of them. -/
def skipped (signs : LikenessSigns) : List Nat → List Nat → Option (List Nat × List Nat)
  | [], text => some ([], text)
  | p :: pattern, text =>
    if p = signs.many then skipped signs pattern text
    else if some p = signs.one then
      match text with
      | [] => none
      | _ :: text => skipped signs pattern text
    else some (p :: pattern, text)

def tails : List Nat → List (List Nat)
  | [] => []
  | c :: rest => (c :: rest) :: tails rest

def settled (outcomes : List Nat → Likeness) : List (List Nat) → Likeness
  | [] => .never
  | text :: texts =>
    match outcomes text with
    | .unlike => settled outcomes texts
    | outcome => outcome

/-- The fuel bounds the steps through the pattern. -/
def compare (signs : LikenessSigns) : Nat → List Nat → List Nat → Likeness
  | _, [], text => if text.isEmpty then .like else .unlike
  | 0, _, _ => .unlike
  | fuel + 1, p :: pattern, text =>
    if p = signs.many then
      match skipped signs pattern text with
      | none => .never
      | some ([], _) => .like
      | some (q :: rest, text) =>
        if signs.hasSets && q = 0x5b then
          settled (compare signs fuel (q :: rest)) (tails text)
        else
          match (if some q = signs.escape then rest else q :: rest) with
          | [] => .never
          | q :: rest =>
            settled (fun text => compare signs fuel rest (text.drop 1))
              ((tails text).filter fun text => text.head?.any (signs.same q))
    else if some p = signs.escape then
      match pattern, text with
      | q :: pattern, c :: text =>
        if signs.same q c then compare signs fuel pattern text else .unlike
      | _, _ => .unlike
    else match text with
      | [] => .unlike
      | c :: text =>
        if signs.hasSets && p = 0x5b then
          match set c pattern with
          | some (true, pattern) => compare signs fuel pattern text
          | _ => .unlike
        else if signs.same p c || some p = signs.one then compare signs fuel pattern text
        else .unlike

def isLike (signs : LikenessSigns) (pattern text : List Nat) : Bool :=
  compare signs (pattern.length + 1) pattern text = .like

end LikenessSigns

/-- Letters in both cases are the same. An escape that is a sign takes its meaning. -/
def wordSigns (escape : Option Nat) : LikenessSigns :=
  ⟨if escape = some 0x25 then 0 else 0x25, if escape = some 0x5f then none else some 0x5f, escape,
    false, true⟩

def fileSigns : LikenessSigns := ⟨0x2a, some 0x3f, none, true, false⟩

end LayeredPreferences.Database
