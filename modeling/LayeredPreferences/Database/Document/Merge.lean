import LayeredPreferences.Database.Document.Path

set_option autoImplicit false

/-!
# Merging documents

An object is merged into another member by member. Nothing takes a member away, and what
is no object takes the place of what was there.
-/
namespace LayeredPreferences.Database.Document

def members? (bytes : List UInt8) : Nat → Option (List (List UInt8 × List UInt8))
  | 0 => none
  | fuel + 1 => do
    if bytes.isEmpty then return []
    let kind ← kind? bytes
    let label ← extent? bytes
    let rest := bytes.drop label.total
    let value ← extent? rest
    if !kind.isText then none
    else return (bytes.take label.total, rest.take value.total)
      :: (← members? (rest.drop value.total) fuel)

def isNull (bytes : List UInt8) : Bool := kind? bytes = some .null

def isSame (a b : List UInt8) : Bool :=
  sameLabel ((kind? a).any Kind.isLiteral) ((kind? b).any Kind.isLiteral) (contents a) (contents b)

def split? (label bytes : List UInt8) : Nat →
    Option (Option (List UInt8 × List UInt8 × List UInt8 × List UInt8))
  | 0 => none
  | fuel + 1 => do
    if bytes.isEmpty then return none
    let kind ← kind? bytes
    let extent ← extent? bytes
    let own := bytes.take extent.total
    let rest := bytes.drop extent.total
    let value ← extent? rest
    let next := rest.drop value.total
    if !kind.isText then none
    else if isSame label own then return some ([], own, rest.take value.total, next)
    else return (← split? label next fuel).map fun (before, found) =>
      (own ++ rest.take value.total ++ before, found)

/-- An element in which an object is merged, with the header of an object. There is none if one of
    the two is not well formed. -/
def merged? (target patch : List UInt8) : Nat → Option (List UInt8)
  | 0 => none
  | fuel + 1 =>
    if kind? patch ≠ some .object then some patch
    else
      let isObject := kind? target = some .object
      let extent := extent target
      let start := match target.take extent.width with
        | b :: rest => (b - b % 16 + Kind.object.code) :: rest
        | [] => []
      let old := if isObject then contents target else []
      let merge (known : Option (List UInt8)) (member : List UInt8 × List UInt8) :
          Option (List UInt8) := do
        let known ← known
        let (label, value) := member
        match ← split? label known (known.length + 1) with
        | some (before, own, was, next) =>
          if isNull value then return before ++ next
          else return before ++ own ++ (← merged? was value fuel) ++ next
        | none =>
          if isNull value then return known
          else return known ++ label ++ (← merged? [0] value fuel)
      match members? (contents patch) (patch.length + 1) with
      | none => none
      | some members =>
        (members.foldl merge (some old)).map fun new =>
          if new.length = extent.size then start ++ new else resized new.length start ++ new

def merge? (target patch : List UInt8) : Option (List UInt8) :=
  merged? target patch (patch.length + 1)

end LayeredPreferences.Database.Document
