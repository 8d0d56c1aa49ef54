import LayeredPreferences.Database.Function
import LayeredPreferences.Database.Operand

set_option autoImplicit false

/-!
# Expressions that have no value

Why nothing can be computed from an expression, whatever the row is. Parts are looked at
in the order in which they would be worked out, and of several reasons the last one is
told.
-/
namespace LayeredPreferences.Database

structure Checked where
  traits : Traits
  isConstant : Bool
  always : Option Bool
  members : List Checked
  fault : Option DatabaseFault
  conditionFault : Option DatabaseFault

namespace Checked

def lastOf (faults : List (Option DatabaseFault)) : Option DatabaseFault :=
  faults.reverse.findSome? id

def unknownCollation? (name : String) : Option DatabaseFault :=
  if name.toLower ∈ Collation.all then none else some (.noCollation name)

/-- What is worked out before others of its kind are compared with it. -/
def settled (x : Checked) : Option DatabaseFault :=
  if x.members.isEmpty then x.fault else lastOf (x.members.map Checked.fault)

/-- What is compared is a single content, or a row of the same width. -/
def pairs (a b : Checked) : List (Checked × Checked) :=
  let members := a.members.zip b.members
  if members.isEmpty then [(a, b)] else members

def collationFault (a b : Checked) : Option DatabaseFault :=
  unknownCollation? (a.traits.commonCollation b.traits)

def comparedWith (a b : Checked) : Option DatabaseFault :=
  lastOf ((a.pairs b).flatMap fun (a, b) => [b.fault, a.collationFault b])

def compared (a b : Checked) : Option DatabaseFault :=
  lastOf ((a.pairs b).flatMap fun (a, b) => [a.fault, b.fault, a.collationFault b])

def among (a : Checked) (list : List Checked) : Option DatabaseFault :=
  let collation := unknownCollation? a.traits.collation
  if 2 < list.length && list.all Checked.isConstant then
    lastOf (collation :: list.map Checked.fault ++ [a.fault])
  else lastOf (a.fault :: collation :: list.map Checked.fault)

def branches (condition : Checked → Option DatabaseFault) :
    List Checked → List (Option DatabaseFault)
  | x :: result :: rest => condition x :: result.fault :: branches condition rest
  | rest => rest.map Checked.fault

def chosen (hasSubject : Bool) (parts : List Checked) : Option DatabaseFault :=
  match hasSubject, parts with
  | true, subject :: rest => lastOf (subject.settled :: branches subject.comparedWith rest)
  | _, parts => lastOf (branches Checked.conditionFault parts)

/-- Functions that compare have the first collation that one of their contents brings. -/
def call (name : String) (parts : List Checked) : Option DatabaseFault :=
  let faults := parts.map Checked.fault
  if !Function.isKnown name then some (.unknownFunction name)
  else match name.toLower with
    | "iif" => chosen false parts
    | "likely" | "unlikely" | "likelihood" => lastOf (faults.take 1)
    | "min" | "max" | "nullif" =>
      let collation := parts.findSome? fun x => x.traits.asked <|> x.traits.own
      lastOf (collation.bind unknownCollation? :: faults)
    | _ => lastOf faults

def simplified? (isAnd : Bool) (a b : Checked) : Option Checked :=
  if a.always = some true ∨ b.always = some false then some (if isAnd then b else a)
  else if b.always = some true ∨ a.always = some false then some (if isAnd then a else b)
  else none

def ofOperation (operation : Operation) (parts : List Checked) : Option DatabaseFault :=
  match operation, parts with
  | .row, _ => some .rowMisused
  | .binary name, [a, b] =>
    if (Operation.binary name).isComparison then compared a b else lastOf [a.fault, b.fault]
  | .between _, [a, low, high] => lastOf [a.settled, a.comparedWith low, a.comparedWith high]
  | .among _, a :: list => among a list
  | .cases hasSubject _, parts => chosen hasSubject parts
  | .call name _, parts => call name parts
  | _, parts => lastOf (parts.map Checked.fault)

/-- What is left out of a condition is not looked at. -/
def ofCondition (operation : Operation) (parts : List Checked) : Option DatabaseFault :=
  let both (isAnd : Bool) (a b : Checked) : Option DatabaseFault :=
    match simplified? isAnd a b with
    | some x => x.conditionFault
    | none => lastOf [a.conditionFault, b.conditionFault]
  match operation, parts with
  | .binary "and", [a, b] => both true a b
  | .binary "or", [a, b] => both false a b
  | .unary "not", [a] | .test _ _, a :: _ => a.conditionFault
  | operation, parts => ofOperation operation parts

def alwaysOf (operation : Operation) (parts : List Checked) : Option Bool :=
  match operation, parts with
  | .binary "and", [a, b] => (simplified? true a b).bind Checked.always
  | .binary "or", [a, b] => (simplified? false a b).bind Checked.always
  | _, _ => none

end Checked

structure Surroundings where
  has : String → Bool
  fault : String → Option DatabaseFault
  affinity : String → Option Affinity
  collation : String → Option String

namespace Expression

def checkedSingle (s : Surroundings) (x : Expression) (isConstant : Bool) (always : Option Bool)
    (fault : Option DatabaseFault) : Checked :=
  ⟨⟨x.affinity s.affinity, x.asked, x.collation s.collation⟩, isConstant, always, [], fault, fault⟩

def checkedNumber (s : Surroundings) (x : Expression) (isNegative : Bool) (digits : String) :
    Checked :=
  let always := if isNegative then none else (Literal.small? digits).map fun n => decide (n ≠ 0)
  let fault :=
    if Literal.isUnusable isNegative digits then
      some (.tooLongNumber ((if isNegative then "-" else "") ++ digits))
    else none
  checkedSingle s x true always fault

mutual

def checked (s : Surroundings) (x : Expression) : Checked :=
  match x with
  | .number digits => checkedNumber s x false digits
  | .node (.unary "-") [.number digits] => checkedNumber s x true digits
  | .truth holds => checkedSingle s x true (some holds) none
  | .column _ name _ =>
    if s.has name then checkedSingle s x false none (s.fault name)
    else checkedSingle s x true (x.truth? s.has) none
  | .failure => checkedSingle s x true none (some .raiseOutside)
  | .content _ | .variable | .query => checkedSingle s x true none none
  | .node operation list =>
    let parts := checkedAll s list
    let operation := operation.settled s.has list
    { traits := ⟨x.affinity s.affinity, x.asked, x.collation s.collation⟩
      isConstant := parts.all Checked.isConstant
      always := Checked.alwaysOf operation parts
      members := if operation = .row then parts else []
      fault := Checked.ofOperation operation parts
      conditionFault := Checked.ofCondition operation parts }

def checkedAll (s : Surroundings) : List Expression → List Checked
  | [] => []
  | x :: rest => x.checked s :: checkedAll s rest

end

def fault? (s : Surroundings) (x : Expression) : Option DatabaseFault := (x.checked s).fault

end Expression

end LayeredPreferences.Database
