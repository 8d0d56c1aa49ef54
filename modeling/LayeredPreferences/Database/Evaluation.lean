import LayeredPreferences.Database.Call
import LayeredPreferences.Database.Operand

set_option autoImplicit false

/-!
# Values of expressions

What is computed from the columns of a row. Each part is worked out both as a content
and as a condition: conditions leave out what no longer tells, and so do choices. What
is left out cannot fail.
-/
namespace LayeredPreferences.Database

abbrev Outcome (α : Type) := Except DatabaseFault α

structure Worked where
  traits : Traits
  isConstant : Bool
  /-- What it is as a condition, if that can be seen without working it out. -/
  always : Option Bool
  members : List Worked
  content : Outcome Content
  /-- Whether it holds as a condition; what is unknown counts as is said. -/
  holds : Bool → Outcome Bool

namespace Worked

def operand (x : Worked) : Outcome Operand := return ⟨x.traits, (← x.content).cell⟩

def settle (x : Worked) : Outcome Unit :=
  if x.members.isEmpty then x.content.map fun _ => ()
  else x.members.forM fun member => member.content.map fun _ => ()

end Worked

namespace Operation

variable (encoding : Encoding)

def truth? (cell : Cell) : Option Bool := cell.isTrue? encoding

/-! ## Comparisons -/

def comparedOne (operator : String) (a b : Worked) : Outcome Cell := do
  return compared operator encoding (← a.operand) (← b.operand)

/-- Rows are equal if all their parts are. The first part that differs decides. -/
def equalRows (operator : String) : List (Worked × Worked) → Outcome (Option Bool)
  | [] => return some true
  | (a, b) :: rest => do
    let here := truth? encoding (← comparedOne encoding operator a b)
    if here = some false then return some false
    else return logical false here (← equalRows operator rest)

/-- Rows are in the order of the first parts that differ. -/
def orderedRows (operator : String) : List (Worked × Worked) → Outcome (Option Bool)
  | [] => return none
  | [(a, b)] => return truth? encoding (← comparedOne encoding operator a b)
  | (a, b) :: rest => do
    let strict := if operator.startsWith "<" then "<" else ">"
    let here := truth? encoding (← comparedOne encoding strict a b)
    if here ≠ some false then return here
    else if truth? encoding (← comparedOne encoding "=" a b) = some true then
      orderedRows operator rest
    else return some false

def comparedBoth (operator : String) (a b : Worked) : Outcome (Option Bool) :=
  let pairs := a.members.zip b.members
  if pairs.isEmpty then return truth? encoding (← comparedOne encoding operator a b)
  else match operator with
    | "=" | "==" => equalRows encoding "=" pairs
    | "is" => equalRows encoding "is" pairs
    | "<>" | "!=" => return (← equalRows encoding "=" pairs).map (!·)
    | "isnot" => return (← equalRows encoding "is" pairs).map (!·)
    | operator => orderedRows encoding operator pairs

def isComparing (operator : String) : Bool := (Operation.binary operator).isComparison

/-! ## Lists -/

/-- Members are compared one by one with what is looked for, as that is compared. -/
def amongAny (a : Operand) (known : Option Bool) : List Worked → Outcome (Option Bool)
  | [] => return known
  | x :: rest => do
    let b := (← x.content).cell
    let affinity := a.traits.affinity.getD .any
    let isSame := order encoding affinity a.traits.collation a.cell b = .eq
    if a.cell = .null ∨ b = .null then amongAny a none rest
    else if isSame then return some true
    else amongAny a known rest

/-- A long list of constants is made ready before: its members become what is liked. -/
def amongConstants (a : Worked) (list : List Worked) : Outcome (Option Bool) := do
  let affinity := match a.traits.affinity with
    | some .real => .numeric
    | affinity => affinity.getD .any
  let members ← list.mapM fun x => return (← x.content).cell.adapted encoding affinity
  let cell := (← a.content).cell.adapted encoding affinity
  if cell = .null then return none
  else if members.any fun b => cell.order encoding a.traits.collation b = .eq then return some true
  else return if members.contains .null then none else some false

def amongAll (a : Worked) (list : List Worked) : Outcome (Option Bool) := do
  if 2 < list.length && list.all Worked.isConstant then amongConstants encoding a list
  else amongAny encoding (← a.operand) (some false) list

/-! ## Choices -/

def branch (holds : Worked → Outcome Bool) (otherwise : Outcome Content) :
    List Worked → Outcome Content
  | condition :: result :: rest => do
    if ← holds condition then result.content else branch holds otherwise rest
  | _ => otherwise

def chosen (hasSubject hasOtherwise : Bool) (parts : List Worked) : Outcome Content := do
  let rest := if hasSubject then parts.drop 1 else parts
  let otherwise := (if hasOtherwise then rest.getLast?.map Worked.content else none).getD
    (.ok .null)
  let branches := if hasOtherwise then rest.dropLast else rest
  match if hasSubject then parts.head? else none with
  | none => branch (fun condition => condition.holds false) otherwise branches
  | some subject =>
    subject.settle
    let isSame (condition : Worked) : Outcome Bool :=
      return (← comparedBoth encoding "=" subject condition) = some true
    branch isSame otherwise branches

def firstKnown : List Worked → Outcome Content
  | [] => return .null
  | [x] => x.content
  | x :: rest => do
    let content ← x.content
    if content.cell = .null then firstKnown rest else return content

def called (name : String) (parts : List Worked) : Outcome Content :=
  match name, parts with
  | "coalesce", parts | "ifnull", parts => firstKnown parts
  | "iif", parts => chosen encoding false true parts
  | "likely", x :: _ | "unlikely", x :: _ | "likelihood", x :: _ => x.content
  | name, parts => do
    let contents ← parts.mapM Worked.content
    let collation := parts.findSome? fun x => x.traits.asked <|> x.traits.own
    (Function.called encoding (collation.getD "binary") name contents).mapError .inFunction

/-! ## Contents -/

def negatedIf (isNegated : Bool) (truth : Option Bool) : Option Bool :=
  if isNegated then truth.map (!·) else truth

def worked (operation : Operation) (parts : List Worked) : Outcome Content :=
  let ofTruth (truth : Outcome (Option Bool)) : Outcome Content :=
    return .ofCell (ofTruth? (← truth))
  match operation, parts with
  | .unary "+", [a] | .collate _, [a] => a.content
  | .unary name, [a] => return .ofCell (ofOne name encoding (← a.content).cell)
  | .binary name, [a, b] =>
    if isComparing name then ofTruth (comparedBoth encoding name a b)
    else do return .ofCell (← ofTwo name encoding (← a.operand) (← b.operand))
  | .call name _, parts => called encoding name.toLower parts
  | .cast type, [a] => return casted encoding type (← a.content)
  | .test truth isNegated, a :: _ => do
    let isSuch : Bool := truth? encoding (← a.content).cell = some truth
    return .ofCell (.ofBool (isSuch != isNegated))
  | .between isNegated, [a, low, high] => ofTruth do
    a.settle
    let atLeast ← comparedBoth encoding ">=" a low
    return negatedIf isNegated (logical false atLeast (← comparedBoth encoding "<=" a high))
  | .among isNegated, a :: list => ofTruth do
    return negatedIf isNegated (← amongAll encoding a list)
  | .cases hasSubject hasOtherwise, parts => chosen encoding hasSubject hasOtherwise parts
  | _, _ => return .null

/-! ## Conditions -/

/-- The side that is left if one side always holds or never does. -/
def simplified? (isAnd : Bool) (a b : Worked) : Option Worked :=
  if a.always = some true ∨ b.always = some false then some (if isAnd then b else a)
  else if b.always = some true ∨ a.always = some false then some (if isAnd then a else b)
  else none

/-- The second side only tells if the first one does not. -/
def both (isAnd : Bool) (a b : Worked) (unknown : Bool) : Outcome Bool :=
  match simplified? isAnd a b with
  | some x => x.holds unknown
  | none => do
    let here ← a.holds unknown
    if here = isAnd then b.holds unknown else return here

def condition (operation : Operation) (parts : List Worked) (unknown : Bool) : Outcome Bool :=
  match operation, parts with
  | .binary "and", [a, b] => both true a b unknown
  | .binary "or", [a, b] => both false a b unknown
  | .unary "not", [a] => return !(← a.holds (!unknown))
  | .test truth isNegated, a :: _ => return ((← a.holds (!truth)) = truth) != isNegated
  | .between isNegated, [a, low, high] => do
    a.settle
    let unknown := unknown != isNegated
    let side (operator : String) (b : Worked) : Outcome Bool :=
      return (← comparedBoth encoding operator a b).getD unknown
    let isWithin ← if ← side ">=" low then side "<=" high else pure false
    return isWithin != isNegated
  | operation, parts => do
    return (truth? encoding (← worked encoding operation parts).cell).getD unknown

def always (operation : Operation) (parts : List Worked) : Option Bool :=
  match operation, parts with
  | .binary "and", [a, b] => (simplified? true a b).bind Worked.always
  | .binary "or", [a, b] => (simplified? false a b).bind Worked.always
  | _, _ => none

end Operation

structure Source where
  encoding : Encoding
  content : String → Option (Outcome Content)
  affinity : String → Option Affinity
  collation : String → Option String

namespace Source

def traits (source : Source) (x : Expression) : Traits :=
  ⟨x.affinity source.affinity, x.asked, x.collation source.collation⟩

def single (source : Source) (x : Expression) (isConstant : Bool) (always : Option Bool)
    (content : Outcome Content) : Worked where
  traits := source.traits x
  isConstant := isConstant
  always := always
  members := []
  content := content
  holds unknown := return ((← content).cell.isTrue? source.encoding).getD unknown

def isColumn (source : Source) (name : String) : Bool := (source.content name).isSome

/-- A content that is written in the expression. Truth is known as a condition. -/
def literal (source : Source) (x : Expression) (cell : Cell) : Worked :=
  source.single x true (x.truth? source.isColumn) (.ok (.ofCell (cell.encoded source.encoding)))

/-- Small numbers without a sign are known as conditions. -/
def number (source : Source) (x : Expression) (isNegative : Bool) (digits : String) : Worked :=
  let always := if isNegative then none else (Literal.small? digits).map fun n => decide (n ≠ 0)
  source.single x true always (.ok (.ofCell (Literal.cell isNegative digits)))

end Source

namespace Expression

mutual

def worked (source : Source) (x : Expression) : Worked :=
  match x with
  | .content cell => source.literal x cell
  | .number digits => source.number x false digits
  | .node (.unary "-") [.number digits] => source.number x true digits
  | .truth holds => source.literal x (.ofBool holds)
  | .column _ name mark =>
    match source.content name with
    | some found => source.single x false none found
    | none => source.literal x ((ofName? name mark).getD .null)
  | .variable | .query | .failure => source.single x true none (.ok .null)
  | .node operation list =>
    let parts := workedAll source list
    let operation := operation.settled source.isColumn list
    { traits := source.traits x
      isConstant := parts.all Worked.isConstant
      always := operation.always parts
      members := if operation = .row then parts else []
      content := operation.worked source.encoding parts
      holds := operation.condition source.encoding parts }

def workedAll (source : Source) : List Expression → List Worked
  | [] => []
  | x :: rest => x.worked source :: workedAll source rest

end

def eval (source : Source) (x : Expression) : Outcome Content := (x.worked source).content

end Expression

end LayeredPreferences.Database
