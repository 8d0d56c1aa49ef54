import LayeredPreferences.Database.Expression

set_option autoImplicit false

/-!
# Expressions and queries as they are written

Operators bind as strongly as their rank tells, and those of one rank to the left.
A query is only read, since none is asked here.
-/
namespace LayeredPreferences.Database

namespace Phrase

/-- The phrases that others have inside. -/
structure Inner where
  expression : Nat → Phrase Expression
  query : Phrase Unit

def startsQuery : Phrase Bool := sees (isOneOf ["select", "values", "with"])

/-! ## Names and types -/

def pathName : Phrase String := do
  let first ← name
  if ← acceptSign "." then name else return first

def sourceName : Phrase Unit := do
  let first ← name
  if ← acceptSign "." then
    let _ ← name
    if first.toLower ≠ "main" then
      modify fun r => { r with otherDatabase := r.otherDatabase <|> some first }

def names : Phrase (List String) := separated name

def signedNumber : Phrase String := do
  let sign ← next?
  if !(← acceptSign "-") then
    let _ ← acceptSign "+"
  let number ← expect fun t => t.kind = .number && !t.raw.toList.contains '_'
  return if sign.any (Token.isSign "-") then "-" ++ number.raw else number.raw

/-- The name of a type: words, then perhaps sizes in brackets. A word alone can be in marks. -/
def type : Phrase String := do
  let words ← takeWhile Token.isPlainName
  let count := words.length
  let isGenerated := 2 < count + 1
    && (words.drop (count - 2)).map (·.raw.toLower) = ["generated", "always"]
  let words := if isGenerated then words.take (count - 2) else words
  if words.isEmpty then return ""
  if ← acceptSign "(" then
    let size ← signedNumber
    let more ← if ← acceptSign "," then (fun n => "," ++ n) <$> signedNumber else pure ""
    sign ")"
    return " ".intercalate (words.map Token.raw) ++ "(" ++ size ++ more ++ ")"
  match words with
  | [word] => return word.value
  | _ => return " ".intercalate (words.map Token.raw)

structure Term where
  expression : Expression
  isDescending : Bool
  nulls : Option String

def order (inner : Inner) : Phrase Term := do
  let x ← inner.expression 0
  let isDescending ← if ← acceptWord "asc" then pure false else acceptWord "desc"
  if ← acceptWord "nulls" then
    let place ← expect (isOneOf ["first", "last"])
    return ⟨x, isDescending, some place.raw.toUpper⟩
  return ⟨x, isDescending, none⟩

def orders (inner : Inner) : Phrase Unit := do
  words ["order", "by"]
  let _ ← separated (order inner)

def list (inner : Inner) : Phrase (List Expression) := separated (inner.expression 0)

abbrev mostLevels : Nat := 1000

def node (operation : Operation) (parts : List Expression) : Phrase Expression := do
  let x : Expression := .node operation parts
  if mostLevels < x.height then
    wrong s!"Expression tree is too large (maximum depth {mostLevels})"
  return x

def arguments (inner : Inner) : Phrase (List Expression) := do
  sign "("
  if ← acceptSign ")" then return []
  let list ← list inner
  sign ")"
  return list

/-! ## Functions -/

inductive Bound where
  | first
  | before
  | current
  | after
  | last

def bound (inner : Inner) (isStart : Bool) : Phrase Bound := do
  if ← acceptWord "unbounded" then
    words [if isStart then "preceding" else "following"]
    return if isStart then .first else .last
  else if ← acceptWord "current" then
    words ["row"]
    return .current
  else
    let _ ← inner.expression 0
    if ← acceptWord "preceding" then return .before
    words ["following"]
    return .after

def isBackward : Bound → Bound → Bool
  | .current, .before | .after, .before | .after, .current => true
  | _, _ => false

def window (inner : Inner) : Phrase Unit := bracketed do
  if ← sees fun t => t.isName && !isOneOf ["partition", "range", "rows", "groups"] t then skip
  if ← acceptWord "partition" then
    words ["by"]
    let _ ← list inner
  if ← seesWord "order" then orders inner
  if ← accept (isOneOf ["range", "rows", "groups"]) then
    let isRange ← acceptWord "between"
    let start ← bound inner true
    if isRange then words ["and"]
    let stop ← if isRange then bound inner false else pure .current
    if ← acceptWord "exclude" then
      if ← acceptWord "no" then words ["others"]
      else if ← acceptWord "current" then words ["row"]
      else oneOf ["group", "ties"]
    if isBackward start stop then wrong "unsupported frame specification"

def overRows (inner : Inner) : Phrase CallForm := do
  let isFiltered ← if (← seesWord "filter") && (← seesSecond (Token.isSign "(")) then
      skip
      bracketed do
        words ["where"]
        let _ ← inner.expression 0
      pure true
    else pure false
  if (← seesWord "over") && (← seesSecond fun t => t.isSign "(" || t.isName) then
    skip
    if ← seesSign "(" then window inner
    else
      let _ ← name
    return .windowed
  return if isFiltered then .filtered else .plain

abbrev mostArguments : Nat := 127

def call (inner : Inner) (function : Token) : Phrase Expression := do
  sign "("
  let isWhole ← acceptSign "*"
  let isDistinct ← if isWhole then pure false else acceptWord "distinct"
  if !isWhole && !isDistinct then
    let _ ← acceptWord "all"
  let isEmpty ← sees fun t => t.isSign ")" || t.isWord "order"
  let parts ← if isWhole || isEmpty then pure [] else list inner
  let isSorted ← if isWhole then pure false else seesWord "order"
  if isSorted then orders inner
  sign ")"
  let form ← overRows inner
  if mostArguments < parts.length then wrong s!"too many arguments on function {function.raw}"
  if form = .windowed && isDistinct then wrong "DISTINCT is not supported for window functions"
  let isOrdered := isSorted && !parts.isEmpty
  if form = .windowed && isOrdered then
    wrong s!"ORDER BY may not be used with non-aggregate {function.value}()"
  node (.call function.value (if form = .plain && isOrdered then .sorted else form)) parts

/-! ## Operands -/

def cases (inner : Inner) : Phrase Expression := do
  words ["case"]
  let hasSubject := !(← seesWord "when")
  let subject ← if hasSubject then (fun x => [x]) <$> inner.expression 0 else pure []
  let branch : Phrase (List Expression) := do
    words ["when"]
    let condition ← inner.expression 0
    words ["then"]
    return [condition, ← inner.expression 0]
  let branches := (← branch) ++ (← repeated do
    if ← seesWord "when" then return some (← branch)
    return none).flatten
  let hasOtherwise ← acceptWord "else"
  let otherwise ← if hasOtherwise then (fun x => [x]) <$> inner.expression 0 else pure []
  words ["end"]
  node (.cases hasSubject hasOtherwise) (subject ++ branches ++ otherwise)

def failure : Phrase Expression := do
  words ["raise"]
  bracketed do
    if !(← acceptWord "ignore") then
      oneOf ["rollback", "abort", "fail"]
      sign ","
      let _ ← name
  return .failure

def named (inner : Inner) : Phrase Expression := do
  let token ← expect Token.isName
  if token.kind ≠ .text ∧ (← seesSign "(") then call inner token
  else if ← acceptSign "." then
    let second ← name
    if ← acceptSign "." then return .column [token.value, second] (← name) none
    return .column [token.value] second none
  else return .column [] token.value token.mark?

/-- What is wrong with the number of a variable. After a cross, none is for statements. -/
def variableFault? (raw : String) : Option String :=
  let digits := raw.toList.drop 1
  let n := Nat.ofDigitChars 10 digits 0
  if raw.startsWith "#" && digits.head?.any Char.isDigit then
    some ("near \"" ++ raw ++ "\": syntax error")
  else if raw.startsWith "?" && !digits.isEmpty && (n < 1 || 32766 < n) then
    some "variable number must be between ?1 and ?32766"
  else none

def parameter (raw : String) : Phrase Expression := do
  if let some reason := variableFault? raw then wrong reason
  return .variable

def operand (inner : Inner) : Phrase Expression := do
  match ← next? with
  | none => refuse
  | some token =>
    if token.isSign "(" then
      skip
      if ← startsQuery then
        inner.query
        sign ")"
        return .query
      let parts ← list inner
      sign ")"
      match parts with
      | [x] => return x
      | _ => return .node .row parts
    else if token.isWord "not" then
      skip
      node (.unary "not") [← inner.expression 3]
    else if ["-", "+", "~"].any (token.isSign ·) then
      skip
      node (.unary token.raw) [← inner.expression 12]
    else if token.isWord "case" then cases inner
    else if token.isWord "cast" then
      skip
      sign "("
      let x ← inner.expression 0
      words ["as"]
      let type ← type
      sign ")"
      return .node (.cast type) [x]
    else if token.isWord "exists" then
      skip
      bracketed inner.query
      return .query
    else if token.isWord "raise" then failure
    else if token.kind = .variable then
      skip
      parameter token.raw
    else if isOneOf ["current_date", "current_time", "current_timestamp"] token then
      skip
      return .node (.call token.raw.toLower .plain) []
    else match token.literal? with
      | some literal =>
        if token.kind = .text && (← seesSecond (Token.isSign ".")) then named inner
        else
          skip
          if token.kind = .number ∧ !Token.isWellSpaced
              (if Token.isHexNumber token.raw then Token.isHexDigit else Char.isDigit)
              token.raw.toList then
            complain (.unexpected { token with kind := .illegal })
          return literal
      | none => named inner

/-! ## Operators -/

def ranks : List (Nat × List String) :=
  [(1, ["or"]), (2, ["and"]), (4, ["=", "==", "<>", "!="]), (5, ["<", "<=", ">", ">="]),
    (7, ["&", "|", "<<", ">>"]), (8, ["+", "-"]), (9, ["*", "/", "%"]), (10, ["||", "->", "->>"])]

def rank? (token : Token) : Option Nat :=
  (ranks.find? fun rank => rank.2.any fun s => token.isSign s || token.isWord s).map Prod.fst

def isLike : Token → Bool := isOneOf ["like", "glob", "regexp", "match"]

/-- A list to look in. If it is empty, nothing is looked for. Rows are looked for among rows, which
    are a query. -/
def among (left : Expression) (isNegated : Bool) (others : List Expression) :
    Phrase Expression := do
  match left, others with
  | _, [] => return .truth isNegated
  | _, [.query] => return .query
  | .node .row parts, others =>
    if let some width := (others.map Expression.width).find? (· ≠ parts.length) then
      let terms := if width = 1 then "term" else "terms"
      wrong s!"IN(...) element has {width} {terms} - expected {parts.length}"
    return .query
  | _, [x] =>
    if !x.isConstant false then node (.among isNegated) [left, x]
    else
      let test ← node (.binary "=") [left, ← node (.unary "+") [x]]
      if isNegated then node (.unary "not") [test] else return test
  | _, others => node (.among isNegated) (left :: others)

def compared (inner : Inner) (left : Expression) (isNegated : Bool) : Phrase Expression := do
  if ← acceptWord "between" then
    let low ← inner.expression 3
    words ["and"]
    node (.between isNegated) [left, low, ← inner.expression 5]
  else if ← acceptWord "in" then
    if ← seesSign "(" then
      if ← seesSecond (isOneOf ["select", "values", "with"]) then
        bracketed inner.query
        return .query
      among left isNegated (← arguments inner)
    else
      sourceName
      if ← seesSign "(" then
        let _ ← arguments inner
      return .query
  else
    let operator ← expect isLike
    let right ← inner.expression 5
    let third ← if ← acceptWord "escape" then (fun x => [x]) <$> inner.expression 5 else pure []
    let test ← node (.call operator.raw .plain) ([right, left] ++ third)
    if isNegated then node (.unary "not") [test] else return test

def comparison (inner : Inner) (left : Expression) : Phrase Expression := do
  if ← acceptWord "isnull" then node (.unary "isnull") [left]
  else if ← acceptWord "notnull" then node (.unary "notnull") [left]
  else if ← acceptWord "is" then
    let isNegated ← acceptWord "not"
    let isDistinct ← acceptWord "distinct"
    if isDistinct then words ["from"]
    let isOther := isNegated != isDistinct
    let right ← inner.expression 5
    match right with
    | .content .null => node (.unary (if isOther then "notnull" else "isnull")) [left]
    | right => node (.binary (if isOther then "isnot" else "is")) [left, right]
  else if ← acceptWord "not" then
    if ← acceptWord "null" then node (.unary "notnull") [left]
    else compared inner left true
  else compared inner left false

def further (inner : Inner) (least : Nat) (left : Expression) : Phrase (Option Expression) := do
  match ← next? with
  | none => return none
  | some token =>
    match rank? token with
    | some rank =>
      if rank < least then return none
      skip
      let right ← inner.expression (rank + 1)
      if token.isWord "and" && (left.isZero || right.isZero) then
        return some (.number "0")
      else if token.isSign "->" || token.isSign "->>" then
        return some (← node (.call token.raw .plain) [left, right])
      else return some (← node (.binary token.raw.toLower) [left, right])
    | none =>
      if token.isWord "collate" && least ≤ 11 then
        skip
        return some (.node (.collate (← expect Token.isPlainName).value) [left])
      else if least ≤ 4 && (isLike token || isOneOf ["is", "between", "in", "isnull", "notnull",
          "not"] token) then
        return some (← comparison inner left)
      else return none

/-! ## Queries -/

/-- A list of windows starts with a word that can be a name, too. -/
def startsWindows : Phrase Bool := do
  let tokens := (← get).tokens
  return tokens.head?.any (Token.isWord "window") && tokens[1]?.any Token.isName
    && tokens[2]?.any (Token.isWord "as")

def otherName : Phrase Unit := do
  if ← acceptWord "as" then
    let _ ← name
  else if !(← startsWindows) then
    let _ ← accept Token.isPlainName

def resultColumn (inner : Inner) : Phrase Unit := do
  if ← acceptSign "*" then return
  let tokens := (← get).tokens
  if tokens.head?.any Token.isName && tokens[1]?.any (Token.isSign ".")
      && tokens[2]?.any (Token.isSign "*") then
    skip
    skip
    skip
  else
    let _ ← inner.expression 0
    otherName

/-- There is none without a join before it. -/
def joinCondition (inner : Inner) (isJoined : Bool) : Phrase Unit := do
  if ← acceptWord "on" then
    let _ ← inner.expression 0
    if !isJoined then wrong "a JOIN clause is required before ON"
  else if ← acceptWord "using" then
    let _ ← bracketed names
    if !isJoined then wrong "a JOIN clause is required before USING"

def source (inner : Inner) (sources : Phrase Unit) (isJoined : Bool) : Phrase Unit := do
  if ← acceptSign "(" then
    if ← startsQuery then inner.query else sources
    sign ")"
    otherName
  else
    sourceName
    if ← seesSign "(" then
      let _ ← arguments inner
    otherName
    if ← acceptWord "indexed" then
      words ["by"]
      let _ ← name
    else if ← acceptWord "not" then words ["indexed"]
  joinCondition inner isJoined

/-- Whether such words name a kind of join. Sides go without the word for both, and that word goes
    with a side. -/
def isJoin (words : List String) : Bool :=
  let words := words.map String.toLower
  let isOuter := words.any fun w => ["left", "right", "full"].contains w
  words.all Token.joins.contains
    && !(words.any (fun w => ["inner", "cross"].contains w) && (isOuter || words.contains "outer"))
    && (isOuter || !words.contains "outer")

def joined : Phrase Bool := do
  if ← acceptSign "," then return true
  else if ← acceptWord "join" then return true
  else if ← sees (isOneOf Token.joins) then
    let kind ← expect fun _ => true
    let next : Phrase (List Token) := do
      if ← seesWord "join" then return []
      return [← expect Token.isName]
    let kinds := (kind :: (← next) ++ (← next)).map Token.raw
    words ["join"]
    if !isJoin kinds then wrong ("unknown join type: " ++ " ".intercalate kinds)
    return true
  else return false

def sources (inner : Inner) : Nat → Phrase Unit
  | 0 => refuse
  | fuel + 1 => do
    source inner (sources inner fuel) false
    let _ ← repeated do
      if ← joined then
        source inner (sources inner fuel) true
        return some ()
      return none

structure Part where
  clause : Option String
  listed : Option Nat

def core (inner : Inner) : Phrase Part := do
  if ← acceptWord "values" then
    return ⟨none, some (← separated (bracketed (list inner))).length⟩
  else
    words ["select"]
    let _ ← accept (isOneOf ["distinct", "all"])
    let _ ← separated (resultColumn inner)
    if ← acceptWord "from" then sources inner (← length)
    if ← acceptWord "where" then
      let _ ← inner.expression 0
    if ← acceptWord "group" then
      words ["by"]
      let _ ← list inner
    if ← acceptWord "having" then
      let _ ← inner.expression 0
    if ← startsWindows then
      skip
      let _ ← separated do
        let _ ← name
        words ["as"]
        window inner
    let isOrdered ← seesWord "order"
    if isOrdered then orders inner
    let isLimited ← acceptWord "limit"
    if isLimited then
      let _ ← inner.expression 0
      if ← accept fun t => t.isWord "offset" || t.isSign "," then
        let _ ← inner.expression 0
    return ⟨if isOrdered then some "ORDER BY" else if isLimited then some "LIMIT" else none, none⟩

def common (inner : Inner) : Phrase String := do
  let own ← name
  if ← seesSign "(" then
    let _ ← bracketed names
  words ["as"]
  if ← acceptWord "not" then words ["materialized"]
  else
    let _ ← acceptWord "materialized"
  bracketed inner.query
  return own

def commons (inner : Inner) (known : List String) : Nat → Phrase Unit
  | 0 => refuse
  | fuel + 1 => do
    let own ← common inner
    if known.contains own.toLower then wrong s!"duplicate WITH table name: {own}"
    if ← acceptSign "," then commons inner (own.toLower :: known) fuel

def withCommons (inner : Inner) : Phrase Unit := do
  if ← acceptWord "with" then
    let _ ← acceptWord "recursive"
    commons inner [] (← length)

/-- No query has more parts, unless it ends with a list of one row. -/
abbrev mostParts : Nat := 500

def isTooLong (start : Part) (further : List Part) : Bool :=
  mostParts < start.listed.getD 1 + further.length
    && match further.getLast? with
      | some last => last.listed ≠ some 1
      | none => start.listed.isNone

def wholeQuery (inner : Inner) : Phrase Unit := do
  withCommons inner
  let start ← core inner
  let further ← repeated do
    if ← acceptWord "union" then
      let isAll ← acceptWord "all"
      return some (if isAll then "UNION ALL" else "UNION", ← core inner)
    else if ← sees (isOneOf ["except", "intersect"]) then
      let operator ← expect fun _ => true
      return some (operator.raw.toUpper, ← core inner)
    else return none
  let parts := further.map Prod.snd
  let pairs := ((start :: parts).zip (further.map Prod.fst)).reverse
  let misplaced := pairs.findSome? fun (part, operator) =>
    part.clause.map fun clause => s!"{clause} clause should come after {operator} not before"
  if let some reason := misplaced then wrong reason
  if isTooLong start parts then wrong "too many terms in compound SELECT"

def inner : Nat → Inner
  | 0 => ⟨fun _ => refuse, refuse⟩
  | depth + 1 =>
    let more := inner depth
    { expression := fun least => do grow (further more least) (← operand more)
      query := wholeQuery more }

/-- There are fewer levels than tokens. -/
def innermost : Phrase Inner := return inner ((← length) + 1)

def expression : Phrase Expression := do (← innermost).expression 0

def query : Phrase Unit := do (← innermost).query

def queryOfVariables : Phrase Bool := do
  let before := (← get).tokens
  query
  return (before.take (before.length - (← length))).any fun token =>
    token.kind = .variable && (variableFault? token.raw).isNone

end Phrase

end LayeredPreferences.Database
