import LayeredPreferences.Database.Page

set_option autoImplicit false

/-!
# Trees

The entries of a table or of an index, in their order, and the row of a table
with a given number.
-/
namespace LayeredPreferences.Database.Image

abbrev deepest : Nat := 20

abbrev Walk (α : Type) := ExceptT DatabaseFault (StateM (Array Entry)) α

/-- A page below the root is of the kind of the root, and not empty. -/
def checkBelow (root page : Page) : Except DatabaseFault Unit :=
  if page.cells = 0 ∨ page.kind.isTable ≠ root.kind.isTable then .error .damaged else .ok ()

/-- Visits what comes on a page from a place on, with what is below it. The entries of a branch of an
    index stand between its pages. -/
def visit (image : Image) (page : Page) (first : Nat) : Nat → Walk Unit
  | 0 => throw .damaged
  | level + 1 => do
    if page.kind.isLeaf then modify (· ++ (page.entries.drop first).toArray)
    else
      (List.range' first (page.cells + 1 - first)).forM fun i => do
        if level = 0 then throw .damaged
        let below ← image.page (page.child i)
        checkBelow page below
        image.visit below 0 level
        if i < page.cells ∧ page.kind = .indexBranch then modify (·.push (page.entry i))

def root (image : Image) (index : Nat) (isTable : Bool) : Except DatabaseFault Page := do
  let page ← image.page index
  if page.kind.isTable ≠ isTable ∨ page.cells = 0 ∧ !page.kind.isLeaf ∧ index ≠ 1 then
    throw .damaged
  return page

/-- Entries up to the first fault, and the fault. -/
def walked (walk : Walk Unit) : List Entry × Option DatabaseFault :=
  match walk.run #[] with
  | (.ok (), entries) => (entries.toList, none)
  | (.error fault, entries) => (entries.toList, some fault)

def tree (image : Image) (index : Nat) (isTable : Bool) : List Entry × Option DatabaseFault :=
  walked do image.visit (← image.root index isTable) 0 deepest

inductive Step (α : Type) where
  | skip
  | take (x : α)
  | stop
  | takeLast (x : α)

/-- Looks at entries one by one, each with what was taken last. What is wrong after the last one that
    is looked at does not matter. -/
def gather {α : Type} (step : Option α → Entry → Except DatabaseFault (Step α))
    (fault : Option DatabaseFault) (taken : List α) : List Entry → Except DatabaseFault (List α)
  | [] =>
    match fault with
    | some fault => .error fault
    | none => .ok taken.reverse
  | entry :: rest => do
    match ← step taken.head? entry with
    | .skip => gather step fault taken rest
    | .take x => gather step fault (x :: taken) rest
    | .stop => return taken.reverse
    | .takeLast x => return (x :: taken).reverse

/-! ## Search -/

/-- Looks between two places for what compares equal by halving. Where it is not, the place where it
    would be. -/
def bisect (compare : Nat → Except DatabaseFault Ordering) (low high : Nat) :
    Nat → Except DatabaseFault (Nat × Bool)
  | 0 => .ok (low, false)
  | fuel + 1 => do
    if high ≤ low then return (low, false)
    let middle := (low + high - 1) / 2
    match ← compare middle with
    | .eq => return (middle, true)
    | .lt => bisect compare (middle + 1) high fuel
    | .gt => bisect compare low middle fuel

def visitFrom (image : Image) (compare : Entry → Except DatabaseFault Ordering) (page : Page) :
    Nat → Walk Unit
  | 0 => throw .damaged
  | level + 1 => do
    let (i, _) ← bisect (fun i => compare (page.entry i)) 0 page.cells page.cells
    if page.kind.isLeaf then image.visit page i 1
    else
      if level = 0 then throw .damaged
      let below ← image.page (page.child i)
      checkBelow page below
      image.visitFrom compare below level
      if i < page.cells ∧ page.kind = .indexBranch then modify (·.push (page.entry i))
      image.visit page (i + 1) (level + 1)

def treeFrom (image : Image) (index : Nat) (compare : Entry → Except DatabaseFault Ordering) :
    List Entry × Option DatabaseFault :=
  walked do image.visitFrom compare (← image.root index false) deepest

/-- In the tree of a table only leaves have rows. -/
def descend (image : Image) (compare : Entry → Except DatabaseFault Ordering) (page : Page) :
    Nat → Except DatabaseFault (Option Entry)
  | 0 => .error .damaged
  | level + 1 => do
    let (i, isThere) ← bisect (fun i => compare (page.entry i)) 0 page.cells page.cells
    if isThere ∧ page.kind ≠ .tableBranch then return some (page.entry i)
    else if page.kind.isLeaf then return none
    else
      if level = 0 then throw .damaged
      let below ← image.page (page.child i)
      checkBelow page below
      image.descend compare below level

def seek (image : Image) (index : Nat) (row : Int) : Except DatabaseFault (Option Entry) := do
  let page ← image.root index true
  image.descend (fun entry => .ok (compare entry.row row)) page deepest

def seekEntry (image : Image) (index : Nat) (compare : Entry → Except DatabaseFault Ordering) :
    Except DatabaseFault (Option Entry) := do
  image.descend compare (← image.root index false) deepest

end LayeredPreferences.Database.Image
