import LayeredPreferences.Http.Answer
import LayeredPreferences.Http.MediaType
import LayeredPreferences.Http.Path
import LayeredPreferences.Service
import LayeredPreferences.Text.Blank

set_option autoImplicit false

/-!
# The routes

Lists of preferences and single preferences, of organizations and of users. A
caller is taken from headers; then come the key and the body, and last the
service.
-/
namespace LayeredPreferences.Http

inductive Route where
  | list (scope : Scope)
  | single (scope : Scope) (segment : List Char)
deriving DecidableEq

def Route.ofPath? (path : List Char) : Option Route :=
  match (segments path).map String.ofList with
  | ["", "api", "org", "preferences"] => some (.list .org)
  | ["", "api", "user", "preferences"] => some (.list .user)
  | ["", "api", "org", "preferences", key] =>
    if key.isEmpty then none else some (.single .org key.toList)
  | ["", "api", "user", "preferences", key] =>
    if key.isEmpty then none else some (.single .user key.toList)
  | _ => none

/-- An organization, and the user of it if a user is asked for. -/
structure Caller where
  org : String
  user : String

/-- The identity in a header, without blanks around it. -/
def identity? (request : Request) (name : String) : Option String :=
  match request.plainHeader? name with
  | none => none
  | some value =>
    let id := Text.trim value.toList
    if id.isEmpty then none else some (String.ofList id)

/-- At the scope of organizations the user is not looked at. -/
def caller (request : Request) (scope : Scope) : Except Refusal Caller :=
  match scope, identity? request "x-org-id", identity? request "x-user-id" with
  | .org, some org, _ => .ok ⟨org, ""⟩
  | .user, some org, some user => .ok ⟨org, user⟩
  | _, _, _ => .error (.fault .unauthenticated)

def keyOf (segment : List Char) : Except Refusal String :=
  match decodeSegment segment with
  | some key => .ok key
  | none => .error .badKey

/-- The body of a write: a record with the value as its only field. -/
def updateShape : Json.Shaped (Option Value) :=
  Json.record "UpdatePreferenceRequest"
    [.required "preference_value" Value.shape fun _ v => some v] none

/-- The bytes that a body may have. -/
abbrev bodyLimit : Nat := 2 * 1024 * 1024

def update (request : Request) : Except Refusal Value :=
  match request.plainHeader? "content-type" with
  | none => .error .wrongMediaType
  | some type =>
    if !isJsonType type then .error .wrongMediaType
    else if bodyLimit < request.body.length then .error .bodyTooLarge
    else
      match Json.parse updateShape (.ofBytes request.body) with
      | .ok (some v) => .ok v
      | .ok none => .error (.badBody ⟨[], .missingField "preference_value"⟩)
      | .error fault => .error (.badBody fault)

section Serving

variable {σ : Type} [Backend σ]

abbrev Handler (σ : Type) := ExceptT Refusal (StateM σ)

/-- A result of the service in its envelope. -/
def serve {α : Type} (action : Action σ α) (write : α → List Char) : Handler σ Response := do
  return data (write (← action.adapt Refusal.fault))

def getList (r : Registry) (request : Request) (scope : Scope) : Handler σ Response := do
  let c ← caller request scope
  match scope with
  | .org => serve (Service.listOrg r c.org) View.writeAll
  | .user => serve (Service.listUser r c.org c.user) View.writeAll

def getSingle (r : Registry) (request : Request) (scope : Scope) (segment : List Char) :
    Handler σ Response := do
  let c ← caller request scope
  let key ← keyOf segment
  match scope with
  | .org => serve (Service.readOrg r c.org key) Effective.write
  | .user => serve (Service.readUser r c.org c.user key) Effective.write

def putSingle (r : Registry) (request : Request) (scope : Scope) (segment : List Char) :
    Handler σ Response := do
  let c ← caller request scope
  let key ← keyOf segment
  let v ← update request
  let owner : Owner := match scope with
    | .org => ⟨.org, c.org⟩
    | .user => ⟨.user, c.user⟩
  serve (Service.write r owner key v) Effective.write

def run (handler : Handler σ Response) : StateM σ Response := do
  match ← handler.run with
  | .ok response => return response
  | .error refusal => return ofRefusal refusal

/-- A method that is not served is refused before anything else is looked at. `HEAD` is answered
    like `GET`, without the body. -/
def respond (r : Registry) (request : Request) : StateM σ Response :=
  match Route.ofPath? (pathOf request.target.toList), request.method with
  | none, _ => return bare 404 none
  | some (.list scope), "GET" => run (getList r request scope)
  | some (.list scope), "HEAD" => do
    return { ← run (getList r request scope) with body := "" }
  | some (.list _), _ => return bare 405 (some "GET,HEAD")
  | some (.single scope segment), "GET" => run (getSingle r request scope segment)
  | some (.single scope segment), "HEAD" => do
    return { ← run (getSingle r request scope segment) with body := "" }
  | some (.single scope segment), "PUT" => run (putSingle r request scope segment)
  | some (.single _ _), _ => return bare 405 (some "GET,HEAD,PUT")

end Serving

end LayeredPreferences.Http
