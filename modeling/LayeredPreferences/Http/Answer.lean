import LayeredPreferences.Fault
import LayeredPreferences.Http.Message

set_option autoImplicit false

/-!
# Answers

How results and failures are shown to a caller. The text of an internal failure
is not shown.
-/
namespace LayeredPreferences.Http

/-- Why a request is not served. -/
inductive Refusal where
  | fault (fault : Fault)
  | badKey
  | wrongMediaType
  | bodyTooLarge
  | badBody (fault : Json.Fault)

def status : Fault → Nat
  | .notFound _ => 404
  | .forbidden .. => 403
  | .unauthenticated => 401
  | .badValue .. => 400
  | .schema _ | .store _ | .setup _ | .address _ => 500

def code : Fault → String
  | .notFound _ => "E-PREF-NOTFOUND"
  | .forbidden .. => "E-PREF-FORBIDDEN"
  | .unauthenticated => "E-AUTH-NOID"
  | .badValue _ (.wrongType ..) => "E-PREF-BADTYPE"
  | .badValue _ (.notAllowed _) => "E-PREF-NOTALLOWED"
  | .badValue _ (.outOfRange _) => "E-PREF-RANGE"
  | .store _ => "E-STORE"
  | .schema _ | .setup _ | .address _ => "E-INTERNAL"

def shownMessage (fault : Fault) : String :=
  if status fault = 500 then "Internal server error" else fault.message

def json (status : Nat) (body : List Char) : Response :=
  ⟨status, some "application/json", none, String.ofList body⟩

def plain (status : Nat) (body : String) : Response :=
  ⟨status, some "text/plain; charset=utf-8", none, body⟩

def bare (status : Nat) (allow : Option String) : Response := ⟨status, none, allow, ""⟩

/-- The envelope of every result. -/
def data (result : List Char) : Response := json 200 (Json.writeObject [("data", result)])

def ofFault (fault : Fault) : Response :=
  json (status fault) <| Json.writeObject
    [("error", Json.writeObject
      [("code", Json.writeString (code fault)),
       ("message", Json.writeString (shownMessage fault))])]

def ofRefusal : Refusal → Response
  | .fault fault => ofFault fault
  | .badKey => plain 400 "Invalid URL: Invalid UTF-8 in `key`"
  | .wrongMediaType => plain 415 "Expected request with `Content-Type: application/json`"
  | .bodyTooLarge => plain 413 "Failed to buffer the request body: length limit exceeded"
  | .badBody fault =>
    if fault.cause.isShape then
      plain 422 <| "Failed to deserialize the JSON body into the target type: "
        ++ fault.placedMessage
    else plain 400 <| "Failed to parse the request body as JSON: " ++ fault.placedMessage

end LayeredPreferences.Http
