import LayeredPreferences.Http.Api
import LayeredPreferences.Proofs.Http.Shown
import LayeredPreferences.Proofs.Json.Bytes
import LayeredPreferences.Proofs.Json.Record
import LayeredPreferences.Proofs.Service.Access

set_option autoImplicit false

/-!
# Requests that are served

A request that names a key or a list, and a caller, is answered with what the
service answers. A written value that is sent is read from the body as it was.
-/
namespace LayeredPreferences.Http

open LayeredPreferences.Action Service Json

/-! ## Requests -/

/-- The request asks for a single preference, for a caller that it identifies. -/
structure Addresses (request : Request) (method : String) (scope : Scope) (key : String)
    (c : Caller) : Prop where
  method : request.method = method
  route : ∃ segment, Route.ofPath? (pathOf request.target.toList) = some (.single scope segment) ∧
    decodeSegment segment = some key
  caller : caller request scope = .ok c

/-- The request asks for the list of preferences, for a caller that it identifies. -/
structure AsksForList (request : Request) (scope : Scope) (c : Caller) : Prop where
  method : request.method = "GET"
  route : Route.ofPath? (pathOf request.target.toList) = some (.list scope)
  caller : caller request scope = .ok c

/-- The body that asks for a value to be written, which stands in it as this text. -/
def writeBody (text : List Char) : List Char := braced [("preference_value", text)]

theorem writeBody_eq (text : List Char) :
    writeBody text = '{' :: (writeString "preference_value" ++ ':' :: (text ++ ['}'])) := by
  have bare : isBare "preference_value" = true := by decide +kernel
  rw [writeString_bare bare]
  simp only [writeBody, braced, commas, List.map_cons, List.map_nil, List.intercalate_singleton,
    List.append_assoc, List.cons_append]

/-- The request brings the JSON text of a value as the value to be written. -/
structure Brings (request : Request) (text : List Char) : Prop where
  type : ∃ type, request.plainHeader? "content-type" = some type ∧ isJsonType type = true
  size : request.body.length ≤ bodyLimit
  body : ∃ pad : List Char, Blanks (pad.map .char) ∧
    request.body = (writeBody (pad ++ text)).flatMap String.utf8EncodeChar

/-- A record whose only field is the value is read as the value. -/
theorem parse_updateShape {text pad : Source} {v : Value} (blanks : Blanks pad)
    (read : Value.shape 126 (text ++ (pad ++ [.char '}'])) = .ok (v, pad ++ [.char '}'])) :
    Json.parse updateShape (.char '{' :: ((writeString "preference_value").map .char ++ .char ':' ::
      (text ++ (pad ++ [.char '}'])))) = .ok (some v) := by
  let field : Json.Field (Option Value) :=
    .required "preference_value" Value.shape fun _ v => some v
  have taken : field.read 126 (text ++ (pad ++ .char '}' :: []))
      = .ok (fun _ => some v, pad ++ .char '}' :: []) := by
    change (Value.shape 126 >>= fun x => _) _ = _
    rw [bind_ok read]
    rfl
  exact whole_ok (record_one blanks "UpdatePreferenceRequest" none taken) rfl

theorem updateShape_written (v : Value) (float : v.type ≠ .float) {pad : List Char}
    (blanks : Blanks (pad.map .char)) :
    Json.parse updateShape ((writeBody (pad ++ v.write)).map .char) = .ok (some v) := by
  rw [writeBody_eq]
  have ends : EndsNumber ([] ++ [.char '}']) := by simp [EndsNumber, digit?]
  have read := v.shape_write float 126 blanks ends
  rw [← List.append_assoc] at read
  simpa using parse_updateShape blanks_nil read

theorem update_parsed {request : Request} {v : Value}
    (type : ∃ type, request.plainHeader? "content-type" = some type ∧ isJsonType type = true)
    (size : request.body.length ≤ bodyLimit)
    (parsed : Json.parse updateShape (.ofBytes request.body) = .ok (some v)) :
    update request = .ok v := by
  obtain ⟨type, header, json⟩ := type
  unfold update
  rw [header]
  dsimp only
  rw [json, if_neg (by simp), if_neg (Nat.not_lt.2 size), parsed]

theorem update_brings {request : Request} {v : Value} (h : Brings request v.write)
    (float : v.type ≠ .float) : update request = .ok v := by
  obtain ⟨pad, blanks, body⟩ := h.body
  refine update_parsed h.type h.size ?_
  rw [body, Source.ofBytes_text, updateShape_written v float blanks]

/-! ## Answers -/

/-- Whose value a caller reads first and writes at a scope. -/
def Caller.owner (c : Caller) : Scope → Owner
  | .org => ⟨.org, c.org⟩
  | .user => ⟨.user, c.user⟩

theorem Caller.owner_scope (c : Caller) (scope : Scope) : (c.owner scope).scope = scope := by
  cases scope <;> rfl

section Handlers

variable {σ α : Type} {s t : σ}

theorem outcome_serve (action : Action σ α) (write : α → List Char) (s : σ) :
    outcome (serve action write) s = match outcome action s with
      | (.ok a, t) => (.ok (data (write a)), t)
      | (.error fault, t) => (.error (.fault fault), t) := by
  have adapted : outcome (action.adapt Refusal.fault) s
      = ((outcome action s).1.mapError Refusal.fault, (outcome action s).2) := rfl
  unfold serve
  rw [outcome_bind, adapted]
  rcases outcome action s with ⟨_ | a, t⟩ <;> rfl

theorem serve_ok {action : Action σ α} {a : α} (h : outcome action s = (.ok a, t))
    (write : α → List Char) : outcome (serve action write) s = (.ok (data (write a)), t) := by
  rw [outcome_serve, h]

theorem run_outcome (handler : Handler σ Response) (s : σ) :
    (run handler).run s = match outcome handler s with
      | (.ok response, t) => (response, t)
      | (.error refusal, t) => (ofRefusal refusal, t) := by
  rcases seen : outcome handler s with ⟨_ | response, t⟩
  all_goals
    change handler.run.run s = _ at seen
    rw [run, StateT.run_bind, seen]
    rfl

theorem run_congr {one other : Handler σ Response} (h : outcome one s = outcome other s) :
    (run one).run s = (run other).run s := by
  rw [run_outcome, run_outcome, h]

theorem run_ok {handler : Handler σ Response} {response : Response}
    (h : outcome handler s = (.ok response, t)) : (run handler).run s = (response, t) := by
  rw [run_outcome, h]

variable {request : Request} {scope : Scope} {key : String} {c : Caller}

theorem outcome_caller (h : caller request scope = .ok c) (next : Caller → Handler σ α) :
    outcome (liftM (caller request scope) >>= next) s = outcome (next c) s := by
  refine outcome_bind_ok ?_
  rw [outcome_lift, h]

theorem outcome_key {segment : List Char} (h : decodeSegment segment = some key)
    (next : String → Handler σ α) :
    outcome (liftM (keyOf segment) >>= next) s = outcome (next key) s := by
  refine outcome_bind_ok ?_
  rw [outcome_lift, keyOf, h]

end Handlers

section Served

variable {σ : Type} [Backend σ] {r : Registry} {request : Request} {scope : Scope} {key : String}
  {c : Caller} {s t : σ}

theorem respond_get (h : Addresses request "GET" scope key c) (s : σ) :
    (respond r request).run s
      = (run (serve (readAt r c.org c.user key scope) Effective.write)).run s := by
  obtain ⟨segment, route, decoded⟩ := h.route
  unfold respond
  rw [route, h.method]
  refine run_congr ?_
  unfold getSingle
  rw [outcome_caller h.caller, outcome_key decoded]
  cases scope <;> rfl

theorem respond_list (h : AsksForList request scope c) (s : σ) :
    (respond r request).run s
      = (run (serve (listAt r c.org c.user scope) View.writeAll)).run s := by
  unfold respond
  rw [h.route, h.method]
  refine run_congr ?_
  unfold getList
  rw [outcome_caller h.caller]
  cases scope <;> rfl

theorem respond_put (h : Addresses request "PUT" scope key c) {v : Value}
    (sent : update request = .ok v) (s : σ) :
    (respond r request).run s
      = (run (serve (Service.write r (c.owner scope) key v) Effective.write)).run s := by
  obtain ⟨segment, route, decoded⟩ := h.route
  have taken : outcome (liftM (update request) : Handler σ Value) s = (.ok v, s) := by
    rw [outcome_lift, sent]
  unfold respond
  rw [route, h.method]
  refine run_congr ?_
  unfold putSingle
  rw [outcome_caller h.caller, outcome_key decoded, outcome_bind_ok taken]
  cases scope <;> rfl

theorem served_ok {α : Type} {action : Action σ α} {write : α → List Char} {a : α}
    (served : (respond r request).run s = (run (serve action write)).run s)
    (answer : outcome action s = (.ok a, t)) :
    (respond r request).run s = (data (write a), t) :=
  served.trans (run_ok (serve_ok answer write))

theorem served_single {action : Action σ Effective} {key : String} {v : Value}
    (served : (respond r request).run s = (run (serve action Effective.write)).run s)
    (answer : outcome action s = (.ok ⟨key, v⟩, t)) :
    (respond r request).run s = (shownSingle key v.write, t) := by
  rw [served_ok served answer, data_effective]

theorem served_list {action : Action σ (List View)} {views : List View}
    (served : (respond r request).run s = (run (serve action View.writeAll)).run s)
    (answer : outcome action s = (.ok views, t)) : (respond r request).run s =
      (shownList (views.map fun view => (view.definition, view.value.write)), t) := by
  rw [served_ok served answer, data_views]

end Served

end LayeredPreferences.Http
