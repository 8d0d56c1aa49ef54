import LayeredPreferences.Proofs.Http.Reached
import LayeredPreferences.Proofs.Http.Routing
import LayeredPreferences.Proofs.Http.Shown
import LayeredPreferences.Proofs.Service.Demand
import LayeredPreferences.Proofs.Service.Steady

set_option autoImplicit false

/-!
# Answers to requests

A request that asks the service for something is answered with what the service
answers, in an envelope: a result as data, a fault with its status, code and
message. What goes wrong inside is not told. All other requests are refused, and
leave the store.
-/
namespace LayeredPreferences

open LayeredPreferences.Action

namespace Http

open Service

/-! ## Requests -/

/-- The body is said to be JSON, is not too large, and holds the value to be written. -/
structure Sends (request : Request) (v : Value) : Prop where
  type : ∃ type, request.plainHeader? "content-type" = some type ∧ isJsonType type = true
  size : request.body.length ≤ bodyLimit
  body : Json.parse updateShape (.ofBytes request.body) = .ok (some v)

/-- What a request asks of the service. -/
inductive Asks (request : Request) : Demand → Prop where
  | list {scope : Scope} {c : Caller} (method : request.method = "GET")
    (target : Targets request (listPath scope).toList) (caller : Calls request scope c) :
    Asks request (.list scope c.org c.user)
  | read {scope : Scope} {segment : List Char} {key : String} {c : Caller}
    (method : request.method = "GET") (target : Targets request (singlePath scope segment))
    (spelled : Text.Spells segment (Text.bytesOf key)) (named : key ≠ "")
    (caller : Calls request scope c) : Asks request (.read scope c.org c.user key)
  | write {scope : Scope} {segment : List Char} {key : String} {c : Caller} {v : Value}
    (method : request.method = "PUT") (target : Targets request (singlePath scope segment))
    (spelled : Text.Spells segment (Text.bytesOf key)) (named : key ≠ "")
    (caller : Calls request scope c) (sent : Sends request v) :
    Asks request (.write (c.owner scope) key v)

theorem Targets.path {request : Request} {path : List Char} (h : Targets request path)
    (slash : path.head? = some '/') (plain : ∀ c ∈ path, c ≠ '?' ∧ c ≠ '#') :
    pathOf request.target.toList = path := by
  obtain ⟨rest, ends, target⟩ := h
  rw [target, pathOf_append slash plain ends]

theorem listPath_plain (scope : Scope) : ∀ c ∈ (listPath scope).toList, c ≠ '?' ∧ c ≠ '#' := by
  have plain : ((listPath scope).toList.all fun c => c ≠ '?' ∧ c ≠ '#') = true := by
    cases scope <;> decide +kernel
  exact fun c member => of_decide_eq_true (List.all_eq_true.1 plain c member)

theorem asksForList {request : Request} {scope : Scope} {c : Caller}
    (method : request.method = "GET") (target : Targets request (listPath scope).toList)
    (caller : Calls request scope c) : AsksForList request scope c where
  method := method
  route := by
    rw [target.path (by cases scope <;> rfl) (listPath_plain scope), ofPath?_list]
  caller := caller_eq caller

theorem addresses {request : Request} {method : String} {scope : Scope} {segment : List Char}
    {key : String} {c : Caller} (called : request.method = method)
    (target : Targets request (singlePath scope segment))
    (spelled : Text.Spells segment (Text.bytesOf key)) (named : key ≠ "")
    (caller : Calls request scope c) : Addresses request method scope key c where
  method := called
  route := by
    have other {d : Char} (special : Text.isSegmentChar d = false) (escape : d ≠ '%') :
        ∀ c ∈ segment, c ≠ d := by
      intro c member
      rcases spelling_plain spelled member with allowed | rfl
      · exact Text.segmentChar_ne allowed special
      · exact escape.symm
    have nonempty : segment ≠ [] := by
      rintro rfl
      exact named (Text.eq_empty_of_spelling spelled)
    have plain : ∀ c ∈ singlePath scope segment, c ≠ '?' ∧ c ≠ '#' := by
      intro c member
      rcases List.mem_append.1 member with front | back
      · exact listPath_plain scope c front
      · rcases List.mem_cons.1 back with rfl | back
        · decide
        · exact ⟨other (by decide) (by decide) c back, other (by decide) (by decide) c back⟩
    refine ⟨segment, ?_, decodeSegment_spelling spelled⟩
    rw [target.path (by cases scope <;> rfl) plain]
    exact ofPath?_single scope nonempty fun slash => other (by decide) (by decide) _ slash rfl
  caller := caller_eq caller

/-! ## Answers -/

/-- The status, the code and the message of a fault. The message of what went wrong inside does
    not depend on the fault. -/
inductive ShownAs : Fault → Nat → String → String → Prop where
  | notFound (key : String) :
    ShownAs (.notFound key) 404 "E-PREF-NOTFOUND" (Fault.notFound key).message
  | forbidden (key : String) (scope : Scope) :
    ShownAs (.forbidden key scope) 403 "E-PREF-FORBIDDEN" (Fault.forbidden key scope).message
  | unauthenticated :
    ShownAs .unauthenticated 401 "E-AUTH-NOID" Fault.unauthenticated.message
  | wrongType (key : String) (expected got : ValueType) :
    ShownAs (.badValue key (.wrongType expected got)) 400 "E-PREF-BADTYPE"
      (Fault.badValue key (.wrongType expected got)).message
  | notAllowed (key : String) (allowed : List Value) :
    ShownAs (.badValue key (.notAllowed allowed)) 400 "E-PREF-NOTALLOWED"
      (Fault.badValue key (.notAllowed allowed)).message
  | outOfRange (key : String) (range : ValueRange) :
    ShownAs (.badValue key (.outOfRange range)) 400 "E-PREF-RANGE"
      (Fault.badValue key (.outOfRange range)).message
  | store (fault : StoreFault) : ShownAs (.store fault) 500 "E-STORE" "Internal server error"
  | schema (fault : SchemaFault) :
    ShownAs (.schema fault) 500 "E-INTERNAL" "Internal server error"
  | setup (fault : SetupFault) : ShownAs (.setup fault) 500 "E-INTERNAL" "Internal server error"
  | address (fault : AddressFault) :
    ShownAs (.address fault) 500 "E-INTERNAL" "Internal server error"

theorem shownAs (fault : Fault) : ShownAs fault (status fault) (code fault) (shownMessage fault) := by
  cases fault with
  | badValue key fault => cases fault <;> constructor
  | _ => constructor

/-- The response that the service's answer is put into. -/
inductive Envelope : Except Fault Reply → Response → Prop where
  | single (e : Effective) : Envelope (.ok (.effective e)) (shownSingle e.key e.value.write)
  | list (views : List View) : Envelope (.ok (.views views))
      (shownList (views.map fun view => (view.definition, view.value.write)))
  | error {fault : Fault} {status : Nat} {code message : String}
    (shown : ShownAs fault status code message) :
    Envelope (.error fault) ⟨status, some "application/json", none,
      String.ofList ("\x7b\"error\":\x7b\"code\":".toList ++ Json.writeString code
        ++ ",\"message\":".toList ++ Json.writeString message ++ ['}', '}'])⟩

theorem envelope_single (e : Effective) : Envelope (.ok (.effective e)) (data e.write) :=
  data_effective e ▸ .single e

theorem envelope_list (views : List View) :
    Envelope (.ok (.views views)) (data (View.writeAll views)) := data_views views ▸ .list views

theorem envelope_ofFault (fault : Fault) : Envelope (.error fault) (ofFault fault) := by
  have front : "\x7b\"error\":\x7b\"code\":".toList
      = '{' :: (Json.writeString "error" ++ ':' :: '{' :: (Json.writeString "code" ++ [':'])) := by
    decide +kernel
  have middle : ",\"message\":".toList = ',' :: (Json.writeString "message" ++ [':']) := by
    decide +kernel
  have body (code message : List Char) :
      Json.writeObject [("error", Json.writeObject [("code", code), ("message", message)])]
        = "\x7b\"error\":\x7b\"code\":".toList ++ code ++ ",\"message\":".toList ++ message
          ++ ['}', '}'] := by
    rw [front, middle]
    simp [Json.writeObject, Json.writeMember, Json.separated]
  rw [ofFault, json, body]
  exact .error (shownAs fault)

theorem Envelope.status_eq {answer : Except Fault Reply} {response : Response}
    (h : Envelope answer response) : response.status = 200 ↔ ∃ reply, answer = .ok reply := by
  cases h with
  | single e => simp [shownSingle, shown]
  | list views => simp [shownList, shown]
  | error shown => cases shown <;> simp

/-! ## Requests and their answers -/

section Answers

variable {σ : Type} [Backend σ] {r : Registry} {request : Request} {s : σ}

/-- What is served is answered in its envelope, and leaves the store of the service. -/
theorem served_envelope {α : Type} {action : Action σ α} {write : α → List Char} (wrap : α → Reply)
    (filled : ∀ a, Envelope (.ok (wrap a)) (data (write a)))
    (served : (respond r request).run s = (run (serve action write)).run s) :
    Envelope (outcome (wrap <$> action) s).1 ((respond r request).run s).1 ∧
      ((respond r request).run s).2 = (outcome (wrap <$> action) s).2 := by
  rw [served, run_outcome, outcome_serve, outcome_map]
  rcases outcome action s with ⟨fault | a, t⟩
  · exact ⟨envelope_ofFault fault, rfl⟩
  · exact ⟨filled a, rfl⟩

theorem asks_envelope {demand : Demand} (h : Asks request demand) :
    Envelope (outcome (demand.serve r) s).1 ((respond r request).run s).1 ∧
      ((respond r request).run s).2 = (outcome (demand.serve r) s).2 := by
  cases h with
  | list method target caller =>
    exact served_envelope Reply.views envelope_list (respond_list (asksForList method target caller) s)
  | read method target spelled named caller =>
    exact served_envelope Reply.effective envelope_single
      (respond_get (addresses method target spelled named caller) s)
  | write method target spelled named caller sent =>
    exact served_envelope Reply.effective envelope_single
      (respond_put (addresses method target spelled named caller)
        (update_parsed sent.type sent.size sent.body) s)

theorem leftByReading_steady [Steady σ] : LeftByReading r s :=
  ⟨fun org user key scope => readAt_steady r org user key scope s,
    fun org user scope => listAt_steady r org user scope s⟩

theorem respond_leaves [Steady σ] (refused : ¬ (request.method = "PUT" ∧
    ((respond r request).run s).1.status = 200)) : ((respond r request).run s).2 = s := by
  rcases respond_leaves_or_puts (leftByReading_steady (r := r) (s := s)) request with
    left | ⟨method, scope, segment, put⟩
  · exact left
  · rw [put, run_outcome] at refused ⊢
    rcases putSingle_writes r s request scope segment with ⟨_, out⟩ | ⟨owner, key, v, written⟩
    · rw [out]
    · rw [written, outcome_serve] at refused ⊢
      rcases answer : outcome (Service.write r owner key v) s with ⟨fault | e, t⟩
      · have left := write_error_leaves r (congrArg Prod.fst answer)
        rwa [answer] at left
      · rw [answer] at refused
        exact absurd ⟨method, rfl⟩ refused

end Answers

/-- Every key has a spelling. A request that asks for something is answered with what the service
    answers and leaves the store that the service leaves; and only a value that was put leaves
    another store than before. -/
theorem answers_as_the_service {σ : Type} [Backend σ] [Steady σ] (r : Registry) (s : σ) :
    (∀ key, ∃ segment, Text.Spells segment (Text.bytesOf key)) ∧
    (∀ request demand, Asks request demand →
      Envelope (outcome (demand.serve r) s).1 ((respond r request).run s).1 ∧
      (((respond r request).run s).1.status = 200 ↔
        ∃ reply, (outcome (demand.serve r) s).1 = .ok reply) ∧
      ((respond r request).run s).2 = (outcome (demand.serve r) s).2) ∧
    ∀ request, ¬ (request.method = "PUT" ∧ ((respond r request).run s).1.status = 200) →
      ((respond r request).run s).2 = s := by
  refine ⟨fun key => Text.exists_spells _, fun request demand asks => ?_, fun request refused => ?_⟩
  · obtain ⟨envelope, store⟩ := asks_envelope (r := r) (s := s) asks
    exact ⟨envelope, envelope.status_eq, store⟩
  · exact respond_leaves refused

/-- A greeting, with a key that cannot stand in a path as it is. -/
def greeting : Definition where
  key := "grü/e"
  name := "Greeting"
  description := ""
  valueType := .string
  defaultValue := .string "hi"
  domain := .discrete []
  scopes := [.org]

def putGreeting : Request where
  method := "PUT"
  target := "/api/org/preferences/gr%C3%bc%2fe?page=1"
  headers := [("X-Org-Id", " acme\t"), ("content-type", "application/json; charset=utf-8")]
  body := "\x7b\"preference_value\": \"hello\"\x7d".toList.flatMap String.utf8EncodeChar

def listGreetings : Request :=
  { putGreeting with method := "GET", target := "/api/org/preferences#top" }

theorem calls_greeting {request : Request} (same : request.headers = putGreeting.headers) :
    Calls request .org ⟨"acme", ""⟩ := by
  have visible : (" acme\t".toList.all fun c => c = '\t' ∨ (0x20 ≤ c.toNat ∧ c.toNat < 0x7f))
      = true := by decide +kernel
  have held : request.header? "x-org-id" = some " acme\t" := by
    rw [Request.header?, same]
    decide +kernel
  exact .org ⟨" acme\t", held,
    fun c member => of_decide_eq_true (List.all_eq_true.1 visible c member),
    ⟨'a', by decide, by decide⟩, by decide +kernel⟩

theorem asks_greeting :
    Asks putGreeting (.write ⟨.org, "acme"⟩ greeting.key (.string "hello")) := by
  have key : Text.bytesOf greeting.key = [0x67, 0x72, 0xc3, 0xbc, 0x2f, 0x65] := by decide +kernel
  have spelled : Text.Spells "gr%C3%bc%2fe".toList (Text.bytesOf greeting.key) := by
    rw [key]
    refine .plain (by decide) (.plain (by decide) ?_)
    refine .escaped (m := 12) (n := 3) (.inr (by decide)) (.inl rfl) ?_
    refine .escaped (m := 11) (n := 12) (.inl rfl) (.inl rfl) ?_
    exact .escaped (m := 2) (n := 15) (.inl rfl) (.inl rfl) (.plain (by decide) .nil)
  have text : putGreeting.body
      = (writeBody ([' '] ++ (Value.string "hello").write)).flatMap String.utf8EncodeChar := by
    decide +kernel
  have sent : Sends putGreeting (.string "hello") :=
    { type := ⟨"application/json; charset=utf-8", by decide +kernel, by decide +kernel⟩
      size := by decide +kernel
      body := by
        rw [text, Json.Source.ofBytes_text]
        exact updateShape_written _ (by decide) (by simp [Json.Blanks, Json.Glyph.isBlank]) }
  have target : Targets putGreeting (singlePath .org "gr%C3%bc%2fe".toList) :=
    ⟨"?page=1".toList, by simp, by decide +kernel⟩
  exact .write rfl target spelled (by decide) (calls_greeting rfl) sent

theorem asks_listGreetings : Asks listGreetings (.list .org "acme" "") := by
  have caller : Calls listGreetings .org ⟨"acme", ""⟩ := calls_greeting rfl
  exact .list rfl ⟨"#top".toList, by simp, by decide +kernel⟩ caller

theorem answers_as_the_service_greeting :
    let r : Registry := ⟨[greeting]⟩
    let put := (respond r putGreeting).run Tables.empty
    let listed := (respond r listGreetings).run put.2
    put.1 = ⟨200, some "application/json", none,
      "\x7b\"data\":\x7b\"preference_id\":\"grü/e\",\"preference_value\":\"hello\"\x7d\x7d"⟩ ∧
    put.2.org = ⟨["acme"], some [⟨"acme", .ofString "grü/e", some (.ofString "\"hello\"")⟩]⟩ ∧
    Envelope (outcome ((Demand.list .org "acme" "").serve r) put.2).1 listed.1 ∧
    listed.1 = ⟨200, some "application/json", none,
      "\x7b\"data\":[\x7b\"key\":\"grü/e\",\"name\":\"Greeting\",\"description\":\"\"," ++
      "\"valueType\":\"string\",\"defaultValue\":\"hi\",\"usesDiscreteValues\":true," ++
      "\"allowedValues\":[],\"allowedScopes\":[\"org\"],\"value\":\"hello\"\x7d]\x7d"⟩ ∧
    listed.2 = put.2 := by
  intro r put listed
  obtain ⟨-, asked, -⟩ := answers_as_the_service r Tables.empty
  obtain ⟨-, asked', leaves⟩ := answers_as_the_service r put.2
  obtain ⟨envelope, -, store⟩ := asked _ _ asks_greeting
  obtain ⟨envelope', -, -⟩ := asked' _ _ asks_listGreetings
  refine ⟨?_, ?_, envelope', ?_, leaves _ fun again => absurd again.1 (by decide)⟩
  · change Envelope (.ok (.effective ⟨greeting.key, .string "hello"⟩)) put.1 at envelope
    generalize put.1 = response at envelope ⊢
    cases envelope
    decide +kernel
  · change put.2 = _ at store
    rw [store]
    decide +kernel
  · decide +kernel

end Http

end LayeredPreferences
