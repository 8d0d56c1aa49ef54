import LayeredPreferences.Proofs.Http.Routing
import LayeredPreferences.Proofs.Store.Memory

set_option autoImplicit false

/-!
# Requests without an identity

Who does not say who they are is told so, whatever else they ask, and nothing about
the registry or the store. Of an identity only the first value of its header
counts, and of that value what stands between its blanks.
-/
namespace LayeredPreferences.Http

open LayeredPreferences.Action

/-! ## Identities in headers -/

/-- Visible characters of ASCII, spaces and tabs. -/
def Readable (c : Char) : Prop := c = '\t' ∨ 0x20 ≤ c.toNat ∧ c.toNat < 0x7f

/-- The first value of the header, if there is one, is unreadable in part or blank. -/
def Anonymous (request : Request) (name : String) : Prop :=
  ∀ value, request.header? name = some value →
    (∃ c ∈ value.toList, ¬ Readable c) ∨ ∀ c ∈ value.toList, Text.isBlank c = true

section Identities

variable {request one other : Request} {name value : String} {scope : Scope}

theorem plainHeader?_eq_none (first : request.header? name = some value) {c : Char}
    (member : c ∈ value.toList) (unreadable : ¬ Readable c) :
    request.plainHeader? name = none := by
  unfold Request.plainHeader?
  rw [first, Option.filter_some, if_neg]
  rw [List.all_eq_true]
  intro all
  exact unreadable (by simpa [Readable] using all c member)

theorem plainHeader?_absent (absent : request.header? name = none) :
    request.plainHeader? name = none := by
  unfold Request.plainHeader?
  rw [absent]
  rfl

theorem identity?_of_plain (plain : request.plainHeader? name = some value) :
    identity? request name = if (Text.trim value.toList).isEmpty then none
      else some (String.ofList (Text.trim value.toList)) := by
  unfold identity?
  rw [plain]

theorem identity?_of_none (absent : request.plainHeader? name = none) :
    identity? request name = none := by
  unfold identity?
  rw [absent]

theorem identity?_eq_none_iff : identity? request name = none ↔ Anonymous request name := by
  unfold Anonymous
  cases first : request.header? name with
  | none => simp [identity?_of_none (plainHeader?_absent first)]
  | some value =>
    simp only [Option.some.injEq, forall_eq']
    by_cases readable : ∀ c ∈ value.toList, Readable c
    · have blank : ¬ ∃ c ∈ value.toList, ¬ Readable c := by simpa using readable
      rw [identity?_of_plain (plainHeader?_visible first readable)]
      simp [blank, ← Text.trim_eq_nil_iff]
    · obtain ⟨c, member, unreadable⟩ : ∃ c ∈ value.toList, ¬ Readable c := by simpa using readable
      rw [identity?_of_none (plainHeader?_eq_none first member unreadable)]
      exact iff_of_true rfl (.inl ⟨c, member, unreadable⟩)

theorem caller_anonymous (missing : Anonymous request "x-org-id" ∨
    (scope = .user ∧ Anonymous request "x-user-id")) :
    caller request scope = .error (.fault .unauthenticated) := by
  unfold caller
  rcases missing with org | ⟨rfl, user⟩
  · rw [identity?_eq_none_iff.2 org]
    cases scope <;> rfl
  · rw [identity?_eq_none_iff.2 user]
    cases identity? request "x-org-id" <;> rfl

/-! ## The same identity -/

/-- White space that can be read in a header. Any other makes the whole value unreadable. -/
def Surrounds (pad : List Char) : Prop := ∀ c ∈ pad, Text.isBlank c = true ∧ Readable c

/-- Neither has the header, or the first values differ at most in the blanks around them. -/
inductive SameFirst (name : String) (one other : Request) : Prop where
  | absent (one : one.header? name = none) (other : other.header? name = none)
  | around (core : List Char) {front back front' back' : List Char}
    (pads : Surrounds front ∧ Surrounds back ∧ Surrounds front' ∧ Surrounds back')
    (one : one.header? name = some (String.ofList (front ++ core ++ back)))
    (other : other.header? name = some (String.ofList (front' ++ core ++ back')))

theorem identity?_around {core front back : List Char} (first : Surrounds front)
    (last : Surrounds back)
    (value : request.header? name = some (String.ofList (front ++ core ++ back))) :
    (identity? request name = none ∧ ∃ c ∈ core, ¬ Readable c) ∨
    ((∀ c ∈ core, Readable c) ∧ identity? request name = if (Text.trim core).isEmpty then none
      else some (String.ofList (Text.trim core))) := by
  by_cases readable : ∀ c ∈ core, Readable c
  · have all : ∀ c ∈ (String.ofList (front ++ core ++ back)).toList, Readable c := by
      intro c member
      simp only [String.toList_ofList, List.mem_append] at member
      rcases member with (before | within) | after
      · exact (first c before).2
      · exact readable c within
      · exact (last c after).2
    refine .inr ⟨readable, ?_⟩
    rw [identity?_of_plain (plainHeader?_visible value all), String.toList_ofList,
      Text.trim_padded (fun c member => (first c member).1) fun c member => (last c member).1]
  · obtain ⟨c, member, unreadable⟩ : ∃ c ∈ core, ¬ Readable c := by simpa using readable
    have within : c ∈ (String.ofList (front ++ core ++ back)).toList := by simp [member]
    exact .inl ⟨identity?_of_none (plainHeader?_eq_none value within unreadable),
      c, member, unreadable⟩

theorem identity?_congr (same : SameFirst name one other) :
    identity? one name = identity? other name := by
  cases same with
  | absent here there =>
    rw [identity?_of_none (plainHeader?_absent here), identity?_of_none (plainHeader?_absent there)]
  | around core pads here there =>
    obtain ⟨first, last, first', last'⟩ := pads
    rcases identity?_around first last here with ⟨gone, c, member, unreadable⟩ | ⟨readable, id⟩
    · rcases identity?_around first' last' there with ⟨gone', -⟩ | ⟨readable, -⟩
      · rw [gone, gone']
      · exact absurd (readable c member) unreadable
    · rcases identity?_around first' last' there with ⟨-, c, member, unreadable⟩ | ⟨-, id'⟩
      · exact absurd (readable c member) unreadable
      · rw [id, id']

/-- Whether a header names who asks. -/
def namesCaller (header : String × String) : Bool :=
  header.1.toLower = "x-org-id" || header.1.toLower = "x-user-id"

/-- At a scope the requests differ only in blanks around the identities that count there, in values
    after the first of their headers, and in identities that do not count. -/
structure Alike (scope : Scope) (one other : Request) : Prop where
  method : one.method = other.method
  target : one.target = other.target
  body : one.body = other.body
  headers : one.headers.filter (!namesCaller ·) = other.headers.filter (!namesCaller ·)
  org : SameFirst "x-org-id" one other
  user : scope = .user → SameFirst "x-user-id" one other

variable (alike : Alike scope one other)
include alike

theorem Alike.caller_eq : caller one scope = caller other scope := by
  unfold caller
  rw [identity?_congr alike.org]
  cases scope with
  | org => cases identity? other "x-org-id" <;> rfl
  | user => rw [identity?_congr (alike.user rfl)]

theorem Alike.update_eq : update one = update other := by
  have apart (h : String × String) (sought : decide (h.1.toLower = "content-type") = true) :
      namesCaller h = false := by
    simp [namesCaller, of_decide_eq_true sought]
  have type : one.header? "content-type" = other.header? "content-type" := by
    unfold Request.header?
    rw [← find?_filter_apart apart one.headers, ← find?_filter_apart apart other.headers,
      alike.headers]
  unfold update Request.plainHeader?
  rw [type, alike.body]

end Identities

/-! ## Answers -/

/-- The request asks for something that there is at the scope, by a method that is served there. -/
inductive Served (request : Request) (scope : Scope) : Prop where
  | list (route : Route.ofPath? (pathOf request.target.toList) = some (.list scope))
    (method : request.method = "GET" ∨ request.method = "HEAD")
  | single (segment : List Char)
    (route : Route.ofPath? (pathOf request.target.toList) = some (.single scope segment))
    (method : request.method = "GET" ∨ request.method = "HEAD" ∨ request.method = "PUT")

/-- What is told to everyone who does not say who they are. -/
def noIdentity (method : String) : Response where
  status := 401
  contentType := some "application/json"
  allow := none
  body := if method = "HEAD" then "" else
    "\x7b\"error\":\x7b\"code\":\"E-AUTH-NOID\",\"message\":\"caller identity is missing\"\x7d\x7d"

section Answers

variable {σ α : Type} {r : Registry} {request : Request} {scope : Scope}

theorem run_anonymous (unknown : caller request scope = .error (.fault .unauthenticated))
    (next : Caller → Handler σ Response) (s : σ) :
    (run (liftM (caller request scope) >>= next)).run s = (noIdentity "GET", s) := by
  have refused : outcome (liftM (caller request scope) >>= next) s
      = (.error (.fault .unauthenticated), s) := by
    refine outcome_bind_error ?_
    rw [outcome_lift, unknown]
  have told : ofRefusal (.fault .unauthenticated) = noIdentity "GET" := by decide +kernel
  rw [run_outcome, refused, ← told]

theorem respond_anonymous [Backend σ] (served : Served request scope)
    (unknown : caller request scope = .error (.fault .unauthenticated)) (s : σ) :
    (respond r request).run s = (noIdentity request.method, s) := by
  -- Each handler begins with the caller, so nothing after it is looked at.
  have told (next : Caller → Handler σ Response) := run_anonymous unknown next s
  have hidden {answer : StateM σ Response} (told : answer.run s = (noIdentity "GET", s)) :
      StateT.run (do return { ← answer with body := "" }) s = (noIdentity "HEAD", s) := by
    rw [StateT.run_bind, told]
    rfl
  unfold respond
  cases served with
  | list route method =>
    rw [route]
    rcases method with get | head
    · rw [get]
      exact told _
    · rw [head]
      exact hidden (told _)
  | single segment route method =>
    rw [route]
    rcases method with get | head | put
    · rw [get]
      exact told _
    · rw [head]
      exact hidden (told _)
    · rw [put]
      exact told _

theorem respond_alike [Backend σ] {one other : Request} (served : Served one scope)
    (alike : Alike scope one other) : respond (σ := σ) r one = respond r other := by
  have hidden {answer answer' : StateM σ Response} (same : answer = answer') :
      (do return { ← answer with body := "" }) = (do return { ← answer' with body := "" }) := by
    rw [same]
  have asked : getList (σ := σ) r one scope = getList r other scope := by
    unfold getList
    rw [alike.caller_eq]
  have read (segment : List Char) :
      getSingle (σ := σ) r one scope segment = getSingle r other scope segment := by
    unfold getSingle
    rw [alike.caller_eq]
  have written (segment : List Char) :
      putSingle (σ := σ) r one scope segment = putSingle r other scope segment := by
    unfold putSingle
    rw [alike.caller_eq, alike.update_eq]
  unfold respond
  rw [← alike.target, ← alike.method]
  cases served with
  | list route method =>
    rw [route]
    rcases method with get | head
    · rw [get]
      exact congrArg run asked
    · rw [head]
      exact hidden (congrArg run asked)
  | single segment route method =>
    rw [route]
    rcases method with get | head | put
    · rw [get]
      exact congrArg run (read segment)
    · rw [head]
      exact hidden (congrArg run (read segment))
    · rw [put]
      exact congrArg run (written segment)

/-- Without an identity the stores and the registry do not matter and are left. With one, what is
    around it does not matter. -/
theorem answers_by_identity_alone [Backend σ] (r : Registry) {request : Request} {scope : Scope}
    (served : Served request scope) (s t : σ) :
    (Anonymous request "x-org-id" ∨ (scope = .user ∧ Anonymous request "x-user-id") →
      (respond r request).run s = (noIdentity request.method, s) ∧
      (respond r request).run t = (noIdentity request.method, t)) ∧
    ∀ other, Alike scope request other → (respond r request).run s = (respond r other).run s := by
  refine ⟨fun missing => ?_, fun other alike => by rw [respond_alike served alike]⟩
  have unknown := caller_anonymous missing
  exact ⟨respond_anonymous served unknown s, respond_anonymous served unknown t⟩

end Answers

/-- A request of a user for a preference whose name in the path is no text. -/
def forNoText (headers : List (String × String)) : Request where
  method := "PUT"
  target := "/api/user/preferences/%FF?from=list"
  headers := headers
  body := []

/-- The store does not matter without a user, nor do blanks and later headers with one. -/
theorem answers_by_identity_alone_noText :
    let nobody := forNoText [("X-Org-Id", "acme"), ("x-user-id", " \t")]
    let ada := forNoText [("X-Org-Id", "acme"), ("x-user-id", "ada")]
    let alsoAda := forNoText [("x-user-id", " ada\t"), ("X-ORG-ID", "acme"), ("x-org-id", "zeta")]
    let filled : Memory := (outcome (Backend.upsert ⟨.org, "acme"⟩ "K" (.integer 1)) Memory.empty).2
    ((respond ⟨[]⟩ nobody).run Memory.empty = (noIdentity "PUT", Memory.empty) ∧
      (respond ⟨[]⟩ nobody).run filled = (noIdentity "PUT", filled)) ∧
    (respond ⟨[]⟩ ada).run filled = (respond ⟨[]⟩ alsoAda).run filled := by
  intro nobody ada alsoAda filled
  have served (headers : List (String × String)) : Served (forNoText headers) .user := by
    refine .single "%FF".toList ?_ (.inr (.inr rfl))
    change Route.ofPath? (pathOf "/api/user/preferences/%FF?from=list".toList) = _
    decide +kernel
  have blank : Anonymous nobody "x-user-id" := identity?_eq_none_iff.1 (by decide +kernel)
  have surrounds (pad : List Char) (h : pad = [] ∨ pad = [' '] ∨ pad = ['\t']) :
      Surrounds pad := by
    rcases h with rfl | rfl | rfl <;> simp [Surrounds, Readable, Text.isBlank]
  have alike : Alike .user ada alsoAda :=
    { method := rfl
      target := rfl
      body := rfl
      headers := by decide +kernel
      org := .around "acme".toList
        ⟨surrounds [] (by simp), surrounds [] (by simp), surrounds [] (by simp),
          surrounds [] (by simp)⟩ (by decide +kernel) (by decide +kernel)
      user := fun _ => .around "ada".toList
        ⟨surrounds [] (by simp), surrounds [] (by simp), surrounds [' '] (by simp),
          surrounds ['\t'] (by simp)⟩ (by decide +kernel) (by decide +kernel) }
  exact ⟨(answers_by_identity_alone ⟨[]⟩ (served _) Memory.empty filled).1 (.inr ⟨rfl, blank⟩),
    (answers_by_identity_alone ⟨[]⟩ (served _) filled filled).2 alsoAda alike⟩

end LayeredPreferences.Http
