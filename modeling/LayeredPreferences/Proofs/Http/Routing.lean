import LayeredPreferences.Proofs.Http.Serving
import LayeredPreferences.Proofs.Text.Blank
import LayeredPreferences.Proofs.Text.Percent

set_option autoImplicit false

/-!
# Requests that ask for something

A list of preferences is at the path of its scope, and a single preference is below
it, in a segment that spells its key. Callers are named in headers.
-/
namespace LayeredPreferences.Http

/-! ## Paths -/

def listPath : Scope → String
  | .org => "/api/org/preferences"
  | .user => "/api/user/preferences"

def singlePath (scope : Scope) (segment : List Char) : List Char :=
  (listPath scope).toList ++ '/' :: segment

/-- The target starts with the path. A query may follow. -/
def Targets (request : Request) (path : List Char) : Prop :=
  ∃ rest : List Char, (∀ c ∈ rest.head?, c = '?' ∨ c = '#') ∧
    request.target.toList = path ++ rest

theorem pathOf_append {path rest : List Char} (slash : path.head? = some '/')
    (plain : ∀ c ∈ path, c ≠ '?' ∧ c ≠ '#') (ends : ∀ c ∈ rest.head?, c = '?' ∨ c = '#') :
    pathOf (path ++ rest) = path := by
  have first : (path ++ rest).head? = some '/' := by rw [List.head?_append, slash]; rfl
  have ended : rest.takeWhile (fun c => !(c = '?' || c = '#')) = [] := by
    cases rest with
    | nil => rfl
    | cons c cs => exact List.takeWhile_cons_of_neg (by rcases ends c rfl with rfl | rfl <;> simp)
  have origin : pathOf (path ++ rest)
      = (path ++ rest).takeWhile fun c => !(c = '?' || c = '#') := by
    unfold pathOf
    dsimp only
    rw [if_pos first]
  rw [origin, List.takeWhile_append_of_pos (by simpa using plain), ended, List.append_nil]

theorem segments_path {parts : List (List Char)} (h : ∀ part ∈ parts, '/' ∉ part) :
    segments (parts.flatMap ('/' :: ·)) = [] :: parts := by
  have joined : ∀ (start : List Char) (parts : List (List Char)),
      ['/'].intercalate (start :: parts) = start ++ parts.flatMap ('/' :: ·) := by
    intro start parts
    induction parts generalizing start with
    | nil => simp [List.intercalate]
    | cons part parts ih => simp [List.intercalate_cons_cons, ih]
  have parted : (['/'].intercalate ([] :: parts)).splitOn '/' = [] :: parts :=
    List.splitOn_intercalate '/' (by simpa using h) (by simp)
  rwa [joined, List.nil_append] at parted

theorem ofPath?_list (scope : Scope) :
    Route.ofPath? (listPath scope).toList = some (.list scope) := by
  cases scope <;> decide +kernel

theorem ofPath?_single (scope : Scope) {segment : List Char} (named : segment ≠ [])
    (slash : '/' ∉ segment) :
    Route.ofPath? (singlePath scope segment) = some (.single scope segment) := by
  have parts : singlePath scope segment
      = ["api".toList, scope.name.toList, "preferences".toList, segment].flatMap ('/' :: ·) := by
    cases scope <;> simp [singlePath, listPath, Scope.name]
  have parted : segments (singlePath scope segment)
      = [] :: ["api".toList, scope.name.toList, "preferences".toList, segment] := by
    rw [parts, segments_path]
    cases scope <;> simpa [Scope.name] using slash
  unfold Route.ofPath?
  rw [parted]
  cases scope <;> simp [Scope.name, named]

theorem spelling_plain {segment : List Char} {bs : List UInt8} (h : Text.Spells segment bs)
    {c : Char} (member : c ∈ segment) : Text.isSegmentChar c = true ∨ c = '%' := by
  induction h with
  | nil => simp at member
  | plain allowed _ ih =>
    rcases List.mem_cons.1 member with rfl | later
    · exact .inl allowed
    · exact ih later
  | escaped first second _ ih =>
    simp only [List.mem_cons] at member
    rcases member with rfl | rfl | rfl | later
    · exact .inr rfl
    · exact .inl (Text.hexDigit_segmentChar first)
    · exact .inl (Text.hexDigit_segmentChar second)
    · exact ih later

/-! ## Callers -/

/-- The header holds visible characters, and the id is what is left of them without the blanks at
    both ends. -/
def Identifies (request : Request) (header id : String) : Prop :=
  ∃ value, request.header? header = some value ∧
    (∀ c ∈ value.toList, c = '\t' ∨ (0x20 ≤ c.toNat ∧ c.toNat < 0x7f)) ∧
    (∃ c ∈ value.toList, Text.isBlank c = false) ∧
    id = String.ofList (Text.trim value.toList)

/-- Nothing is asked about a user at the scope of organizations. -/
inductive Calls (request : Request) : Scope → Caller → Prop where
  | org {org : String} (header : Identifies request "x-org-id" org) : Calls request .org ⟨org, ""⟩
  | user {org user : String} (header : Identifies request "x-org-id" org)
    (other : Identifies request "x-user-id" user) : Calls request .user ⟨org, user⟩

theorem plainHeader?_visible {request : Request} {header value : String}
    (held : request.header? header = some value)
    (visible : ∀ c ∈ value.toList, c = '\t' ∨ (0x20 ≤ c.toNat ∧ c.toNat < 0x7f)) :
    request.plainHeader? header = some value := by
  rw [Request.plainHeader?, held, Option.filter_some, if_pos]
  simpa using visible

theorem identity?_eq {request : Request} {header id : String} (h : Identifies request header id) :
    identity? request header = some id := by
  obtain ⟨value, held, visible, ⟨c, member, shown⟩, rfl⟩ := h
  have named : (Text.trim value.toList).isEmpty = false := by
    rw [List.isEmpty_eq_false_iff, Ne, Text.trim_eq_nil_iff]
    intro blank
    rw [blank c member] at shown
    cases shown
  simp [identity?, plainHeader?_visible held visible, named]

theorem caller_eq {request : Request} {scope : Scope} {c : Caller} (h : Calls request scope c) :
    caller request scope = .ok c := by
  cases h with
  | org header => simp [caller, identity?_eq header]
  | user header other => simp [caller, identity?_eq header, identity?_eq other]

end LayeredPreferences.Http
