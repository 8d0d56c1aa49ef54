import LayeredPreferences.Proofs.Http.Envelope
import LayeredPreferences.Proofs.Json.Finite
import LayeredPreferences.Proofs.Service.Typing

set_option autoImplicit false

/-!
# Floats stay finite over requests

Of a float that was put and stored as text a finite float is read again. So a preference of this type
is told in every response as a number with a fraction or an exponent, and never as `null`, a whole
number or a string.
-/
namespace LayeredPreferences

open LayeredPreferences.Action CellStore

/-! ## Values -/

namespace Value

/-- The text of a finite float, a number with a fraction or an exponent. -/
structure IsRealText (text : List Char) : Prop where
  float : ∃ x : Binary64, x.isFinite = true ∧ text = write (.float x)
  number : ∃ l : Json.Literal, l.WellFormed ∧ (l.fraction ≠ [] ∨ l.power ≠ none) ∧ text = l.text

def IsReal (v : Value) : Prop := ∃ x : Binary64, v = .float x ∧ x.isFinite = true

theorem isReal_float {x : Binary64} (finite : x.isFinite = true) : IsReal (.float x) :=
  ⟨x, rfl, finite⟩

theorem IsReal.text {v : Value} (real : v.IsReal) : IsRealText v.write := by
  obtain ⟨x, rfl, finite⟩ := real
  obtain ⟨l, readable, text⟩ := Json.writeReal_readable finite
  exact ⟨⟨x, finite, rfl⟩, l, readable.toWellFormed, readable.part, text.symm⟩

theorem IsFinite.isReal {v : Value} (finite : v.IsFinite) (float : v.type = .float) : v.IsReal := by
  cases v with
  | float x => exact isReal_float (finite x rfl)
  | _ => cases float

theorem isReal_returned {v : Value} (real : v.IsReal) : (decode v.encode).IsReal := by
  obtain ⟨x, rfl, finite⟩ := real
  obtain ⟨y, read⟩ := decode_encode_finite finite
  have same := decode_finite (encode (.float x))
  rw [read] at same ⊢
  exact isReal_float (same y rfl)

/-- No value becomes a float by being accepted. -/
theorem IsFinite.coerced {v w : Value} {type : ValueType} (finite : v.IsFinite)
    (h : v.coerce type = .ok w) : w.IsFinite := by
  unfold coerce at h
  split at h
  · split at h
    · cases h
      nofun
    · cases h
  · split_ifs at h
    cases h
    exact finite

end Value

namespace Definition

theorem effective_isReal {d : Definition} (float : d.valueType = .float)
    (default : d.defaultValue.IsReal) {org user : Option Value} (horg : ∀ v ∈ org, v.IsReal)
    (huser : ∀ v ∈ user, v.IsReal) (scope : Scope) : (d.effective scope org user).IsReal := by
  have kept (v : Value) : d.sanitize v = v := by
    unfold sanitize
    rw [if_neg (by simp [float])]
  cases scope with
  | org =>
    cases org with
    | none => exact default
    | some v =>
      rw [effective, kept]
      exact horg v rfl
  | user =>
    rw [effective, kept]
    change (d.choose .user org user).IsReal
    rcases d.choose_cases .user org user with unset | inOrg | inUser
    · rw [unset]
      exact default
    · exact horg _ inOrg
    · exact huser _ inUser

end Definition

namespace Http

open Service

/-! ## Responses -/

/-- The preferences that a response tells, with the texts of their values. -/
inductive Tells : Response → List (String × List Char) → Prop where
  | refused {response : Response} (status : response.status ≠ 200) : Tells response []
  | silent {response : Response} (empty : response.body = "") : Tells response []
  | single (key : String) (v : Value) : Tells (shownSingle key v.write) [(key, v.write)]
  | list (views : List View) :
    Tells (shownList (views.map fun view => (view.definition, view.value.write)))
      (views.map fun view => (view.definition.key, view.value.write))

theorem tells_effective (e : Effective) : Tells (data e.write) [(e.key, e.value.write)] :=
  data_effective e ▸ .single e.key e.value

theorem tells_views (views : List View) : Tells (data (View.writeAll views))
    (views.map fun view => (view.definition.key, view.value.write)) :=
  data_views views ▸ .list views

/-- What the service did for a response. -/
inductive Serves {σ : Type} [Backend σ] (r : Registry) (request : Request) (s : σ) :
    Response × σ → Prop where
  | refused {response : Response} (status : response.status ≠ 200) : Serves r request s (response, s)
  | silent {response : Response} (empty : response.body = "") : Serves r request s (response, s)
  | read (org user key : String) (scope : Scope) {e : Effective}
    (answer : outcome (readAt r org user key scope) s = (.ok e, s)) :
    Serves r request s (data e.write, s)
  | list (org user : String) (scope : Scope) {views : List View}
    (answer : outcome (listAt r org user scope) s = (.ok views, s)) :
    Serves r request s (data (View.writeAll views), s)
  | write {owner : Owner} {key : String} {v : Value} {e : Effective} {t : σ}
    (sent : update request = .ok v)
    (answer : outcome (Service.write r owner key v) s = (.ok e, t)) :
    Serves r request s (data e.write, t)

theorem status_refusal (refusal : Refusal) : (ofRefusal refusal).status ≠ 200 := by
  cases refusal with
  | fault fault => cases fault <;> simp [ofRefusal, ofFault, json, status]
  | badBody fault =>
    change (if fault.cause.isShape then plain 422 _ else plain 400 _).status ≠ 200
    split <;> simp [plain]
  | _ => simp [ofRefusal, plain]

section Serving

variable {σ : Type} [Backend σ] {r : Registry} {request : Request} {s : σ}

def finished (o : Except Refusal Response × σ) : Response × σ :=
  match o with
  | (.ok response, t) => (response, t)
  | (.error refusal, t) => (ofRefusal refusal, t)

theorem serves_refusal (refusal : Refusal) :
    Serves r request s (finished (.error refusal, s)) := .refused (status_refusal refusal)

theorem serves_serve {α : Type} {action : Action σ α} {write : α → List Char}
    (answered : ∀ a t, outcome action s = (.ok a, t) → Serves r request s (data (write a), t))
    (left : ∀ fault, (outcome action s).1 = .error fault → (outcome action s).2 = s) :
    Serves r request s (finished (outcome (serve action write) s)) := by
  rw [outcome_serve]
  rcases answer : outcome action s with ⟨fault | a, t⟩
  · have same := left fault (congrArg Prod.fst answer)
    rw [answer] at same
    obtain rfl : t = s := same
    exact serves_refusal _
  · exact answered a t answer

/-- An action that leaves the store answers there, or fails there. -/
theorem serves_leaving {α : Type} {action : Action σ α} {write : α → List Char}
    (leaves : Leaves action)
    (answered : ∀ a, outcome action s = (.ok a, s) → Serves r request s (data (write a), s)) :
    Serves r request s (finished (outcome (serve action write) s)) := by
  refine serves_serve (fun a t answer => ?_) fun _ _ => leaves s
  have left := leaves s
  rw [answer] at left
  obtain rfl : t = s := left
  exact answered a answer

/-- The body is left out of such a response, whatever it would be. -/
theorem serves_headed {handler : Handler σ Response} (leaves : (outcome handler s).2 = s) :
    Serves r request s ((do return { ← run handler with body := "" } : StateM σ Response).run s) := by
  have left := run_store handler s
  rw [leaves] at left
  change Serves r request s ({ ((run handler).run s).1 with body := "" }, ((run handler).run s).2)
  rw [left]
  exact .silent rfl

variable [Steady σ]

theorem serves_getList (scope : Scope) :
    Serves r request s ((run (getList r request scope)).run s) := by
  rw [run_outcome]
  change Serves r request s (finished _)
  unfold getList
  refine check_outcome (Q := fun o => Serves r request s (finished o)) _ serves_refusal fun c => ?_
  have leaves := listAt_steady (σ := σ) r c.org c.user scope
  cases scope with
  | org => exact serves_leaving leaves fun _ => .list c.org c.user .org
  | user => exact serves_leaving leaves fun _ => .list c.org c.user .user

theorem serves_getSingle (scope : Scope) (segment : List Char) :
    Serves r request s ((run (getSingle r request scope segment)).run s) := by
  rw [run_outcome]
  change Serves r request s (finished _)
  unfold getSingle
  refine check_outcome (Q := fun o => Serves r request s (finished o)) _ serves_refusal fun c => ?_
  refine check_outcome (Q := fun o => Serves r request s (finished o)) _ serves_refusal fun key => ?_
  have leaves := readAt_steady (σ := σ) r c.org c.user key scope
  cases scope with
  | org => exact serves_leaving leaves fun _ => .read c.org c.user key .org
  | user => exact serves_leaving leaves fun _ => .read c.org c.user key .user

theorem serves_putSingle (scope : Scope) (segment : List Char) :
    Serves r request s ((run (putSingle r request scope segment)).run s) := by
  rw [run_outcome]
  change Serves r request s (finished _)
  unfold putSingle
  refine check_outcome (Q := fun o => Serves r request s (finished o)) _ serves_refusal fun c => ?_
  refine check_outcome (Q := fun o => Serves r request s (finished o)) _ serves_refusal fun key => ?_
  cases sent : update request with
  | error refusal => exact serves_refusal refusal
  | ok v => exact serves_serve (fun e t answer => .write sent answer) fun _ => write_error_leaves r

theorem serves_respond (r : Registry) (request : Request) (s : σ) :
    Serves r request s ((respond r request).run s) := by
  unfold respond
  split
  · exact .refused (by simp [bare])
  · exact serves_getList _
  · exact serves_headed (getList_leaves leftByReading_steady request _)
  · exact .refused (by simp [bare])
  · exact serves_getSingle _ _
  · exact serves_headed (getSingle_leaves leftByReading_steady request _ _)
  · exact serves_putSingle _ _
  · exact .refused (by simp [bare])

end Serving

/-! ## Values that are put -/

theorem updateShape_finite {v : Value} {bytes : List UInt8}
    (parsed : Json.parse updateShape (.ofBytes bytes) = .ok (some v)) : v.IsFinite := by
  obtain ⟨rest, read, -⟩ := Json.whole_inv parsed
  refine Json.record_keeps (P := fun v : Option Value => ∀ w ∈ v, w.IsFinite) ?_ (by simp) read v rfl
  intro field listed room source put rest taken x _ w new
  obtain rfl := List.mem_singleton.1 listed
  obtain ⟨w', _, value, ended⟩ := Json.bind_inv taken
  cases ended
  cases new
  exact Value.shape_finite value

/-- No body brings an infinity. -/
theorem update_finite {request : Request} {v : Value} (h : update request = .ok v) : v.IsFinite := by
  unfold update at h
  split at h
  · cases h
  · split at h
    · cases h
    · split at h
      · cases h
      · split at h
        · cases h
          exact updateShape_finite ‹_›
        · cases h
        · cases h

/-! ## Stores of finite floats -/

/-- The values in the tables were accepted, and those that are floats are finite. -/
def KeepsFinite (r : Registry) (t : Tables) : Prop :=
  ∃ given, Keeps r given t ∧ ∀ owner key v, given owner key = some v → v.IsFinite

namespace KeepsFinite

variable {r : Registry} {t : Tables} {d : Definition}

theorem empty (r : Registry) : KeepsFinite r Tables.empty := ⟨_, .empty r, nofun⟩

theorem cell_isReal (h : KeepsFinite r t) (found : r.find? d.key = some d)
    (float : d.valueType = .float) (owner : Owner) : ∀ v ∈ CellStore.cell t owner d.key, v.IsReal := by
  obtain ⟨given, kept, finite⟩ := h
  intro v stored
  rw [kept.cells] at stored
  obtain ⟨w, before, rfl⟩ := Option.map_eq_some_iff.1 stored
  have type := kept.type_given found owner w before
  exact Value.isReal_returned ((finite owner d.key w before).isReal (type.trans float))

theorem effective_isReal (h : KeepsFinite r t) (found : r.find? d.key = some d)
    (float : d.valueType = .float) (default : d.defaultValue.IsReal) (scope : Scope) (o u : Owner) :
    (d.effective scope (CellStore.cell t o d.key) (CellStore.cell t u d.key)).IsReal :=
  Definition.effective_isReal float default (h.cell_isReal found float o)
    (h.cell_isReal found float u) scope

theorem write (h : KeepsFinite r t) {owner : Owner} {key : String} {v w : Value}
    (accepted : r.Accepts owner.scope key v w) (finite : v.IsFinite) :
    w.IsFinite ∧ ∃ t', outcome (Service.write r owner key v) t = (.ok ⟨key, w⟩, t') ∧
      KeepsFinite r t' := by
  obtain ⟨given, kept, before⟩ := h
  obtain ⟨t', stored, kept'⟩ := kept.write_accepted accepted
  obtain ⟨d, -, -, valid⟩ := accepted
  have taken : w.IsFinite := finite.coerced (Definition.validate_eq_ok.1 valid).1
  refine ⟨taken, t', stored, _, kept', fun o k x hx => ?_⟩
  unfold give at hx
  split at hx
  · cases hx
    exact taken
  · exact before o k x hx

/-- One request: what is told of the preference is the text of a finite float, and the store stays
    such. -/
theorem respond (h : KeepsFinite r t) (distinct : r.keys.Nodup) (found : r.find? d.key = some d)
    (float : d.valueType = .float) (default : d.defaultValue.IsReal) (request : Request) :
    (∃ told, Tells ((Http.respond r request).run t).1 told ∧
      ∀ text, (d.key, text) ∈ told → Value.IsRealText text) ∧
      KeepsFinite r ((Http.respond r request).run t).2 := by
  have intact : CellStore.Intact t := by
    obtain ⟨given, kept, -⟩ := h
    exact kept.intact
  generalize same : (Http.respond r request).run t = o
  have serves := same ▸ serves_respond r request t
  cases serves with
  | refused status => exact ⟨⟨[], .refused status, nofun⟩, h⟩
  | silent empty => exact ⟨⟨[], .silent empty, nofun⟩, h⟩
  | @read org user key scope e answer =>
    refine ⟨⟨_, tells_effective e, fun text told => ?_⟩, h⟩
    rcases r.closed_or_open scope key with ⟨fault, closed⟩ | ⟨d', found', on⟩
    · rw [readAt_closed org user closed] at answer
      cases answer
    · rw [readAt_intact intact found' on] at answer
      cases answer
      cases List.mem_singleton.1 told
      cases found.symm.trans found'
      exact (h.effective_isReal found float default scope _ _).text
  | @list org user scope views answer =>
    refine ⟨⟨_, tells_views views, fun text told => ?_⟩, h⟩
    rw [listAt_intact intact] at answer
    cases answer
    obtain ⟨view, listed, entry⟩ := List.mem_map.1 told
    obtain ⟨d', enabled, rfl⟩ := List.mem_map.1 listed
    obtain ⟨key, rfl⟩ := Prod.mk.inj entry
    have found' := Registry.find?_of_mem distinct (List.mem_filter.1 enabled).1
    change d'.key = d.key at key
    rw [key] at found'
    cases found.symm.trans found'
    exact (h.effective_isReal found float default scope _ _).text
  | @write owner key v e t' sent answer =>
    rcases r.refuses_or_accepts owner.scope key v with ⟨fault, refused⟩ | ⟨w, accepted⟩
    · rw [write_refused refused] at answer
      cases answer
    · obtain ⟨finite, t'', stored, kept⟩ := h.write accepted (update_finite sent)
      rw [stored] at answer
      cases answer
      refine ⟨⟨_, tells_effective ⟨key, w⟩, fun text told => ?_⟩, kept⟩
      cases List.mem_singleton.1 told
      obtain ⟨d', found', -, valid⟩ := accepted
      cases found.symm.trans found'
      exact (finite.isReal ((Definition.validate_type valid).trans float)).text

end KeepsFinite

/-! ## Any number of requests -/

/-- The responses to requests that are made one after the other, and the store in the end. -/
def respondAll {σ : Type} [Backend σ] (r : Registry) : List Request → σ → List Response × σ
  | [], s => ([], s)
  | request :: requests, s =>
    let first := (respond r request).run s
    let others := respondAll r requests first.2
    (first.1 :: others.1, others.2)

theorem KeepsFinite.respondAll {r : Registry} {t : Tables} {d : Definition} (h : KeepsFinite r t)
    (distinct : r.keys.Nodup) (found : r.find? d.key = some d) (float : d.valueType = .float)
    (default : d.defaultValue.IsReal) (requests : List Request) :
    (∀ response ∈ (Http.respondAll r requests t).1, ∃ told, Tells response told ∧
      ∀ text, (d.key, text) ∈ told → Value.IsRealText text) ∧
      KeepsFinite r (Http.respondAll r requests t).2 := by
  induction requests generalizing t with
  | nil => exact ⟨nofun, h⟩
  | cons request requests ih =>
    obtain ⟨told, kept⟩ := h.respond distinct found float default request
    obtain ⟨others, ended⟩ := ih kept
    exact ⟨List.forall_mem_cons.2 ⟨told, others⟩, ended⟩

/-- Whatever is requested, with whatever bodies: what is told of a float preference is the text of a
    finite float. A caller that asks for it, or for a list, is told one. -/
theorem floats_stay_finite {ds : List Definition} {r : Registry} (loaded : Registry.load ds = .ok r)
    {d : Definition} (member : d ∈ ds) (float : d.valueType = .float) {x : Binary64}
    (default : d.defaultValue = .float x) (finite : x.isFinite = true) (requests : List Request) :
    let ended := respondAll r requests Tables.empty
    (∀ response ∈ ended.1, ∃ told, Tells response told ∧
      ∀ text, (d.key, text) ∈ told → Value.IsRealText text) ∧
    ∀ scope ∈ d.scopes, ∀ c : Caller,
      (∀ get, Addresses get "GET" scope d.key c → ∃ text, Value.IsRealText text ∧
        (respond r get).run ended.2 = (shownSingle d.key text, ended.2)) ∧
      ∀ list, AsksForList list scope c → ∃ (v : Value) (views : List View),
        Value.IsRealText v.write ∧ ⟨d, v⟩ ∈ views ∧ (respond r list).run ended.2 =
          (shownList (views.map fun view => (view.definition, view.value.write)), ended.2) := by
  intro ended
  obtain ⟨rfl, distinct⟩ := Registry.load_ok loaded
  have found := Registry.find?_of_mem distinct member
  have unset : d.defaultValue.IsReal := default ▸ Value.isReal_float finite
  obtain ⟨told, kept⟩ :=
    (KeepsFinite.empty r).respondAll distinct found float unset requests
  refine ⟨told, fun scope on c => ⟨fun get asked => ?_, fun list asked => ?_⟩⟩
  all_goals
    have real := kept.effective_isReal found float unset scope ⟨.org, c.org⟩ ⟨.user, c.user⟩
    obtain ⟨given, intact, -⟩ := kept
    have intact := intact.intact
  · exact ⟨_, real.text, served_single (respond_get asked _) (readAt_intact intact found on)⟩
  · refine ⟨_, _, real.text, ?_, served_list (respond_list asked _) (listAt_intact intact)⟩
    exact List.mem_map.2 ⟨d, List.mem_filter.2 ⟨member, Definition.enabledAt_iff.2 on⟩, rfl⟩

/-- A request about the rate of an organization. -/
def forRate (method value : String) : Request where
  method := method
  target := "/api/org/preferences/RATE"
  headers := [("x-org-id", "acme"), ("content-type", "application/json")]
  body := ("\x7b\"preference_value\":" ++ value ++ "\x7d").toList.flatMap String.utf8EncodeChar

theorem addresses_rate : Addresses (forRate "GET" "") "GET" .org "RATE" ⟨"acme", ""⟩ where
  method := rfl
  route := ⟨"RATE".toList, by decide +kernel, by decide +kernel⟩
  caller := by
    have org : identity? (forRate "GET" "") "x-org-id" = some "acme" := by decide +kernel
    simp only [caller, org]

/-- The last of the finite floats is put, what is too large, and what is no float. -/
theorem floats_stay_finite_rate :
    let ended := respondAll ⟨[Operation.rate]⟩ [forRate "PUT" "1.7976931348623157e308",
      forRate "PUT" "1e309", forRate "PUT" "1"] Tables.empty
    (∀ response ∈ ended.1, ∃ told, Tells response told ∧
      ∀ text, ("RATE", text) ∈ told → Value.IsRealText text) ∧
    (∃ text, Value.IsRealText text ∧ (respond ⟨[Operation.rate]⟩ (forRate "GET" "")).run ended.2
      = (shownSingle "RATE" text, ended.2)) ∧
    ((respond ⟨[Operation.rate]⟩ (forRate "GET" "")).run ended.2).1
      = ⟨200, some "application/json", none,
        "\x7b\"data\":\x7b\"preference_id\":\"RATE\",\"preference_value\":1.7976931348623157e+308\x7d\x7d"⟩ := by
  obtain ⟨told, asked⟩ := @floats_stay_finite [Operation.rate] ⟨[Operation.rate]⟩ rfl Operation.rate
    (by simp) rfl (.finite false ⟨0x3fe0000000000000, by decide⟩) rfl rfl
    [forRate "PUT" "1.7976931348623157e308", forRate "PUT" "1e309", forRate "PUT" "1"]
  exact ⟨told, (asked .org (by decide) ⟨"acme", ""⟩).1 _ addresses_rate, by decide +kernel⟩

end Http

end LayeredPreferences
