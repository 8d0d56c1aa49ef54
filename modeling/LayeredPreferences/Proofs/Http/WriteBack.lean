import LayeredPreferences.Proofs.Http.Reached
import LayeredPreferences.Proofs.Http.Shown
import LayeredPreferences.Proofs.Store.Memory
import LayeredPreferences.Proofs.Store.Tables

set_option autoImplicit false

/-!
# What is shown can be written back

Each value that is shown for a preference, as its current value, its default or an
allowed value, is accepted in the text in which it is shown, and is then the
current value.
-/
namespace LayeredPreferences.Http

open LayeredPreferences.Action CellStore Service

variable {σ : Type} [Backend σ]

/-- What a caller is shown of a preference at a scope, and what comes of sending the text of a value
    that is shown there. -/
structure TakesBack (r : Registry) (d : Definition) (scope : Scope) (c : Caller) (s : σ)
    (current : Value) (views : List View) : Prop where
  effective : outcome (readAt r c.org c.user d.key scope) s = (.ok ⟨d.key, current⟩, s)
  read : ∀ get, Addresses get "GET" scope d.key c →
    (respond r get).run s = (shownSingle d.key current.write, s)
  listed : ∀ list, AsksForList list scope c → (respond r list).run s =
    (shownList (views.map fun view => (view.definition, view.value.write)), s)
  view : ∀ view, view ∈ views ∧ view.definition.key = d.key ↔ view = ⟨d, current⟩
  taken : ∀ v, v = current ∨ v = d.defaultValue ∨ v ∈ d.allowedValues →
    ∀ put, Addresses put "PUT" scope d.key c → Brings put v.write → ∃ t,
      (respond r put).run s = (shownSingle d.key v.write, t) ∧
      outcome (readAt r c.org c.user d.key scope) t = (.ok ⟨d.key, v⟩, t) ∧
      ∀ get, Addresses get "GET" scope d.key c →
        (respond r get).run t = (shownSingle d.key v.write, t)

variable [CellStore σ] {r : Registry} {given : Owner → String → Option Value} {s : σ}
  {d : Definition} {scope : Scope}

/-- The value that was given at the scope itself comes before all others. -/
theorem choose_owner (d : Definition) (scope : Scope) (c : Caller)
    (given : Owner → String → Option Value) {v : Value}
    (h : given (c.owner scope) d.key = some v) :
    d.choose scope (given ⟨.org, c.org⟩ d.key) (given ⟨.user, c.user⟩ d.key) = v := by
  cases scope with
  | org =>
    change given ⟨.org, c.org⟩ d.key = some v at h
    rw [h]
    rfl
  | user =>
    change given ⟨.user, c.user⟩ d.key = some v at h
    rw [h]
    rfl

theorem mem_views (h : Keeps r given s) (distinct : r.keys.Nodup) (built : d.Built)
    (float : d.valueType ≠ .float) (found : r.find? d.key = some d) (on : scope ∈ d.scopes)
    (o u : Owner) (view : View) :
    view ∈ r.views scope (cell s o) (cell s u) ∧ view.definition.key = d.key ↔
      view = ⟨d, d.choose scope (given o d.key) (given u d.key)⟩ := by
  rw [← h.effective built float found]
  constructor
  · rintro ⟨member, same⟩
    obtain ⟨e, he, rfl⟩ := List.mem_map.1 member
    have others := Registry.find?_of_mem distinct (List.mem_filter.1 he).1
    change e.key = d.key at same
    rw [same, found] at others
    cases others
    rfl
  · rintro rfl
    have member : d ∈ r.definitions := (Registry.mem_of_find? found).1
    refine ⟨List.mem_map.2 ⟨d, List.mem_filter.2 ⟨member, ?_⟩, rfl⟩, rfl⟩
    exact Definition.enabledAt_iff.2 on

theorem takesBack (h : Keeps r given s) (distinct : r.keys.Nodup) (built : d.Built)
    (float : d.valueType ≠ .float) (found : r.find? d.key = some d) (on : scope ∈ d.scopes)
    (c : Caller) : ∃ current views, TakesBack r d scope c s current views := by
  refine ⟨d.choose scope (given ⟨.org, c.org⟩ d.key) (given ⟨.user, c.user⟩ d.key),
    r.views scope (cell s ⟨.org, c.org⟩) (cell s ⟨.user, c.user⟩), ?_, ?_, ?_, ?_, ?_⟩
  · exact h.readAt built float found on c.org c.user
  · intro get asked
    exact served_single (respond_get asked s) (h.readAt built float found on c.org c.user)
  · intro list asked
    exact served_list (respond_list asked s) (listAt_intact h.intact)
  · exact mem_views h distinct built float found on _ _
  · intro v shown put asked brings
    have valid : d.validate v = .ok v := by
      rcases shown with rfl | rfl | listed
      · exact h.validate_choose built found scope _ _
      · exact built.validate_default
      · exact built.validate_allowed float listed
    have accepted : r.Accepts (c.owner scope).scope d.key v v := by
      rw [c.owner_scope]
      exact ⟨d, found, on, valid⟩
    have sent : update put = .ok v :=
      update_brings brings (Definition.validate_type valid ▸ float)
    obtain ⟨t, stored, kept⟩ := h.write_accepted accepted
    -- What was written is given at the caller's own owner now, and so is what is read next.
    have answer := kept.readAt built float found on c.org c.user
    rw [choose_owner d scope c _ (give_same given _ d.key v)] at answer
    exact ⟨t, served_single (respond_put asked sent s) stored, answer,
      fun get asked' => served_single (respond_get asked' t) answer⟩

/-- Whatever requests and writes there were, in memory or in tables. -/
theorem shown_is_taken_back {ds : List Definition} {r : Registry} (built : ∀ d ∈ ds, d.Built)
    (loaded : Registry.load ds = .ok r) {d : Definition} (member : d ∈ ds)
    (float : d.valueType ≠ .float) {scope : Scope} (on : scope ∈ d.scopes) (c : Caller) :
    (∀ m : Memory, Reached r Memory.empty m →
      ∃ current views, TakesBack r d scope c m current views) ∧
    ∀ t : Tables, Reached r Tables.empty t →
      ∃ current views, TakesBack r d scope c t current views := by
  obtain ⟨rfl, distinct⟩ := Registry.load_ok loaded
  have found : r.find? d.key = some d := Registry.find?_of_mem distinct member
  constructor
  · intro m reached
    obtain ⟨given, kept⟩ := keeps_reached reached
    exact takesBack kept distinct (built d member) float found on c
  · intro t reached
    obtain ⟨given, kept⟩ := keeps_reached reached
    exact takesBack kept distinct (built d member) float found on c

/-- A number for organizations and users. -/
def volume : Definition where
  key := "VOLUME"
  name := "VOLUME"
  description := ""
  valueType := .integer
  defaultValue := .integer 5
  domain := .range ⟨0, 10⟩
  scopes := [.org, .user]

/-- A request about the volume of a user. -/
def forVolume (method : String) (body : List UInt8) : Request where
  method := method
  target := "/api/user/preferences/VOL%55ME?from=list"
  headers := [("x-org-id", "acme"), ("X-User-Id", " ada "), ("content-type", "application/json")]
  body := body

theorem addresses_volume (method : String) (body : List UInt8) :
    Addresses (forVolume method body) method .user "VOLUME" ⟨"acme", "ada"⟩ where
  method := rfl
  route := by
    refine ⟨"VOL%55ME".toList, ?_, by decide +kernel⟩
    change Route.ofPath? (pathOf "/api/user/preferences/VOL%55ME?from=list".toList) = _
    decide +kernel
  caller := by
    have org : identity? (forVolume method body) "x-org-id" = some "acme" := by
      change identity? (forVolume "GET" []) "x-org-id" = _
      decide +kernel
    have user : identity? (forVolume method body) "x-user-id" = some "ada" := by
      change identity? (forVolume "GET" []) "x-user-id" = _
      decide +kernel
    simp only [caller, org, user]

/-- The default is sent back although the organization has another value. -/
theorem shown_is_taken_back_volume :
    let louder := Service.write ⟨[volume]⟩ ⟨.org, "acme"⟩ "VOLUME" (.integer 7)
    let s := (outcome louder Tables.empty).2
    let put := forVolume "PUT" ("\x7b\"preference_value\": 5\x7d".toList.flatMap String.utf8EncodeChar)
    let told (body : String) : Response := ⟨200, some "application/json", none, body⟩
    (respond ⟨[volume]⟩ (forVolume "GET" [])).run s
      = (told "\x7b\"data\":\x7b\"preference_id\":\"VOLUME\",\"preference_value\":7\x7d\x7d", s) ∧
    ∃ t, (respond ⟨[volume]⟩ put).run s
        = (told "\x7b\"data\":\x7b\"preference_id\":\"VOLUME\",\"preference_value\":5\x7d\x7d", t) ∧
      (respond ⟨[volume]⟩ (forVolume "GET" [])).run t
        = (told "\x7b\"data\":\x7b\"preference_id\":\"VOLUME\",\"preference_value\":5\x7d\x7d", t) := by
  intro louder s put told
  have built : volume.Built :=
    ⟨(Draft.ofKey "VOLUME").applyAll [.defaultValue (.integer 5), .range ⟨0, 10⟩,
      .scopes [.org, .user]], rfl⟩
  have loaded : Registry.load [volume] = .ok ⟨[volume]⟩ := rfl
  obtain ⟨-, inTables⟩ := shown_is_taken_back (by simpa using built) loaded
    (List.mem_singleton.2 rfl) (by decide) (show Scope.user ∈ volume.scopes by decide)
    ⟨"acme", "ada"⟩
  obtain ⟨current, views, back⟩ := inTables s (.write .start ⟨.org, "acme"⟩ "VOLUME" (.integer 7))
  have brings : Brings put volume.defaultValue.write :=
    { type := ⟨"application/json", by decide +kernel, by decide +kernel⟩
      size := by decide +kernel
      body := ⟨[' '], by simp [Json.Blanks, Json.Glyph.isBlank], by decide +kernel⟩ }
  obtain ⟨t, taken, -, next⟩ := back.taken _ (.inr (.inl rfl)) put (addresses_volume "PUT" _) brings
  have seven : current = .integer 7 := by
    have read : (outcome (readAt ⟨[volume]⟩ "acme" "ada" "VOLUME" .user) s).1.toOption.map
        Effective.value = some (.integer 7) := by decide +kernel
    have shown := congrArg (fun o => o.1.toOption.map Effective.value) back.effective
    exact Option.some_inj.1 (shown.symm.trans read)
  have printed (n : Int64) (body : String)
      (same : (shownSingle "VOLUME" (Value.integer n).write).body = body) :
      shownSingle "VOLUME" (Value.integer n).write = told body := by
    rw [← same]
    rfl
  refine ⟨?_, t, ?_, ?_⟩
  · rw [back.read _ (addresses_volume "GET" []), seven]
    exact congrArg (·, s) (printed 7 _ (by decide +kernel))
  · rw [taken]
    exact congrArg (·, t) (printed 5 _ (by decide +kernel))
  · rw [next _ (addresses_volume "GET" [])]
    exact congrArg (·, t) (printed 5 _ (by decide +kernel))

end LayeredPreferences.Http
