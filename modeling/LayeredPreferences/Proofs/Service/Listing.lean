import LayeredPreferences.Proofs.Service.Access
import LayeredPreferences.Proofs.Store.Memory
import LayeredPreferences.Proofs.Store.Tables

set_option autoImplicit false

/-!
# Listing and reading

A list of all preferences shows what reading them one by one shows, as long as
every row of the owners is a text. Bytes that are no text make the list fail, at
whatever key they stand, while the other keys can still be read.
-/
namespace LayeredPreferences

theorem Registry.views_definitions (r : Registry) (scope : Scope)
    (org user : String → Option Value) :
    (r.views scope org user).map View.definition = r.definitions.filter (·.enabledAt scope) := by
  simp [views, Function.comp_def]

namespace Service

open LayeredPreferences.Action

/-- The list at a scope shows the preferences that are enabled there, in the order of the registry,
    each as it is read; no other key can be read. -/
structure ListedAsRead {σ : Type} [Backend σ] (r : Registry) (org user : String) (scope : Scope)
    (s : σ) (views : List View) : Prop where
  listed : outcome (listAt r org user scope) s = (.ok views, s)
  definitions : views.map View.definition = r.definitions.filter (·.enabledAt scope)
  read : ∀ view ∈ views, outcome (readAt r org user view.definition.key scope) s
    = (.ok ⟨view.definition.key, view.value⟩, s)
  others : ∀ key ∉ views.map (·.definition.key),
    outcome (readAt r org user key scope) s = (.error (.notFound key), s) ∨
    outcome (readAt r org user key scope) s = (.error (.forbidden key scope), s)

/-- The owners whose values count at a scope. -/
def owners (org user : String) : Scope → List Owner
  | .org => [⟨.org, org⟩]
  | .user => [⟨.org, org⟩, ⟨.user, user⟩]

section Agreement

variable {σ : Type} [Backend σ] {r : Registry} {org user : String} {scope : Scope} {s : σ}

theorem readAt_shut {key : String} (h : ∀ d ∈ r.definitions, d.key = key → scope ∉ d.scopes) :
    outcome (readAt r org user key scope) s = (.error (.notFound key), s) ∨
    outcome (readAt r org user key scope) s = (.error (.forbidden key scope), s) := by
  rcases r.closed_or_open scope key with ⟨fault, closed⟩ | ⟨d, found, on⟩
  · rw [readAt_closed org user closed]
    cases closed with
    | unknown absent => exact .inl rfl
    | disabled found off => exact .inr rfl
  · obtain ⟨member, same⟩ := Registry.mem_of_find? found
    exact absurd on (h d member same)

theorem listedAsRead (distinct : r.keys.Nodup) (cells : Owner → String → Option Value)
    (h : ∀ owner ∈ owners org user scope, Reads s owner (cells owner)) :
    ListedAsRead r org user scope s
      (r.views scope (cells ⟨.org, org⟩) (cells ⟨.user, user⟩)) := by
  have horg : Reads s ⟨.org, org⟩ (cells ⟨.org, org⟩) := h _ (by cases scope <;> simp [owners])
  have huser : scope = .user → Reads s ⟨.user, user⟩ (cells ⟨.user, user⟩) := by
    rintro rfl
    exact h _ (by simp [owners])
  refine ⟨listAt_reads org user horg huser, r.views_definitions _ _ _, ?_, ?_⟩
  · intro view hview
    obtain ⟨d, hd, rfl⟩ := List.mem_map.1 hview
    obtain ⟨member, on⟩ := List.mem_filter.1 hd
    exact readAt_open org user (Registry.find?_of_mem distinct member)
      (Definition.enabledAt_iff.1 on) horg huser
  · intro key absent
    refine readAt_shut fun d member same on => absent ?_
    have enabled : d ∈ r.definitions.filter (·.enabledAt scope) :=
      List.mem_filter.2 ⟨member, Definition.enabledAt_iff.2 on⟩
    rw [← r.views_definitions scope (cells ⟨.org, org⟩) (cells ⟨.user, user⟩)] at enabled
    obtain ⟨view, hview, rfl⟩ := List.mem_map.1 enabled
    exact List.mem_map.2 ⟨view, hview, same⟩

end Agreement

/-- One owner that cannot be listed is enough for the list to fail. -/
theorem listAt_unreadable {r : Registry} {org user : String} {scope : Scope} {t : Tables}
    (keyed : t.AllKeyed)
    (h : ∃ owner ∈ owners org user scope, ∀ rows, ¬ t.ReadableBy owner rows) :
    ∃ fault, outcome (listAt r org user scope) t = (.error (.store fault), t) := by
  have org_fails (unreadable : ∀ rows, ¬ t.ReadableBy ⟨.org, org⟩ rows) :
      ∃ fault, outcome (listAt r org user scope) t = (.error (.store fault), t) := by
    obtain ⟨fault, failed⟩ := Tables.list_unreadable keyed unreadable
    cases scope with
    | org => exact ⟨fault, outcome_bind_error failed⟩
    | user => exact ⟨fault, outcome_bind_error failed⟩
  -- The organization is listed first at either scope, so its failure is decided first.
  by_cases readable : ∃ rows, t.ReadableBy ⟨.org, org⟩ rows
  · obtain ⟨rows, hrows⟩ := readable
    obtain ⟨owner, asked, unreadable⟩ := h
    cases scope with
    | org =>
      obtain rfl : owner = ⟨.org, org⟩ := by simpa [owners] using asked
      exact org_fails unreadable
    | user =>
      rcases List.mem_cons.1 asked with rfl | asked
      · exact org_fails unreadable
      · obtain rfl : owner = ⟨.user, user⟩ := by simpa using asked
        obtain ⟨fault, failed⟩ := Tables.list_unreadable keyed unreadable
        refine ⟨fault, (outcome_bind_ok (Tables.list_readable hrows)).trans ?_⟩
        exact outcome_bind_error failed
  · exact org_fails fun rows hrows => readable ⟨rows, hrows⟩

/-- In memory a list always agrees with reading. In tables it does where the rows of the owners have
    texts for keys and texts or nothing for values, and fails elsewhere; what is not enabled is not
    read in either case. -/
theorem lists_what_is_read {ds : List Definition} {r : Registry} (loaded : Registry.load ds = .ok r)
    (org user : String) (scope : Scope) :
    (∀ m : Memory, m.failing = [] → ∃ views, ListedAsRead r org user scope m views) ∧
    ∀ t : Tables, t.AllKeyed →
      ((∀ owner ∈ owners org user scope, ∃ rows, t.ReadableBy owner rows) →
        ∃ views, ListedAsRead r org user scope t views) ∧
      ((∃ owner ∈ owners org user scope, ∀ rows, ¬ t.ReadableBy owner rows) →
        ∃ fault, outcome (listAt r org user scope) t = (.error (.store fault), t)) ∧
      ∀ key, (∀ d ∈ r.definitions, d.key = key → scope ∉ d.scopes) →
        outcome (readAt r org user key scope) t = (.error (.notFound key), t) ∨
        outcome (readAt r org user key scope) t = (.error (.forbidden key scope), t) := by
  obtain ⟨-, distinct⟩ := Registry.load_ok loaded
  constructor
  · intro m intact
    refine ⟨_, listedAsRead distinct m.find? fun owner _ => ?_⟩
    exact Memory.reads (by simp [intact]) (by simp [intact])
  · intro t keyed
    refine ⟨fun readable => ?_, listAt_unreadable keyed, fun key shut => readAt_shut shut⟩
    refine ⟨_, listedAsRead distinct t.cell fun owner asked => ?_⟩
    obtain ⟨rows, hrows⟩ := readable owner asked
    exact Tables.reads hrows

/-- A theme of any name, for organizations and users. -/
def theme : Definition where
  key := "THEME"
  name := "Theme"
  description := ""
  valueType := .string
  defaultValue := .string "light"
  domain := .discrete []
  scopes := [.org, .user]

/-- Rows for an unknown key, with nothing in them, with a value of another type, with a text that is
    no JSON, and with bytes of another owner. -/
def oddRows : Tables where
  org := ⟨["acme"], some [⟨"acme", .ofString "RETIRED", some (.ofString "1")⟩,
    ⟨"acme", .ofString "THEME", none⟩]⟩
  user := ⟨["ada"], some [⟨"ada", .ofString "THEME", some (.ofString "no JSON")⟩,
    ⟨"bob", .ofString "THEME", some (.blob [0xff])⟩]⟩

theorem lists_what_is_read_oddRows :
    ∃ views, ListedAsRead ⟨[theme]⟩ "acme" "ada" .user oddRows views := by
  have keyed : oddRows.AllKeyed := by
    intro scope rows h
    cases scope <;> cases h <;> simp [Tables.Keyed, Stored.ofString_inj]
  have loaded : Registry.load [theme] = .ok ⟨[theme]⟩ := rfl
  obtain ⟨-, inTables⟩ := lists_what_is_read loaded "acme" "ada" .user
  obtain ⟨agrees, -⟩ := inTables oddRows keyed
  refine agrees fun owner asked => ?_
  simp only [owners, List.mem_cons, List.not_mem_nil, or_false] at asked
  rcases asked with rfl | rfl
  · refine ⟨_, rfl, keyed .org _ rfl, fun row member _ => ?_⟩
    simp only [List.mem_cons, List.not_mem_nil, or_false] at member
    rcases member with rfl | rfl
    · exact Tables.isText_ofString "acme" "RETIRED" (some "1")
    · exact Tables.isText_ofString "acme" "THEME" none
  · refine ⟨_, rfl, keyed .user _ rfl, fun row member own => ?_⟩
    simp only [List.mem_cons, List.not_mem_nil, or_false] at member
    rcases member with rfl | rfl
    · exact Tables.isText_ofString "ada" "THEME" (some "no JSON")
    · exact absurd own (by decide)

/-- Bytes at a key that is not even registered make the list fail. -/
theorem not_always_listed_as_read : ¬ ∀ (ds : List Definition) (r : Registry) (org user : String)
    (scope : Scope) (t : Tables), Registry.load ds = .ok r →
    t.AllKeyed →
    ∃ views, ListedAsRead r org user scope t views := by
  intro always
  let row : Tables.Row := ⟨"acme", .ofString "RETIRED", some (.blob [97, 98, 99])⟩
  let t : Tables := ⟨⟨["acme"], some [row]⟩, ⟨[], some []⟩⟩
  have keyed : t.AllKeyed := by
    intro scope rows h
    cases scope <;> cases h <;> simp [Tables.Keyed]
  obtain ⟨views, agrees⟩ := always [theme] ⟨[theme]⟩ "acme" "ada" .org t rfl keyed
  obtain ⟨fault, failed⟩ : ∃ fault, outcome (Tables.list ⟨.org, "acme"⟩) t
      = (.error (.store fault), t) := by
    refine Tables.list_unreadable keyed fun rows readable => ?_
    cases readable.present
    obtain ⟨text, same⟩ := (readable.text row (by simp) rfl).value _ rfl
    cases same
  have listed : outcome (listAt ⟨[theme]⟩ "acme" "ada" .org) t = (.error _, t) :=
    outcome_bind_error failed
  cases listed.symm.trans agrees.listed

end Service

end LayeredPreferences
