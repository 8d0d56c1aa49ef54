import LayeredPreferences.Proofs.Definition.LastWord
import LayeredPreferences.Proofs.Json.Record
import LayeredPreferences.Proofs.Json.Suffix
import LayeredPreferences.Proofs.Service.Intact
import LayeredPreferences.Proofs.Store.Memory
import LayeredPreferences.Proofs.Text.Percent
import LayeredPreferences.Startup

set_option autoImplicit false

/-!
# Starting from a file

A server starts with all definitions of its file, or it does not start. The text
of the file is looked at before the first definition is made, and all definitions
are made before the first one is registered.
-/
namespace LayeredPreferences

/-! ## Entries -/

namespace Entry

theorem define_built {e : Entry} {d : Definition} (h : e.define = .ok d) : d.Built := ⟨_, h⟩

theorem define_key {e : Entry} {d : Definition} (h : e.define = .ok d) : d.key = e.key :=
  (Draft.finish_eq_ok.1 h).key.trans (Draft.applyAll_key _ _)

section Shape

open Json

theorem suffix_value (room : Nat) : LeavesSuffix (Value.shape room) := by
  refine (suffix_kept room).bind fun seen => ?_
  split
  · exact suffix_pure _
  · exact suffix_refuse _

theorem suffix_range (room : Nat) : LeavesSuffix (ValueRange.shape room) := by
  refine suffix_record _ ?_ _ room
  intro field member room
  simp only [List.mem_cons, List.not_mem_nil, or_false] at member
  rcases member with rfl | rfl
  all_goals exact suffix_fieldRequired suffix_integer _ _ room

theorem shorter_shape {room : Nat} {source rest : Source} {e : Entry}
    (h : shape room source = .ok (e, rest)) : rest.length < source.length := by
  refine (shorter_record _ ?_ _ _ h).2
  intro field member room
  simp only [fields, List.mem_cons, List.not_mem_nil, or_false] at member
  rcases member with rfl | rfl | rfl | rfl | rfl | rfl | rfl | rfl | rfl
  · exact suffix_fieldRequired suffix_string _ _ room
  · exact suffix_fieldOptional (suffix_optional suffix_string) _ _ room
  · exact suffix_fieldOptional suffix_string _ _ room
  · exact suffix_fieldRequired (suffix_variant ValueType.names) _ _ room
  · exact suffix_fieldRequired suffix_value _ _ room
  · exact suffix_fieldOptional suffix_boolean _ _ room
  · exact suffix_fieldOptional (suffix_optional (suffix_list suffix_value)) _ _ room
  · exact suffix_fieldOptional (suffix_optional suffix_range) _ _ room
  · exact suffix_fieldRequired (suffix_list (suffix_variant Scope.names)) _ _ room

end Shape

end Entry

/-! ## Files -/

theorem Files.readText_bytesOf {files : Files} {path text : String}
    (h : files.read path = .ok (Text.bytesOf text)) : files.readText path = .ok text := by
  unfold readText
  rw [h]
  simp only [bind, Except.bind, Text.fromUTF8?_bytesOf]

/-- The text is a list of entries, each of which makes a definition, no two of the same key. -/
structure Sound (text : String) (entries : List Entry) (ds : List Definition) : Prop where
  listed : Json.parse (Json.list Entry.shape) (.ofString text) = .ok entries
  defined : List.Forall₂ (fun e d => e.define = .ok d) entries ds
  distinct : (ds.map Definition.key).Nodup

/-- Why no server starts from a text. The first entry that is at fault decides, and an entry that
    makes no definition comes before any key that is there twice. -/
inductive Spoilt (text : String) : SchemaFault → Prop where
  | text {fault : Json.Fault}
    (unread : Json.parse (Json.list Entry.shape) (.ofString text) = .error fault) :
    Spoilt text (.unreadableText fault.cause)
  | entry {before after : List Entry} {e : Entry} {fault : SchemaFault}
    (listed : Json.parse (Json.list Entry.shape) (.ofString text) = .ok (before ++ e :: after))
    (passed : ∀ b ∈ before, ∃ d, b.define = .ok d) (failed : e.define = .error fault) :
    Spoilt text fault
  | duplicate {entries : List Entry} {before after : List Definition} {d : Definition}
    (listed : Json.parse (Json.list Entry.shape) (.ofString text) = .ok entries)
    (defined : List.Forall₂ (fun e d => e.define = .ok d) entries (before ++ d :: after))
    (distinct : (before.map Definition.key).Nodup) (again : d.key ∈ before.map Definition.key) :
    Spoilt text (.duplicateKey d.key)

/-- The registry of the definitions of a text. -/
def registryOf (text : String) : Except SchemaFault Registry := do
  Registry.load (← parseDefinitions (.ofString text))

section Texts

variable {text : String} {entries : List Entry} {ds : List Definition} {fault : SchemaFault}

theorem keys_eq (h : List.Forall₂ (fun e d => e.define = .ok d) entries ds) :
    ds.map Definition.key = entries.map Entry.key := by
  induction h with
  | nil => rfl
  | cons defined _ ih => rw [List.map_cons, List.map_cons, Entry.define_key defined, ih]

theorem mem_defined (h : List.Forall₂ (fun e d => e.define = .ok d) entries ds)
    {d : Definition} : d ∈ ds ↔ ∃ e ∈ entries, e.define = .ok d := by
  induction h with
  | nil => simp
  | @cons e d' entries ds defined _ ih =>
    have first : d = d' ↔ e.define = .ok d := by
      rw [defined, Except.ok.injEq, eq_comm]
    rw [List.mem_cons, ih, first]
    simp

theorem parseDefinitions_listed
    (listed : Json.parse (Json.list Entry.shape) (.ofString text) = .ok entries) :
    parseDefinitions (.ofString text) = entries.mapM Entry.define := by
  rw [parseDefinitions, listed]

theorem Sound.parsed (h : Sound text entries ds) : parseDefinitions (.ofString text) = .ok ds := by
  rw [parseDefinitions_listed h.listed, mapM_eq_ok.2 h.defined]

theorem Sound.registry (h : Sound text entries ds) : registryOf text = .ok ⟨ds⟩ := by
  unfold registryOf
  rw [h.parsed]
  exact Registry.load_distinct h.distinct

theorem Spoilt.registry (h : Spoilt text fault) : registryOf text = .error fault := by
  unfold registryOf
  cases h with
  | text unread =>
    rw [parseDefinitions, unread]
    rfl
  | entry listed passed failed =>
    rw [parseDefinitions_listed listed, mapM_stops passed failed]
    rfl
  | duplicate listed defined distinct again =>
    rw [parseDefinitions_listed listed, mapM_eq_ok.2 defined]
    exact Registry.load_duplicate distinct again _

theorem sound_or_spoilt (text : String) :
    (∃ entries ds, Sound text entries ds) ∨ ∃ fault, Spoilt text fault := by
  cases listed : Json.parse (Json.list Entry.shape) (.ofString text) with
  | error fault => exact .inr ⟨_, .text listed⟩
  | ok entries =>
    cases made : entries.mapM Entry.define with
    | error fault =>
      obtain ⟨before, e, after, rfl, passed, failed⟩ := exists_first_failure made
      exact .inr ⟨fault, .entry listed passed failed⟩
    | ok ds =>
      have defined := mapM_eq_ok.1 made
      rcases Registry.distinct_or_duplicate ds with
        distinct | ⟨before, d, after, rfl, distinct, again⟩
      · exact .inl ⟨entries, ds, listed, defined, distinct⟩
      · exact .inr ⟨_, .duplicate listed defined distinct again⟩

theorem registryOf_eq_ok {r : Registry} :
    registryOf text = .ok r ↔ ∃ entries ds, Sound text entries ds ∧ r = ⟨ds⟩ := by
  constructor
  · intro h
    rcases sound_or_spoilt text with ⟨entries, ds, sound⟩ | ⟨fault, spoilt⟩
    · rw [sound.registry] at h
      cases h
      exact ⟨entries, ds, sound, rfl⟩
    · rw [spoilt.registry] at h
      cases h
  · rintro ⟨entries, ds, sound, rfl⟩
    exact sound.registry

theorem registryOf_eq_error : registryOf text = .error fault ↔ Spoilt text fault := by
  constructor
  · intro h
    rcases sound_or_spoilt text with ⟨entries, ds, sound⟩ | ⟨other, spoilt⟩
    · rw [sound.registry] at h
      cases h
    · rw [spoilt.registry] at h
      cases h
      exact spoilt
  · exact Spoilt.registry

/-- An entry that cannot be read is what the text is refused for, whatever comes behind it. -/
theorem spoilt_at_entry {inside start : Json.Source} {before : List Entry} {fault : Json.Fault}
    (opening : Json.sight (.ofString text) = .ok (.list, inside))
    (read : Json.ReadsUpTo (Entry.shape (Json.roomAtStart - 1)) 0 inside before start)
    (refused : Entry.shape (Json.roomAtStart - 1) start = .error fault) :
    Spoilt text (.unreadableText fault.cause) := by
  obtain ⟨path, unread⟩ :=
    Json.parse_list_refused Entry.shape Entry.shorter_shape opening read refused
  have spoilt := Spoilt.text unread
  exact spoilt

end Texts

/-! ## Servers -/

section Servers

variable {σ : Type} {files : Files} {setup : Setup σ} {path text : String} {store : σ}

theorem build_eq (file : setup.definitions = some path) (held : files.readText path = .ok text)
    (adapter : setup.store = some store) : setup.build files
      = ((registryOf text).mapError Fault.schema).map
        fun registry => ⟨setup.listen, setup.definitions, registry, store⟩ := by
  unfold Setup.build registryOf
  rw [adapter, file]
  dsimp only [loadDefinitions]
  rw [held]
  dsimp only
  cases parseDefinitions (.ofString text) with
  | error fault => rfl
  | ok ds =>
    change (ds.foldlM (fun (r : Registry) d => (r.register d).mapError Fault.schema) Registry.empty).bind _
      = ((Registry.load ds).mapError Fault.schema).map _
    rw [foldlM_mapError, ← Registry.load]
    cases Registry.load ds <;> rfl

theorem build_eq_ok (file : setup.definitions = some path) (held : files.readText path = .ok text)
    (adapter : setup.store = some store) (server : Server σ) :
    setup.build files = .ok server ↔ ∃ entries ds, Sound text entries ds ∧
      server = ⟨setup.listen, setup.definitions, ⟨ds⟩, store⟩ := by
  rw [build_eq file held adapter]
  cases made : registryOf text with
  | error cause =>
    constructor
    · rintro ⟨⟩
    · rintro ⟨entries, ds, sound, rfl⟩
      rw [sound.registry] at made
      cases made
  | ok r =>
    constructor
    · rintro ⟨⟩
      obtain ⟨entries, ds, sound, rfl⟩ := registryOf_eq_ok.1 made
      exact ⟨entries, ds, sound, rfl⟩
    · rintro ⟨entries, ds, sound, rfl⟩
      rw [sound.registry] at made
      cases made
      rfl

theorem build_eq_error (file : setup.definitions = some path)
    (held : files.readText path = .ok text) (adapter : setup.store = some store) {fault : Fault} :
    setup.build files = .error fault ↔ ∃ cause, fault = .schema cause ∧ Spoilt text cause := by
  rw [build_eq file held adapter]
  cases made : registryOf text with
  | error cause =>
    have spoilt := registryOf_eq_error.1 made
    constructor
    · rintro ⟨⟩
      exact ⟨cause, rfl, spoilt⟩
    · rintro ⟨other, rfl, h⟩
      rw [h.registry] at made
      cases made
      rfl
  | ok r =>
    constructor
    · rintro ⟨⟩
    · rintro ⟨other, rfl, h⟩
      rw [h.registry] at made
      cases made

end Servers

section Serving

open LayeredPreferences.Action

variable {σ : Type} [Backend σ] [CellStore σ]

/-- What a server that was started from a text answers. In an empty store each preference has its
    default. -/
structure Serves (text : String) (entries : List Entry) (ds : List Definition) (server : Server σ) :
    Prop where
  parsed : parseDefinitions (.ofString text) = .ok ds
  loaded : Registry.load ds = .ok server.registry
  found : ∀ key d, server.registry.get key = .ok d ↔
    ∃ e ∈ entries, e.key = key ∧ e.define = .ok d
  unknown : ∀ key ∉ entries.map Entry.key, server.registry.get key = .error (.notFound key)
  listed : ∀ org user scope,
    outcome (Service.listAt server.registry org user scope) (CellStore.empty : σ)
      = (.ok ((ds.filter fun d => scope ∈ d.scopes).map fun d => ⟨d, d.defaultValue⟩),
        CellStore.empty)

variable {text : String} {entries : List Entry} {ds : List Definition}

theorem listAt_empty (built : ∀ d ∈ ds, d.Built) (org user : String) (scope : Scope) :
    outcome (Service.listAt ⟨ds⟩ org user scope) (CellStore.empty : σ)
      = (.ok ((ds.filter fun d => scope ∈ d.scopes).map fun d => ⟨d, d.defaultValue⟩),
        CellStore.empty) := by
  have enabled : ds.filter (·.enabledAt scope) = ds.filter fun d => scope ∈ d.scopes :=
    List.filter_congr fun d _ => by simp [Definition.enabledAt]
  have none_stored (owner : Owner) : CellStore.cell (CellStore.empty : σ) owner = fun _ => none :=
    funext fun key => CellStore.cell_empty owner key
  rw [Service.listAt_intact CellStore.intact_empty, none_stored, none_stored, Registry.views,
    enabled]
  congr 2
  refine List.map_congr_left fun d member => ?_
  rw [Definition.effective_eq_choose (built d (List.mem_filter.1 member).1) (by simp) (by simp)]
  cases scope <;> simp [Definition.choose, Definition.select]

theorem Sound.serves (h : Sound text entries ds) (setup : Setup σ) (store : σ) :
    Serves text entries ds (⟨setup.listen, setup.definitions, ⟨ds⟩, store⟩ : Server σ) where
  parsed := h.parsed
  loaded := Registry.load_distinct h.distinct
  found key d := by
    have inRegistry : Registry.get ⟨ds⟩ key = .ok d ↔ d ∈ ds ∧ d.key = key :=
      Registry.get_eq_ok h.distinct
    rw [inRegistry, mem_defined h.defined]
    constructor
    · rintro ⟨⟨e, member, defined⟩, rfl⟩
      exact ⟨e, member, (Entry.define_key defined).symm, defined⟩
    · rintro ⟨e, member, rfl, defined⟩
      exact ⟨⟨e, member, defined⟩, Entry.define_key defined⟩
  unknown key absent := by
    refine Registry.get_unknown ?_
    change key ∉ ds.map Definition.key
    rwa [keys_eq h.defined]
  listed org user scope := by
    refine listAt_empty (fun d member => ?_) org user scope
    obtain ⟨e, -, defined⟩ := (mem_defined h.defined).1 member
    exact Entry.define_built defined

/-- Without a store there is no server, whatever the file holds. With one, a server starts from a
    sound text and serves it; any other text is refused for the first thing that spoils it. -/
theorem starts_whole_or_not_at_all (files : Files) (setup : Setup σ) :
    (setup.store = none → setup.build files = .error (.setup .noStore)) ∧
    ∀ path text store, setup.definitions = some path → files.readText path = .ok text →
      setup.store = some store →
      ((∃ server, setup.build files = .ok server) ↔ ∃ entries ds, Sound text entries ds) ∧
      (∀ server, setup.build files = .ok server →
        ∃ entries ds, Sound text entries ds ∧ Serves text entries ds server) ∧
      (∀ fault, setup.build files = .error fault ↔
        ∃ cause, fault = .schema cause ∧ Spoilt text cause) ∧
      ∀ inside before start fault, Json.sight (.ofString text) = .ok (.list, inside) →
        Json.ReadsUpTo (Entry.shape (Json.roomAtStart - 1)) 0 inside before start →
        Entry.shape (Json.roomAtStart - 1) start = .error fault →
        setup.build files = .error (.schema (.unreadableText fault.cause)) := by
  constructor
  · intro missing
    unfold Setup.build
    rw [missing]
    rfl
  intro path text store file held adapter
  have ok := build_eq_ok file held adapter
  refine ⟨⟨?_, ?_⟩, ?_, ?_, ?_⟩
  · rintro ⟨server, started⟩
    obtain ⟨entries, ds, sound, -⟩ := (ok server).1 started
    exact ⟨entries, ds, sound⟩
  · rintro ⟨entries, ds, sound⟩
    exact ⟨_, (ok _).2 ⟨entries, ds, sound, rfl⟩⟩
  · intro server started
    obtain ⟨entries, ds, sound, rfl⟩ := (ok server).1 started
    exact ⟨entries, ds, sound, sound.serves setup store⟩
  · exact fun fault => build_eq_error file held adapter
  · intro inside before start fault opening read refused
    have spoilt := spoilt_at_entry opening read refused
    exact (build_eq_error file held adapter).2 ⟨_, rfl, spoilt⟩

/-- The first entry is refused for its missing key although the text is cut off behind it. -/
theorem starts_whole_or_not_at_all_cutOff :
    let files : Files := ⟨[(["prefs.json"], .file (Text.bytesOf "[\x7b\x7d"))], []⟩
    let setup : Setup Memory := ⟨"127.0.0.1:8080", some "/prefs.json", some Memory.empty⟩
    setup.build files = .error (.schema (.unreadableText (.missingField "key"))) := by
  intro files setup
  have held : files.readText "/prefs.json" = .ok "[\x7b\x7d" := Files.readText_bytesOf rfl
  have opening : Json.sight (.ofString "[\x7b\x7d") = .ok (.list, [.char '{', .char '}']) := rfl
  have read : Json.ReadsUpTo (Entry.shape (Json.roomAtStart - 1)) 0 [.char '{', .char '}'] []
      [.char '{', .char '}'] := .here rfl
  have closed : Json.nextName .kept Json.quotation true [.char '}'] = .ok (none, [.char '}']) :=
    Json.nextName_closing Json.blanks_nil true []
  have members : Json.members .kept Json.quotation
      (Json.recordMember Entry.fields (Json.roomAtStart - 2)) true ([], Entry.empty) [.char '}']
        = .ok (([], Entry.empty), [.char '}']) := by
    rw [Json.members, closed]
  have refused : Entry.shape (Json.roomAtStart - 1) [.char '{', .char '}']
      = .error ⟨[], .missingField "key"⟩ := by
    unfold Entry.shape Json.record
    rw [Json.bind_ok (Json.sight_object _)]
    exact Json.bind_ok members
  obtain ⟨-, started⟩ := starts_whole_or_not_at_all files setup
  obtain ⟨-, -, -, at_entry⟩ := started _ _ _ rfl held rfl
  exact at_entry _ _ _ _ opening read refused

end Serving

/-! ## Logging -/

theorem setUpLogging_ok_iff {done : Bool} :
    (setUpLogging.run.run done).1 = .ok () ↔ done = false := by
  cases done
  · exact iff_of_true rfl rfl
  · exact iff_of_false nofun nofun

/-- Whether or not a call succeeds, the next one fails. -/
theorem setUpLogging_again (done : Bool) :
    (setUpLogging.run.run (setUpLogging.run.run done).2).1 = .error (.setup .loggingInUse) := by
  cases done <;> rfl

end LayeredPreferences
