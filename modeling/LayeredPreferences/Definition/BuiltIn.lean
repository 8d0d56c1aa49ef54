import LayeredPreferences.Definition.Entry

set_option autoImplicit false

/-!
# The definitions that are always at hand
-/
namespace LayeredPreferences

namespace Entry

def onOff (key name description : String) (scope : Scope) : Entry :=
  { empty with
    key := key
    name := some name
    description := description
    valueType := some .boolean
    defaultValue := some (.boolean false)
    discrete := true
    allowed := some [.boolean true, .boolean false]
    scopes := [scope] }

def choice (key name description : String) (type : ValueType) (defaultValue : Value)
    (allowed : List Value) : Entry :=
  { empty with
    key := key
    name := some name
    description := description
    valueType := some type
    defaultValue := some defaultValue
    discrete := true
    allowed := some allowed
    scopes := [.org, .user] }

def bounded (key name description : String) (type : ValueType) (defaultValue : Value)
    (range : ValueRange) (scopes : List Scope) : Entry :=
  { empty with
    key := key
    name := some name
    description := description
    valueType := some type
    defaultValue := some defaultValue
    range := some range
    scopes := scopes }

def builtIn : List Entry :=
  [onOff "WELCOME_CHECKLIST_DONE" "Welcome checklist done"
      "Whether the user has completed or dismissed the welcome checklist" .user,
   onOff "ORG_ONBOARDING_DONE" "Organization onboarding done"
      "Whether the organization onboarding flow has been completed" .org,
   choice "THEME" "Theme" "Color theme of the user interface" .string (.string "system")
      [.string "light", .string "dark", .string "system"],
   choice "TIMEZONE" "Timezone" "Timezone used to display timestamps" .string (.string "UTC") [],
   choice "DEFAULT_REFRESH_INTERVAL" "Default refresh interval"
      "Auto refresh interval of dashboards in seconds, 0 disables refresh" .integer (.integer 0)
      [.integer 0, .integer 15, .integer 30, .integer 60, .integer 300],
   bounded "MAX_ALERTS" "Maximum alerts"
      "Maximum number of alert rules an organization can define" .integer (.integer 10)
      ⟨1, 100⟩ [.org],
   bounded "LOGS_PAGE_SIZE" "Logs page size" "Number of log lines fetched per page" .integer
      (.integer 100) ⟨10, 1000⟩ [.org, .user],
   bounded "TRACE_SAMPLING_RATE" "Trace sampling rate"
      "Fraction of traces kept by the collector" .float
      (.float (.ofRank false (Binary64.rankOfNat 1))) ⟨0, 1⟩ [.org]]

end Entry

def builtInDefinitions : Except SchemaFault (List Definition) := Entry.builtIn.mapM Entry.define

end LayeredPreferences
