import LayeredPreferences.Database.Fault
import LayeredPreferences.Definition

set_option autoImplicit false

/-!
# Faults

Every way in which an operation on preferences fails, with its text.
-/
namespace LayeredPreferences

/-- Why a value is not accepted for a preference. -/
inductive ValueFault where
  | wrongType (expected got : ValueType)
  | notAllowed (allowed : List Value)
  | outOfRange (range : ValueRange)
deriving DecidableEq

/-- Why a set of definitions cannot be used. -/
inductive SchemaFault where
  | emptyKey
  | blankName (key : String)
  | noDefault (key : String)
  | noScope (key : String)
  | emptyRange (key : String) (range : ValueRange)
  | noDomain (key : String)
  | badAllowedValue (key : String) (fault : ValueFault)
  | badDefault (key : String) (fault : ValueFault)
  | duplicateKey (key : String)
  | unreadableText (cause : Json.Cause)
  | unreadableFile (path reason : String)
  | other (text : String)

/-- Why a store of values does not answer. -/
inductive StoreFault where
  | refused (reason : String)
  | database (fault : DatabaseFault)
  | column (name : String) (fault : ColumnFault)
  | other (text : String)
deriving DecidableEq

inductive SetupFault where
  | noStore
  | loggingInUse
  | other (text : String)
deriving DecidableEq

inductive AddressFault where
  | noPort
  | badPort
  | other (text : String)
deriving DecidableEq

inductive Fault where
  | notFound (key : String)
  | forbidden (key : String) (scope : Scope)
  | unauthenticated
  | badValue (key : String) (fault : ValueFault)
  | schema (fault : SchemaFault)
  | store (fault : StoreFault)
  | setup (fault : SetupFault)
  | address (fault : AddressFault)

def ValueFault.message (key : String) : ValueFault → String
  | .wrongType expected got =>
    s!"the preference value is not of expected type: {expected.name}"
      ++ s!" (preference {key}, got {got.name})"
  | .notAllowed allowed =>
    s!"the preference value is not in the list of allowed values for {key}: ["
      ++ ", ".intercalate (allowed.map Value.display) ++ "]"
  | .outOfRange range =>
    s!"the preference value is not in the range specified for {key}"
      ++ s!", min: {range.min.toInt}, max: {range.max.toInt}"

/-- Of a text that cannot be read the line and the column are left out. -/
def SchemaFault.message : SchemaFault → String
  | .emptyKey => "preference key must not be empty"
  | .blankName key => "preference '" ++ key ++ "' has an empty name"
  | .noDefault key => "preference '" ++ key ++ "' has no default value"
  | .noScope key => "preference '" ++ key ++ "' is not enabled at any scope"
  | .emptyRange key range =>
    "preference '" ++ key ++ s!"' has an empty range [{range.min.toInt}, {range.max.toInt}]"
  | .noDomain key => "preference '" ++ key ++ "' uses no discrete values but has no range"
  | .badAllowedValue key fault =>
    "allowed values of '" ++ key ++ "' are invalid: " ++ fault.message key
  | .badDefault key fault => "default value of '" ++ key ++ "' is invalid: " ++ fault.message key
  | .duplicateKey key => s!"duplicate preference key in the preferences: {key}"
  | .unreadableText cause => s!"error in unmarshalling preferences: {cause.message}"
  | .unreadableFile path reason => s!"error in reading preferences from {path}: {reason}"
  | .other text => text

def StoreFault.message : StoreFault → String
  | .refused reason => reason
  | .database fault => fault.message
  | .column name fault => fault.message name
  | .other text => text

def SetupFault.message : SetupFault → String
  | .noStore => "No preference adapter configured"
  | .loggingInUse =>
    "Cannot initialize logging: a global default trace dispatcher has already been set"
  | .other text => text

def AddressFault.message : AddressFault → String
  | .noPort => "invalid socket address"
  | .badPort => "invalid port value"
  | .other text => text

def Fault.message : Fault → String
  | .notFound key => s!"no such preference key: {key}"
  | .forbidden key scope => s!"preference is not enabled at {scope.name} scope: {key}"
  | .unauthenticated => "caller identity is missing"
  | .badValue key fault => fault.message key
  | .schema fault => s!"preference schema error: {fault.message}"
  | .store fault => s!"preference store error: {fault.message}"
  | .setup fault => s!"configuration error: {fault.message}"
  | .address fault => s!"io error: {fault.message}"

end LayeredPreferences
