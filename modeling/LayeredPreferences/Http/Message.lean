set_option autoImplicit false

/-!
# Requests and responses
-/
namespace LayeredPreferences.Http

structure Request where
  method : String
  target : String
  headers : List (String × String)
  body : List UInt8

structure Response where
  status : Nat
  contentType : Option String
  allow : Option String
  body : String
deriving DecidableEq

namespace Request

/-- The first value of a header, whose name is compared without regard to case. -/
def header? (request : Request) (name : String) : Option String :=
  (request.headers.find? fun h => h.1.toLower = name).map (·.2)

/-- The value of a header that holds nothing but visible characters, spaces and tabs. -/
def plainHeader? (request : Request) (name : String) : Option String :=
  (request.header? name).filter fun value =>
    value.toList.all fun c => c = '\t' || (0x20 ≤ c.toNat && c.toNat < 0x7f)

end Request

end LayeredPreferences.Http
