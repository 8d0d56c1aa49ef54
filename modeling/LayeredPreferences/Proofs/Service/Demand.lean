import LayeredPreferences.Proofs.Service.Access

set_option autoImplicit false

/-!
# Demands

Whatever can be asked of the service, as data: to read or list at a scope, or to
write for an owner. Demands are served one after the other, each on the store that
the one before left.
-/
namespace LayeredPreferences

open LayeredPreferences.Action

namespace Service

inductive Demand where
  | read (scope : Scope) (org user key : String)
  | list (scope : Scope) (org user : String)
  | write (owner : Owner) (key : String) (v : Value)

inductive Reply where
  | effective (e : Effective)
  | views (views : List View)

variable {σ : Type} [Backend σ]

def Demand.serve (r : Registry) : Demand → Action σ Reply
  | .read scope org user key => Reply.effective <$> readAt r org user key scope
  | .list scope org user => Reply.views <$> listAt r org user scope
  | .write owner key v => Reply.effective <$> Service.write r owner key v

/-- All demands one after the other, with what each is answered. -/
def serveAll (r : Registry) : List Demand → σ → List (Except Fault Reply) × σ
  | [], s => ([], s)
  | demand :: demands, s =>
    let (answer, next) := outcome (demand.serve r) s
    let (answers, last) := serveAll r demands next
    (answer :: answers, last)

end Service

end LayeredPreferences
