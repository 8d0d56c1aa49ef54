import LayeredPreferences.Proofs.Http.Serving
import LayeredPreferences.Proofs.Service.Intact

set_option autoImplicit false

/-!
# Stores that requests lead to

A request leaves the store or is one write of the service. So whatever the
requests and the writes were, the values in the store are those that were accepted.
-/
namespace LayeredPreferences.Http

open LayeredPreferences.Action CellStore Service

variable {σ : Type}

/-! ## One request -/

/-- What only checks something refuses the request, or lets it pass as it is. -/
theorem check_outcome {ε α β : Type} {s : σ} {Q : Except ε β × σ → Prop} (checked : Except ε α)
    {next : α → ExceptT ε (StateM σ) β} (refused : ∀ refusal, Q (.error refusal, s))
    (passed : ∀ a, Q (outcome (next a) s)) : Q (outcome (liftM checked >>= next) s) := by
  cases checked with
  | error refusal =>
    rw [outcome_bind_error (outcome_lift _ s)]
    exact refused refusal
  | ok a =>
    rw [outcome_bind_ok (outcome_lift _ s)]
    exact passed a

theorem serve_store {α : Type} (action : Action σ α) (write : α → List Char) (s : σ) :
    (outcome (serve action write) s).2 = (outcome action s).2 := by
  rw [outcome_serve]
  rcases outcome action s with ⟨_ | a, t⟩ <;> rfl

theorem run_store (handler : Handler σ Response) (s : σ) :
    ((run handler).run s).2 = (outcome handler s).2 := by
  rw [run_outcome]
  rcases outcome handler s with ⟨_ | response, t⟩ <;> rfl

variable [Backend σ] {r : Registry} {s : σ}

/-- Reading and listing do not change the store. -/
structure LeftByReading (r : Registry) (s : σ) : Prop where
  read : ∀ org user key scope, (outcome (readAt r org user key scope) s).2 = s
  list : ∀ org user scope, (outcome (listAt r org user scope) s).2 = s

theorem getList_leaves (h : LeftByReading r s) (request : Request) (scope : Scope) :
    (outcome (getList r request scope) s).2 = s := by
  unfold getList
  refine check_outcome (Q := (·.2 = s)) _ (fun _ => rfl) fun c => ?_
  have left := h.list c.org c.user scope
  cases scope with
  | org => exact (serve_store _ _ s).trans left
  | user => exact (serve_store _ _ s).trans left

theorem getSingle_leaves (h : LeftByReading r s) (request : Request) (scope : Scope)
    (segment : List Char) : (outcome (getSingle r request scope segment) s).2 = s := by
  unfold getSingle
  refine check_outcome (Q := (·.2 = s)) _ (fun _ => rfl) fun c => ?_
  refine check_outcome (Q := (·.2 = s)) _ (fun _ => rfl) fun key => ?_
  have left := h.read c.org c.user key scope
  cases scope with
  | org => exact (serve_store _ _ s).trans left
  | user => exact (serve_store _ _ s).trans left

variable (r s) in
/-- A request to put a preference is refused, or answered as the write is. -/
theorem putSingle_writes (request : Request) (scope : Scope) (segment : List Char) :
    (∃ refusal, outcome (putSingle r request scope segment) s = (.error refusal, s)) ∨
    ∃ owner key v, outcome (putSingle r request scope segment) s
      = outcome (serve (Service.write r owner key v) Effective.write) s := by
  let Q (o : Except Refusal Response × σ) : Prop := (∃ refusal, o = (.error refusal, s)) ∨
    ∃ owner key v, o = outcome (serve (Service.write r owner key v) Effective.write) s
  have refused (refusal : Refusal) : Q (.error refusal, s) := .inl ⟨refusal, rfl⟩
  change Q (outcome (putSingle r request scope segment) s)
  unfold putSingle
  refine check_outcome _ refused fun c => ?_
  refine check_outcome _ refused fun key => ?_
  refine check_outcome _ refused fun v => ?_
  exact .inr ⟨_, key, v, rfl⟩

/-- Only a request to put a preference gets to the store in another way than by reading. -/
theorem respond_leaves_or_puts (h : LeftByReading r s) (request : Request) :
    ((respond r request).run s).2 = s ∨ (request.method = "PUT" ∧ ∃ scope segment,
      (respond r request).run s = (run (putSingle r request scope segment)).run s) := by
  unfold respond
  split
  · exact .inl rfl
  · rw [run_store]
    exact .inl (getList_leaves h request _)
  · change ((run (getList r request _)).run s).2 = s ∨ _
    rw [run_store]
    exact .inl (getList_leaves h request _)
  · exact .inl rfl
  · rw [run_store]
    exact .inl (getSingle_leaves h request _ _)
  · change ((run (getSingle r request _ _)).run s).2 = s ∨ _
    rw [run_store]
    exact .inl (getSingle_leaves h request _ _)
  · exact .inr ⟨‹_›, _, _, rfl⟩
  · exact .inl rfl

/-- What a request may do to the store. -/
def LeftOrWritten (r : Registry) (s t : σ) : Prop :=
  t = s ∨ ∃ owner key v, t = (outcome (Service.write r owner key v) s).2

variable [CellStore σ]

theorem leftByReading (intact : Intact s) : LeftByReading r s where
  read _ _ _ _ := readAt_leaves intact
  list _ _ _ := by rw [listAt_intact intact]

theorem respond_store (intact : Intact s) (request : Request) :
    LeftOrWritten r s ((respond r request).run s).2 := by
  rcases respond_leaves_or_puts (leftByReading intact) request with left | ⟨-, _, _, put⟩
  · exact .inl left
  · rw [put, run_store]
    rcases putSingle_writes r s request _ _ with ⟨_, refused⟩ | ⟨owner, key, v, written⟩
    · exact .inl (congrArg Prod.snd refused)
    · rw [written, serve_store]
      exact .inr ⟨owner, key, v, rfl⟩

/-! ## Any number of requests and writes -/

/-- The stores that requests and writes lead to. -/
inductive Reached (r : Registry) (start : σ) : σ → Prop where
  | start : Reached r start start
  | request {s : σ} (h : Reached r start s) (request : Request) :
    Reached r start ((respond r request).run s).2
  | write {s : σ} (h : Reached r start s) (owner : Owner) (key : String) (v : Value) :
    Reached r start (outcome (Service.write r owner key v) s).2

theorem keeps_write {given : Owner → String → Option Value} (h : Keeps r given s) (owner : Owner)
    (key : String) (v : Value) :
    ∃ given, Keeps r given (outcome (Service.write r owner key v) s).2 := by
  rcases h.write owner key v with ⟨fault, refused⟩ | ⟨w, t, stored, kept⟩
  · rw [refused]
    exact ⟨given, h⟩
  · rw [stored]
    exact ⟨_, kept⟩

theorem keeps_reached (reached : Reached r CellStore.empty s) : ∃ given, Keeps r given s := by
  induction reached with
  | start => exact ⟨_, .empty r⟩
  | request _ request ih =>
    obtain ⟨given, kept⟩ := ih
    rcases respond_store kept.intact request with left | ⟨owner, key, v, written⟩
    · rw [left]
      exact ⟨given, kept⟩
    · rw [written]
      exact keeps_write kept owner key v
  | write _ owner key v ih =>
    obtain ⟨given, kept⟩ := ih
    exact keeps_write kept owner key v

end LayeredPreferences.Http
