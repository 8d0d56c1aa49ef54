import LayeredPreferences.Http.Answer
import LayeredPreferences.Resolution
import Mathlib.Data.List.Basic

set_option autoImplicit false

/-!
# What callers are shown

The bodies of successful answers, spelled out member by member.
-/
namespace LayeredPreferences

namespace Json

def commas (texts : List (List Char)) : List Char := [','].intercalate texts

def bracketed (texts : List (List Char)) : List Char := '[' :: (commas texts ++ [']'])

/-- A name that needs no escapes. -/
def inQuotes (name : String) : List Char := '"' :: (name.toList ++ ['"'])

def braced (members : List (String × List Char)) : List Char :=
  '{' :: (commas (members.map fun m => inQuotes m.1 ++ ':' :: m.2) ++ ['}'])

theorem separated_eq_commas (texts : List (List Char)) : separated texts = commas texts := by
  induction texts with
  | nil => rfl
  | cons text texts ih =>
    cases texts with
    | nil => simp [separated, commas]
    | cons next texts => simp [separated, ih, commas]

theorem writeList_eq_bracketed (texts : List (List Char)) : writeList texts = bracketed texts := by
  rw [writeList, separated_eq_commas, bracketed]

/-- Whether no letter is escaped, as in names of letters and underscores. -/
def isBare (name : String) : Bool := name.toList.all fun c => writeChar c = [c]

theorem writeString_bare {name : String} (bare : isBare name = true) :
    writeString name = inQuotes name := by
  have itself : ∀ c ∈ name.toList, writeChar c = [c] := fun c member =>
    of_decide_eq_true (List.all_eq_true.1 bare c member)
  have same : name.toList.flatMap writeChar = name.toList := by
    rw [List.flatMap_congr itself, List.flatMap_singleton']
  rw [writeString, same, inQuotes]

theorem writeObject_eq_braced {members : List (String × List Char)}
    (names : ∀ name ∈ members.map Prod.fst, isBare name = true) :
    writeObject members = braced members := by
  have same : members.map (fun m => writeMember m.1 m.2)
      = members.map fun m => inQuotes m.1 ++ ':' :: m.2 := by
    refine List.map_congr_left fun m member => ?_
    rw [writeMember, writeString_bare (names m.1 (List.mem_map_of_mem member))]
  rw [writeObject, same, separated_eq_commas, braced]

theorem writeInteger_eq (n : Int) : writeInteger n = (toString n).toList := by
  cases n with
  | ofNat n => simp [writeInteger, toString, Int.repr, Nat.repr]
  | negSucc n => simp [writeInteger, toString, Int.repr, Nat.repr]

end Json

namespace Http

open Json

/-- What a result stands in. -/
def shown (result : List Char) : Response :=
  ⟨200, some "application/json", none, String.ofList (braced [("data", result)])⟩

/-- The answer with one preference, whose value has this text. -/
def shownSingle (key : String) (value : List Char) : Response :=
  shown (braced [("preference_id", writeString key), ("preference_value", value)])

def domainMembers : Domain → List (String × List Char)
  | .discrete allowed =>
    [("usesDiscreteValues", "true".toList), ("allowedValues", bracketed (allowed.map Value.write))]
  | .range range =>
    [("usesDiscreteValues", "false".toList), ("allowedValues", "[]".toList),
     ("range", braced [("min", (toString range.min.toInt).toList),
       ("max", (toString range.max.toInt).toList)])]

/-- A preference in a list, whose value has this text. -/
def viewMembers (d : Definition) (value : List Char) : List (String × List Char) :=
  [("key", writeString d.key), ("name", writeString d.name),
   ("description", writeString d.description), ("valueType", inQuotes d.valueType.name),
   ("defaultValue", d.defaultValue.write)]
  ++ domainMembers d.domain
  ++ [("allowedScopes", bracketed (d.scopes.map fun scope => inQuotes scope.name)),
   ("value", value)]

/-- The answer with a list of preferences, each with the text of its value. -/
def shownList (listed : List (Definition × List Char)) : Response :=
  shown (bracketed (listed.map fun p => braced (viewMembers p.1 p.2)))

/-! ## What is answered -/

theorem data_eq (result : List Char) : data result = shown result := by
  have names : ∀ name ∈ ["data"], isBare name = true := by decide +kernel
  rw [data, json, writeObject_eq_braced]
  · rfl
  · exact names

theorem data_effective (e : Effective) : data e.write = shownSingle e.key e.value.write := by
  have names : ∀ name ∈ ["preference_id", "preference_value"], isBare name = true := by decide +kernel
  rw [data_eq, Effective.write, writeObject_eq_braced]
  · rfl
  · exact names

theorem range_write (range : ValueRange) : range.write
    = braced [("min", (toString range.min.toInt).toList),
      ("max", (toString range.max.toInt).toList)] := by
  have names : ∀ name ∈ ["min", "max"], isBare name = true := by decide +kernel
  rw [ValueRange.write, writeObject_eq_braced, writeInteger_eq, writeInteger_eq]
  exact names

theorem view_write (view : View) :
    view.write = braced (viewMembers view.definition view.value.write) := by
  obtain ⟨d, v⟩ := view
  have type : d.valueType.write = inQuotes d.valueType.name := by
    cases d.valueType <;> exact writeString_bare (by decide +kernel)
  have scopes : d.scopes.map Scope.write = d.scopes.map fun scope => inQuotes scope.name := by
    refine List.map_congr_left fun scope _ => ?_
    cases scope <;> exact writeString_bare (by decide +kernel)
  unfold View.write Definition.isDiscrete Definition.allowedValues Definition.range? viewMembers
  simp only [type, scopes, writeList_eq_bracketed]
  cases d.domain with
  | discrete allowed =>
    have names : ∀ name ∈ ["key", "name", "description", "valueType", "defaultValue",
        "usesDiscreteValues", "allowedValues", "allowedScopes", "value"], isBare name = true := by
      decide +kernel
    rw [writeObject_eq_braced]
    · rfl
    · exact names
  | range range =>
    have names : ∀ name ∈ ["key", "name", "description", "valueType", "defaultValue",
        "usesDiscreteValues", "allowedValues", "range", "allowedScopes", "value"],
      isBare name = true := by
      decide +kernel
    rw [writeObject_eq_braced]
    · simp only [range_write]
      rfl
    · exact names

theorem data_views (views : List View) : data (View.writeAll views)
    = shownList (views.map fun view => (view.definition, view.value.write)) := by
  rw [data_eq, View.writeAll, writeList_eq_bracketed, shownList, List.map_map]
  congr 2
  exact List.map_congr_left fun view _ => view_write view

end Http

end LayeredPreferences
