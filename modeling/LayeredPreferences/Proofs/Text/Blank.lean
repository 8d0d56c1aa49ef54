import LayeredPreferences.Text.Blank
import Mathlib.Data.List.TakeWhile

set_option autoImplicit false

/-!
# Text between blanks

Trimming leaves nothing of a text that is blank, and does not see blanks that are put around a text.
-/
namespace LayeredPreferences.Text

variable {cs front back : List Char}

theorem dropWhile_front (blank : ∀ c ∈ front, isBlank c = true) :
    (front ++ cs).dropWhile isBlank = cs.dropWhile isBlank := by
  have gone : front.dropWhile isBlank = [] := List.dropWhile_eq_nil_iff.2 blank
  rw [List.dropWhile_append, gone]
  rfl

theorem trim_eq_nil_iff : trim cs = [] ↔ ∀ c ∈ cs, isBlank c = true := by
  unfold trim
  rw [List.reverse_eq_nil_iff, List.dropWhile_eq_nil_iff]
  constructor
  · intro rest
    -- What is left at the front starts with no blank, so nothing is left.
    have nothing : cs.dropWhile isBlank = [] := by
      by_contra some
      have first := List.head_dropWhile_not isBlank some
      have blank := rest _ (List.mem_reverse.2 (List.head_mem some))
      rw [blank] at first
      cases first
    exact List.dropWhile_eq_nil_iff.1 nothing
  · intro blank c member
    exact blank c ((List.dropWhile_sublist _).mem (List.mem_reverse.1 member))

theorem trim_back (blank : ∀ c ∈ back, isBlank c = true) : trim (cs ++ back) = trim cs := by
  unfold trim
  by_cases all : ∀ c ∈ cs, isBlank c = true
  · have gone : back.dropWhile isBlank = [] := List.dropWhile_eq_nil_iff.2 blank
    rw [dropWhile_front all, gone, List.dropWhile_eq_nil_iff.2 all]
  · have left : ((cs.dropWhile isBlank).isEmpty) = false := by
      rw [List.isEmpty_eq_false_iff, Ne, List.dropWhile_eq_nil_iff]
      exact all
    have reversed : ∀ c ∈ back.reverse, isBlank c = true :=
      fun c member => blank c (List.mem_reverse.1 member)
    rw [List.dropWhile_append, left, if_neg (by simp), List.reverse_append, dropWhile_front reversed]

theorem trim_padded (first : ∀ c ∈ front, isBlank c = true) (last : ∀ c ∈ back, isBlank c = true) :
    trim (front ++ cs ++ back) = trim cs := by
  rw [trim_back last]
  unfold trim
  rw [dropWhile_front first]

end LayeredPreferences.Text
