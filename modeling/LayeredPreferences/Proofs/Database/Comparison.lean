import LayeredPreferences.Database.Comparison
import Mathlib.Data.Prod.Lex
import LayeredPreferences.Proofs.Number.Rounding

set_option autoImplicit false

/-!
# Contents in order

To every content belongs a key, and contents are in the order of their keys. So the
order of contents is a total preorder for every collation. Texts that are compared
byte by byte take the same place only if they are the same.
-/
namespace LayeredPreferences.Database

theorem compareOfLessAndEq_eq (a b : List Nat) : compareOfLessAndEq a b = compare a b := by
  induction a generalizing b with
  | nil => cases b <;> rfl
  | cons x xs ih =>
    cases b with
    | nil => rfl
    | cons y ys =>
      rw [List.compare_cons_cons, ← ih]
      rcases Nat.lt_trichotomy x y with less | rfl | greater
      · rw [Nat.compare_eq_lt.2 less, compareOfLessAndEq, if_pos (List.cons_lt_cons_iff.2 (.inl less))]
        rfl
      · simp [compareOfLessAndEq]
      · have other : ¬ x :: xs < y :: ys := by
          rw [List.cons_lt_cons_iff]
          omega
        rw [Nat.compare_eq_gt.2 greater, compareOfLessAndEq, if_neg other, if_neg (by simp; omega)]
        rfl

/-! ## Collations -/

namespace Collation

/-- Letters count as small ones. After a zero byte only the length counts. -/
def folded : List UInt8 → List Nat
  | [] => []
  | b :: rest => if b = 0 then [0, rest.length] else (lower b).toNat :: folded rest

/-- Texts take their places as these lists of numbers do. -/
def key (encoding : Encoding) (collation : String) (bytes : List UInt8) : List Nat :=
  match collation.toLower with
  | "nocase" => folded (encoding.decode bytes)
  | "rtrim" => (withoutBlanks (encoding.decode bytes)).map UInt8.toNat
  | _ => bytes.map UInt8.toNat

theorem lower_eq_zero {b : UInt8} (h : lower b = 0) : b = 0 := by
  unfold lower at h
  split_ifs at h with upper
  · obtain ⟨first, last⟩ := upper
    have sum := congrArg UInt8.toNat h
    rw [UInt8.le_iff_toNat_le] at first last
    rw [UInt8.toNat_add] at sum
    change 65 ≤ b.toNat at first
    change b.toNat ≤ 90 at last
    change (b.toNat + 32) % 256 = 0 at sum
    omega
  · exact h

theorem folded_cons (b : UInt8) (rest : List UInt8) :
    ∃ ns, folded (b :: rest) = (lower b).toNat :: ns := by
  unfold folded
  split_ifs with zero
  · exact ⟨[rest.length], by rw [zero]; rfl⟩
  · exact ⟨folded rest, rfl⟩

theorem compareFolded_eq (a b : List UInt8) :
    compareFolded a b = Ord.compare (folded a) (folded b) := by
  fun_induction compareFolded a b with
  | case1 => rfl
  | case2 b nonempty =>
    obtain ⟨c, cs, rfl⟩ := List.exists_cons_of_ne_nil nonempty
    obtain ⟨ns, longer⟩ := folded_cons c cs
    rw [longer]
    rfl
  | case3 a nonempty =>
    obtain ⟨c, cs, rfl⟩ := List.exists_cons_of_ne_nil nonempty
    obtain ⟨ns, longer⟩ := folded_cons c cs
    rw [longer]
    rfl
  | case4 a as b bs apart =>
    obtain ⟨ns, left⟩ := folded_cons a as
    obtain ⟨ms, right⟩ := folded_cons b bs
    have other : Ord.compare (lower a).toNat (lower b).toNat ≠ .eq := by
      rw [ne_eq, Nat.compare_eq_eq, UInt8.toNat_inj]
      exact apart
    rw [left, right, List.compare_cons_cons]
    cases found : Ord.compare (lower a).toNat (lower b).toNat with
    | eq => exact absurd found other
    | lt | gt => rfl
  | case5 as b bs same =>
    have zero : b = 0 := lower_eq_zero (not_not.1 same).symm
    simp [folded, zero, List.compare_cons_cons]
  | case6 a as b bs same some ih =>
    have same := not_not.1 same
    have other : b ≠ 0 := by
      rintro rfl
      exact some (lower_eq_zero same)
    rw [folded, folded, if_neg some, if_neg other, List.compare_cons_cons, same, ih,
      Std.ReflOrd.compare_self]
    rfl

variable {encoding : Encoding} {collation : String} {a b : List UInt8}

section Plain

variable (folds : collation.toLower ≠ "nocase") (cuts : collation.toLower ≠ "rtrim")
include folds cuts

theorem compare_plain : compare encoding collation a b = compareBytes a b := by
  unfold compare
  split <;> first | contradiction | rfl

theorem key_plain : key encoding collation a = a.map UInt8.toNat := by
  unfold key
  split <;> first | contradiction | rfl

end Plain

theorem compare_eq (encoding : Encoding) (collation : String) (a b : List UInt8) :
    compare encoding collation a b
      = Ord.compare (key encoding collation a) (key encoding collation b) := by
  by_cases folds : collation.toLower = "nocase"
  · simp only [compare, key, folds]
    exact compareFolded_eq _ _
  · by_cases cuts : collation.toLower = "rtrim"
    · simp only [compare, key, cuts]
      exact compareOfLessAndEq_eq _ _
    · rw [compare_plain folds cuts, key_plain folds cuts, key_plain folds cuts]
      exact compareOfLessAndEq_eq _ _

/-- Every name but two stands for the order of the bytes. -/
theorem compare_eq_eq (folds : collation.toLower ≠ "nocase") (cuts : collation.toLower ≠ "rtrim") :
    compare encoding collation a b = .eq ↔ a = b := by
  rw [compare_eq, key_plain folds cuts, key_plain folds cuts, Std.LawfulEqOrd.compare_eq_iff_eq]
  exact List.map_inj_right fun _ _ => UInt8.toNat_inj.1

end Collation

/-! ## Contents -/

namespace Cell

variable {encoding : Encoding} {collation : String}

def keyBytes (encoding : Encoding) (collation : String) : Cell → List Nat
  | .text bytes => Collation.key encoding collation bytes
  | .blob bytes => bytes.map UInt8.toNat
  | .zeros count => List.replicate count 0
  | _ => []

theorem signedUnits_integer (m n : Int) :
    compare (integer m).signedUnits (integer n).signedUnits = compare m n := by
  have one : (0 : Int) < Binary64.unitsOfOne := Int.natCast_pos.2 Binary64.unitsOfOne_pos
  have scaled := (strictMono_mul_right_of_pos one).cmp_map_eq m n
  rwa [cmp_eq_compare, cmp_eq_compare] at scaled

/-- What a content is comes first, then the number that it is, and then its bytes. -/
theorem order_eq : order encoding collation = compareLex (compareOn rank)
    (compareLex (compareOn signedUnits) (compareOn (keyBytes encoding collation))) := by
  funext a b
  unfold order compareLex compareOn
  split
  next s t =>
    rw [Collation.compare_eq]
    simp [rank, signedUnits, keyBytes]
  next m n =>
    rw [signedUnits_integer]
    simp [rank, keyBytes]
  next texts wholes =>
    split_ifs with apart bytes
    · cases found : compare a.rank b.rank with
      | eq => exact absurd (Nat.compare_eq_eq.1 found) apart
      | lt | gt => rfl
    · rw [Collation.compareBytes, compareOfLessAndEq_eq]
      cases a <;> cases b <;> simp [rank, signedUnits, keyBytes, kept?] at apart bytes ⊢
    · cases a <;> cases b <;> simp [rank, keyBytes] at texts wholes apart bytes ⊢

instance : Std.TransCmp (order encoding collation) := by
  rw [order_eq]
  infer_instance

theorem isText_iff (folds : collation.toLower ≠ "nocase") (cuts : collation.toLower ≠ "rtrim")
    {s : String} {cell : Cell} : cell.isText encoding collation s = true ↔
      cell = .text (encoding.encode s.toUTF8.toList) := by
  cases cell with
  | text bytes =>
    rw [isText, decide_eq_true_iff, Collation.compare_eq_eq folds cuts, text.injEq]
  | null | integer _ | real _ | blob _ | zeros _ => exact ⟨nofun, nofun⟩

end Cell

end LayeredPreferences.Database
