import LayeredPreferences.Number.Digits

set_option autoImplicit false

/-!
# Forms of real numbers

A form tells how the digits of a number are set: in place or with a power of ten,
to how many places, and what is done about zeros at the end.
-/
namespace LayeredPreferences

inductive RealStyle where
  | fixed
  | exponential
  /-- With a power of ten only where the number is very small or has too many digits. -/
  | general
deriving DecidableEq

structure RealForm where
  style : RealStyle
  precision : Nat
  /-- Whether zeros at the end stay, and the point before nothing. -/
  keepsPoint : Bool
  /-- Whether up to 26 digits are told, and always one after the point. -/
  isExact : Bool
  isGrouped : Bool
  isUpper : Bool

namespace RealForm

/-- What the digits are rounded to, as `Digits.rounded` takes it. -/
def round (form : RealForm) : Int :=
  match form.style with
  | .fixed => -form.precision
  | .exponential => form.precision + 1
  | .general => max 1 form.precision

def digits (form : RealForm) (rank : Nat) : Digits :=
  .ofRank rank form.round (if form.isExact then 26 else 16)

/-- The first characters, with zeros where there are not so many. -/
def filled (count : Nat) (digits : List Char) : List Char :=
  digits.take count ++ List.replicate (count - digits.length) '0'

/-- Commas between groups of three, counted from the end. -/
def grouped : List Char → List Char
  | [] => []
  | c :: rest =>
    if rest.length % 3 = 0 ∧ rest ≠ [] then c :: ',' :: grouped rest else c :: grouped rest

/-- A power of ten has two digits at least. -/
def power (isUpper : Bool) (exponent : Int) : List Char :=
  let size := Nat.toDigits 10 exponent.natAbs
  (if isUpper then 'E' else 'e') :: (if exponent < 0 then '-' else '+')
    :: (if size.length = 1 then '0' :: size else size)

/-- Zeros at the end are dropped, and the point with them unless there must be a digit. -/
def fraction (form : RealForm) (isTrimmed : Bool) (digits : List Char) : List Char :=
  let kept := if isTrimmed then (digits.reverse.dropWhile (· == '0')).reverse else digits
  if isTrimmed && kept.isEmpty then if form.isExact then ['.', '0'] else []
  else if kept.isEmpty && !form.keepsPoint && !form.isExact then []
  else '.' :: kept

/-- With so many places after the point. -/
def set (form : RealForm) (d : Digits) (isPower isTrimmed : Bool) (places : Nat) : List Char :=
  let lead : Int := if isPower then 0 else d.point - 1
  let count := (lead + 1).toNat
  let front := if lead < 0 then ['0'] else filled count d.digits
  let zeros := min places (-(lead + 1)).toNat
  let after := List.replicate zeros '0' ++ filled (places - zeros) (d.digits.drop count)
  (if form.isGrouped then grouped front else front) ++ form.fraction isTrimmed after
    ++ (if isPower then power form.isUpper (d.point - 1) else [])

/-- The text of these digits. -/
def write (form : RealForm) (d : Digits) : List Char :=
  let exponent := d.point - 1
  match form.style with
  | .fixed => form.set d false form.isExact form.precision
  | .exponential => form.set d true form.isExact form.precision
  | .general =>
    let places := max 1 form.precision - 1
    if exponent < -4 ∨ places < exponent then form.set d true (!form.keepsPoint) places
    else form.set d false (!form.keepsPoint) (places - exponent).toNat

end RealForm

end LayeredPreferences
