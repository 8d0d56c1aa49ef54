import LayeredPreferences.Json.Reader

set_option autoImplicit false

/-!
# Quotations

A string between quotation marks. An escape is one letter, or `u` and four
hexadecimal digits of a 16-bit code unit; surrogates come in pairs.
-/
namespace LayeredPreferences.Json

def hexDigit? : Glyph → Option Nat
  | .char c =>
    let n := c.toNat
    if '0'.toNat ≤ n ∧ n ≤ '9'.toNat then some (n - '0'.toNat)
    else if 'a'.toNat ≤ n ∧ n ≤ 'f'.toNat then some (n - 'a'.toNat + 10)
    else if 'A'.toNat ≤ n ∧ n ≤ 'F'.toNat then some (n - 'A'.toNat + 10)
    else none
  | .stray => none

/-- Four hexadecimal digits. A source that ends before the fourth byte is cut off. -/
def hexFour : Reader Nat := fun source =>
  match source.take 4 |>.mapM hexDigit? with
  | some [a, b, c, d] => .ok (((a * 16 + b) * 16 + c) * 16 + d, source.drop 4)
  | _ =>
    if (source.take 4).foldr (·.byteSize + ·) 0 < 4 then .error ⟨[], .endOf .string⟩
    else .error ⟨[], .invalidEscape⟩

/-- The second half of a pair of surrogates. -/
def lowSurrogate (high : Nat) : Reader Char := fun source =>
  match source with
  | [] => .error ⟨[], .endOf .string⟩
  | .char '\\' :: [] => .error ⟨[], .endOf .string⟩
  | .char '\\' :: .char 'u' :: rest => do
    let (low, rest) ← hexFour rest
    if 0xDC00 ≤ low ∧ low ≤ 0xDFFF then
      pure (Char.ofNat ((high - 0xD800) * 1024 + (low - 0xDC00) + 0x10000), rest)
    else throw ⟨[], .loneSurrogate⟩
  | _ => .error ⟨[], .missingSurrogate⟩

/-- A code unit, or two of them that make up one character. -/
def codePoint : Reader Char := do
  let n ← hexFour
  if 0xDC00 ≤ n ∧ n ≤ 0xDFFF then refuse .loneSurrogate
  else if 0xD800 ≤ n ∧ n ≤ 0xDBFF then lowSurrogate n
  else pure (Char.ofNat n)

/-- After a backslash. -/
def escape : Reader Char := fun source =>
  match source with
  | [] => .error ⟨[], .endOf .string⟩
  | .char '"' :: rest => .ok ('"', rest)
  | .char '\\' :: rest => .ok ('\\', rest)
  | .char '/' :: rest => .ok ('/', rest)
  | .char 'b' :: rest => .ok ('\x08', rest)
  | .char 'f' :: rest => .ok ('\x0c', rest)
  | .char 'n' :: rest => .ok ('\n', rest)
  | .char 'r' :: rest => .ok ('\r', rest)
  | .char 't' :: rest => .ok ('\t', rest)
  | .char 'u' :: rest => codePoint rest
  | _ => .error ⟨[], .invalidEscape⟩

/-- An escape of which only the form is checked. -/
def looseEscape : Reader Char := fun source =>
  match source with
  | .char 'u' :: rest => (hexFour rest).map fun r => (Char.ofNat r.1, r.2)
  | _ => escape source

def Glyph.isControl : Glyph → Bool
  | .char c => c.toNat < 0x20
  | .stray => false

/-- What stands up to the closing quotation mark. -/
def letters (escape : Reader Char) (source : Source) : Except Fault (List Glyph × Source) :=
  match source with
  | [] => .error ⟨[], .endOf .string⟩
  | .char '"' :: rest => .ok ([], rest)
  | .char '\\' :: rest =>
    match escape rest with
    | .error fault => .error fault
    | .ok (c, more) =>
      if more.length ≤ rest.length then
        (letters escape more).map fun r => (.char c :: r.1, r.2)
      else .error ⟨[], .invalidEscape⟩
  | g :: rest =>
    if g.isControl then .error ⟨[], .controlCharacter⟩
    else (letters escape rest).map fun r => (g :: r.1, r.2)
termination_by source.length

/-- A quotation after its opening mark. -/
def quotation : Reader String := do
  match (← letters escape).mapM Glyph.char? with
  | some cs => pure (String.ofList cs)
  | none => refuse .invalidUnicode

end LayeredPreferences.Json
