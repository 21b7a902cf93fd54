import Mathlib.Data.List.DropRight
import AthApps.Lib.Text

/-!
# Formatted input

`sscanf` with the conversions of integers and characters.  The result is the
list of the values that were converted, so its length is what C returns; the end
of the input before the first conversion counts as none.
-/

set_option autoImplicit false

namespace AthApps.Lib

/-- What a format is made of. -/
inductive Directive where
  | blanks
  | literal (c : UInt8)
  | integer (signed : Bool) (radix : Nat)
  | char
  deriving DecidableEq

def directives : Bytes → List Directive
  | [] => []
  | 37 :: 100 :: rest => .integer true 10 :: directives rest
  | 37 :: 117 :: rest => .integer false 10 :: directives rest
  | 37 :: 120 :: rest => .integer false 16 :: directives rest
  | 37 :: 99 :: rest => .char :: directives rest
  | 37 :: 49 :: 99 :: rest => .char :: directives rest
  | c :: rest => (if isSpace c then .blanks else .literal c) :: directives rest

def scanNumeral (radix : Nat) (text : Bytes) : Option (Nat × Bytes) :=
  match text.takeWhile fun c => digitValue c < radix with
  | [] => none
  | digits => some (numeralValue radix 0 (digits.map digitValue), text.drop digits.length)

def scanUnsigned (radix : Nat) : Bytes → Option (Nat × Bytes)
  | 48 :: x :: rest =>
    if radix = 16 ∧ (x = 120 ∨ x = 88) then scanNumeral radix rest
    else scanNumeral radix (48 :: x :: rest)
  | text => scanNumeral radix text

def scanNumber (radix : Nat) (text : Bytes) : Option (Int × Bytes) :=
  match text.dropWhile isSpace with
  | 43 :: rest => (scanUnsigned radix rest).map fun read => ((read.1 : Int), read.2)
  | 45 :: rest => (scanUnsigned radix rest).map fun read => (-(read.1 : Int), read.2)
  | rest => (scanUnsigned radix rest).map fun read => ((read.1 : Int), read.2)

/-- `strtol` or, for an unsigned conversion, `strtoul` puts the limits of a `long` of 64 bits in the
place of a number outside of them; what they return is cut to 32 bits. -/
def cut (signed : Bool) (n : Int) : Int32 :=
  if signed then Int32.ofInt (max (-0x8000000000000000) (min n 0x7fffffffffffffff))
  else Int32.ofInt (if n.natAbs ≤ 0xffffffffffffffff then n else 0xffffffffffffffff)

def scanInteger (signed : Bool) (radix : Nat) (text : Bytes) : Option (Int32 × Bytes) :=
  (scanNumber radix text).map fun read => (cut signed read.1, read.2)

def scan : List Directive → Bytes → List Int32
  | [], _ => []
  | .blanks :: format, text => scan format (text.dropWhile isSpace)
  | .literal _ :: _, [] => []
  | .literal c :: format, d :: text => if c = d then scan format text else []
  | .integer signed radix :: format, text =>
    match scanInteger signed radix text with
    | none => []
    | some (value, rest) => value :: scan format rest
  | .char :: _, [] => []
  | .char :: format, c :: text => Int32.ofNat c.toNat :: scan format text

def sscanf (text : Bytes) (format : String) : List Int32 :=
  scan (directives (letters format)) text

theorem scan_number (signed : Bool) (radix : Nat) (format : List Directive) (text : Bytes) :
    scan (.blanks :: .integer signed radix :: format) text =
      match scanNumber radix text with
      | none => []
      | some (n, rest) => cut signed n :: scan format rest := by
  have again : scanNumber radix (text.dropWhile isSpace) = scanNumber radix text := by
    rw [scanNumber, scanNumber, List.dropWhile_idempotent]
  rw [scan, scan, scanInteger, again]
  cases scanNumber radix text with
  | none => rfl
  | some read => rfl

end AthApps.Lib
