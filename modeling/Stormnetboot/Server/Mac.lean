import Stormnetboot.Common.Hex

/-!
# MAC addresses

Every spelling of a MAC is reduced to its six octets the moment it arrives; the parser skips
the separators wherever they stand and counts the hexadecimal digits.
-/

namespace Stormnetboot.Server

open Stormnetboot.Common

/-- A MAC in canonical form. -/
structure Mac where
  octets : Vector UInt8 6
  deriving DecidableEq, Repr

/-- Why a text is no MAC. -/
inductive MacParseError where
  | wrongLength (found : ℕ)
  | notHex (c : Char)
  deriving DecidableEq, Repr

namespace Mac

/-- The MAC of these octets. -/
def ofOctets (a b c d e f : UInt8) : Mac :=
  ⟨#v[a, b, c, d, e, f]⟩

/-- The characters the parser skips. -/
def isSeparator (ch : Char) : Bool :=
  ch == ':' || ch == '-' || ch == '.' || ch == '_' || ch == ' '

/-- One turn of the loop: a digit is stored while there is room, and counted in any case. -/
def parseChar (acc : Vector UInt8 12 × ℕ) (ch : Char) :
    Except MacParseError (Vector UInt8 12 × ℕ) :=
  if isSeparator ch then .ok acc
  else
    match hexDigit ch with
    | none => .error (.notHex ch)
    | some digit =>
      if h : acc.2 < 12 then .ok (acc.1.set acc.2 (UInt8.ofNat digit), acc.2 + 1)
      else .ok (acc.1, acc.2 + 1)

/-- `Mac::parse`. -/
def parse (input : Text) : Except MacParseError Mac := do
  let (nibbles, seen) ← input.foldlM parseChar (Vector.replicate 12 0, 0)
  if seen ≠ 12 then .error (.wrongLength seen)
  else
    .ok ⟨Vector.ofFn fun i =>
      (nibbles.get ⟨2 * i.val, by omega⟩ <<< 4) ||| nibbles.get ⟨2 * i.val + 1, by omega⟩⟩

/-- The canonical spelling: lower case, with colons. -/
def display (mac : Mac) : Text :=
  joinWith ":".toList (mac.octets.toList.map fun octet => hexEncode [octet])

end Mac

end Stormnetboot.Server
