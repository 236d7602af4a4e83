import ChangeFeed.Text.Bytes

/-!
# Base64 — bytes as text, three at a time

The standard alphabet with padding: three bytes are four digits of six bits
each, and the digits that a last group of one or two bytes does not reach
are written `=`.
-/

namespace ChangeFeed.Base64

/-- The sixty-four digits. -/
def alphabet : Text :=
  "ABCDEFGHIJKLMNOPQRSTUVWXYZabcdefghijklmnopqrstuvwxyz0123456789+/".toList

/-- The digit for a value below sixty-four. -/
def digit (n : Nat) : Char := alphabet.getD n '='

/-- **The text of some bytes**, padded to whole groups of four digits. -/
def encode : Bytes → Text
  | a :: b :: c :: rest =>
    let n := a.toNat * 65536 + b.toNat * 256 + c.toNat
    digit (n / 262144) :: digit (n / 4096 % 64) :: digit (n / 64 % 64) :: digit (n % 64) ::
      encode rest
  | [a, b] =>
    let n := a.toNat * 1024 + b.toNat * 4
    [digit (n / 4096), digit (n / 64 % 64), digit (n % 64), '=']
  | [a] =>
    let n := a.toNat * 16
    [digit (n / 64), digit (n % 64), '=', '=']
  | [] => []

end ChangeFeed.Base64
