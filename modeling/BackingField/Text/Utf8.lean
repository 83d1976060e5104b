import BackingField.Text.Basic

/-!
# UTF-8

The encoding of texts as bytes, and two ways back.  `decode?` is strict: it refuses sequences that
are longer than necessary, surrogates and everything above `U+10FFFF`.  `decodeLossy` never fails:
each longest beginning of a character that does not go on as it should is replaced by one `U+FFFD`.
-/

namespace BackingField
namespace Utf8

/-- UTF-8 form of one character. -/
def encodeChar (c : Char) : Bytes :=
  let n := c.toNat
  if n < 0x80 then
    [n.toUInt8]
  else if n < 0x800 then
    [(0xC0 + n / 64).toUInt8, (0x80 + n % 64).toUInt8]
  else if n < 0x10000 then
    [(0xE0 + n / 4096).toUInt8, (0x80 + n / 64 % 64).toUInt8, (0x80 + n % 64).toUInt8]
  else
    [(0xF0 + n / 262144).toUInt8, (0x80 + n / 4096 % 64).toUInt8, (0x80 + n / 64 % 64).toUInt8,
     (0x80 + n % 64).toUInt8]

/-- UTF-8 form of a text. -/
def encode (t : Text) : Bytes :=
  t.flatMap encodeChar

/-- What the first byte of a character announces: how many bytes follow, between which bounds the
next one lies, and the leading bits of the code point. -/
structure Lead where
  more : Nat
  low : Nat
  high : Nat
  bits : Nat

/-- Reading of a first byte.  The bounds for the next byte rule out overlong forms, surrogates and
code points that are too large. -/
def lead? (b : Nat) : Option Lead :=
  if b < 0x80 then
    some ⟨0, 0x80, 0xBF, b⟩
  else if b < 0xC2 then
    none
  else if b < 0xE0 then
    some ⟨1, 0x80, 0xBF, b - 0xC0⟩
  else if b < 0xF0 then
    some ⟨2, if b = 0xE0 then 0xA0 else 0x80, if b = 0xED then 0x9F else 0xBF, b - 0xE0⟩
  else if b < 0xF5 then
    some ⟨3, if b = 0xF0 then 0x90 else 0x80, if b = 0xF4 then 0x8F else 0xBF, b - 0xF0⟩
  else
    none

/-- Read the bytes that follow a first byte.  The result is the code point, or nothing at the first
byte out of bounds, which is left to the rest. -/
def continue? (more low high bits : Nat) (bytes : Bytes) : Option Nat × Bytes :=
  match more, bytes with
  | 0, bytes => (some bits, bytes)
  | _ + 1, [] => (none, [])
  | more + 1, b :: bytes =>
      if low ≤ b.toNat ∧ b.toNat ≤ high then
        continue? more 0x80 0xBF (bits * 64 + (b.toNat - 0x80)) bytes
      else
        (none, b :: bytes)

/-- The character that starts with the given first byte, nothing if it is malformed, and the bytes
behind it. -/
def next (b : UInt8) (bytes : Bytes) : Option Char × Bytes :=
  match lead? b.toNat with
  | none => (none, bytes)
  | some lead =>
      let (point, rest) := continue? lead.more lead.low lead.high lead.bits bytes
      (point.map Char.ofNat, rest)

theorem length_continue?_le (more low high bits : Nat) (bytes : Bytes) :
    (continue? more low high bits bytes).2.length ≤ bytes.length := by
  fun_induction continue? more low high bits bytes with
  | case1 => simp
  | case2 => simp
  | case3 low high bits more b bytes hb ih => simp only [List.length_cons]; omega
  | case4 => simp

theorem length_next_le (b : UInt8) (bytes : Bytes) : (next b bytes).2.length ≤ bytes.length := by
  unfold next
  split
  · simp
  · exact length_continue?_le _ _ _ _ bytes

/-- The characters of a byte sequence in order, with nothing in the place of a malformed one. -/
def chars : Bytes → List (Option Char)
  | [] => []
  | b :: bytes => (next b bytes).1 :: chars (next b bytes).2
termination_by bytes => bytes.length
decreasing_by
  have := length_next_le b bytes
  simp only [List.length_cons]
  omega

/-- The text whose UTF-8 form the bytes are, if there is one. -/
def decode? (bytes : Bytes) : Option Text :=
  (chars bytes).mapM id

/-- The text of a byte sequence, with `U+FFFD` in the place of what is malformed. -/
def decodeLossy (bytes : Bytes) : Text :=
  (chars bytes).map fun c => c.getD '\uFFFD'

end Utf8
end BackingField
