import PhysHarness.Lib.Bytes

/-!
Base64 texts of bytes, and the strict decoder.

The decoder takes groups of four digits; only the last group may be padded, and the bits of its last
digit that no byte needs are dropped.
-/
namespace Base64

def digit (n : Nat) : Char :=
  if n < 26 then Char.ofNat (65 + n)
  else if n < 52 then Char.ofNat (71 + n)
  else if n < 62 then Char.ofNat (n - 4)
  else if n = 62 then '+'
  else '/'

def digitValue (c : Char) : Option Nat :=
  if 65 ≤ c.toNat ∧ c.toNat ≤ 90 then some (c.toNat - 65)
  else if 97 ≤ c.toNat ∧ c.toNat ≤ 122 then some (c.toNat - 71)
  else if 48 ≤ c.toNat ∧ c.toNat ≤ 57 then some (c.toNat + 4)
  else if c = '+' then some 62
  else if c = '/' then some 63
  else none

/-- `base64.b64encode(data)` -/
def encode : Bytes → List Char
  | [] => []
  | [a] => [digit (a.toNat / 4), digit (a.toNat % 4 * 16), '=', '=']
  | [a, b] =>
    [digit (a.toNat / 4), digit (a.toNat % 4 * 16 + b.toNat / 16), digit (b.toNat % 16 * 4), '=']
  | a :: b :: c :: rest =>
    digit (a.toNat / 4) :: digit (a.toNat % 4 * 16 + b.toNat / 16) ::
      digit (b.toNat % 16 * 4 + c.toNat / 64) :: digit (c.toNat % 64) :: encode rest

/-- The bytes of one group. -/
def group (first second : Nat) (third fourth : Option Nat) : Bytes :=
  UInt8.ofNat (first * 4 + second / 16) ::
    match third, fourth with
    | some third, some fourth =>
      [UInt8.ofNat (second % 16 * 16 + third / 4), UInt8.ofNat (third % 4 * 64 + fourth)]
    | some third, none => [UInt8.ofNat (second % 16 * 16 + third / 4)]
    | none, _ => []

/-- `base64.b64decode(text, validate=True)` -/
def decode : List Char → Option Bytes
  | [] => some []
  | a :: b :: c :: d :: rest => do
    let first ← digitValue a
    let second ← digitValue b
    if rest = [] ∧ d = '=' then
      if c = '=' then return group first second none none
      let third ← digitValue c
      return group first second (some third) none
    else
      let third ← digitValue c
      let fourth ← digitValue d
      return group first second (some third) (some fourth) ++ (← decode rest)
  | _ => none

theorem digitValue_digit : ∀ n < 64, digitValue (digit n) = some n := by decide

theorem digit_ne_pad : ∀ n < 64, digit n ≠ '=' := by decide

/-- What is encoded is decoded. -/
theorem decode_encode (data : Bytes) : decode (encode data) = some data := by
  induction data using encode.induct with
  | case1 => rfl
  | case2 a =>
    have small := a.toNat_lt
    have byte : a.toNat / 4 * 4 + a.toNat % 4 * 16 / 16 = a.toNat := by omega
    simp only [encode, decode, digitValue_digit _ (show a.toNat / 4 < 64 by omega),
      digitValue_digit _ (show a.toNat % 4 * 16 < 64 by omega), Option.bind_eq_bind,
      Option.bind_some, and_self, if_true, group, byte, UInt8.ofNat_toNat]
    rfl
  | case3 a b =>
    have small := a.toNat_lt
    have next := b.toNat_lt
    have one : a.toNat / 4 * 4 + (a.toNat % 4 * 16 + b.toNat / 16) / 16 = a.toNat := by omega
    have two : (a.toNat % 4 * 16 + b.toNat / 16) % 16 * 16 + b.toNat % 16 * 4 / 4 = b.toNat := by omega
    have third := show b.toNat % 16 * 4 < 64 by omega
    simp only [encode, decode, digitValue_digit _ (show a.toNat / 4 < 64 by omega),
      digitValue_digit _ (show a.toNat % 4 * 16 + b.toNat / 16 < 64 by omega),
      digitValue_digit _ third, digit_ne_pad _ third, Option.bind_eq_bind, Option.bind_some,
      and_self, if_true, if_false, group, one, two, UInt8.ofNat_toNat]
    rfl
  | case4 a b c rest ih =>
    have small := a.toNat_lt
    have next := b.toNat_lt
    have last := c.toNat_lt
    have one : a.toNat / 4 * 4 + (a.toNat % 4 * 16 + b.toNat / 16) / 16 = a.toNat := by omega
    have two : (a.toNat % 4 * 16 + b.toNat / 16) % 16 * 16 +
        (b.toNat % 16 * 4 + c.toNat / 64) / 4 = b.toNat := by omega
    have three : (b.toNat % 16 * 4 + c.toNat / 64) % 4 * 64 + c.toNat % 64 = c.toNat := by omega
    have fourth := show c.toNat % 64 < 64 by omega
    simp only [encode, decode, digitValue_digit _ (show a.toNat / 4 < 64 by omega),
      digitValue_digit _ (show a.toNat % 4 * 16 + b.toNat / 16 < 64 by omega),
      digitValue_digit _ (show b.toNat % 16 * 4 + c.toNat / 64 < 64 by omega),
      digitValue_digit _ fourth, digit_ne_pad _ fourth, and_false, if_false, Option.bind_eq_bind,
      Option.bind_some, ih, group, one, two, three, UInt8.ofNat_toNat]
    rfl

end Base64
