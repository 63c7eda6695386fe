import Gomi.Go.Bytes

/-!
# Base 64

`base64.StdEncoding`: three bytes are written as four digits, and a rest of one or two bytes is padded.
The strict decoder accepts what the encoder writes (`Gomi.Go.base64Decode_base64Encode`); it ignores
line breaks, as the package does.
-/

namespace Gomi.Go

variable {bytes : Bytes} {n : ℕ}

/-- A digit, by its value. -/
def base64Digit (n : ℕ) : Char :=
  if n < 26 then Char.ofNat (n + 65)
  else if n < 52 then Char.ofNat (n + 71)
  else if n < 62 then Char.ofNat (n - 4)
  else if n = 62 then '+' else '/'

/-- The value of a digit. -/
def base64Value (c : Char) : Option ℕ :=
  if 'A' ≤ c ∧ c ≤ 'Z' then some (c.toNat - 65)
  else if 'a' ≤ c ∧ c ≤ 'z' then some (c.toNat - 71)
  else if '0' ≤ c ∧ c ≤ '9' then some (c.toNat + 4)
  else if c = '+' then some 62
  else if c = '/' then some 63 else none

theorem base64Value_base64Digit (hn : n < 64) : base64Value (base64Digit n) = some n := by
  have hall : ∀ n : Fin 64, base64Value (base64Digit n) = some n.val := by decide
  exact hall ⟨n, hn⟩

/-- The digits of some bytes. -/
def base64Digits : Bytes → List Char
  | [] => []
  | [a] => [base64Digit (a.toNat / 4), base64Digit (a.toNat % 4 * 16), '=', '=']
  | [a, b] => [base64Digit (a.toNat / 4), base64Digit (a.toNat % 4 * 16 + b.toNat / 16),
      base64Digit (b.toNat % 16 * 4), '=']
  | a :: b :: c :: rest =>
    base64Digit (a.toNat / 4) :: base64Digit (a.toNat % 4 * 16 + b.toNat / 16) ::
      base64Digit (b.toNat % 16 * 4 + c.toNat / 64) :: base64Digit (c.toNat % 64) ::
      base64Digits rest

/-- `base64.StdEncoding.EncodeToString`. -/
def base64Encode (bytes : Bytes) : String := String.ofList (base64Digits bytes)

/-- The bytes of some digits; bits that are padded must be zero. -/
def base64Bytes : List Char → Option Bytes
  | [] => some []
  | [w, x, '=', '='] => do
    let w ← base64Value w
    let x ← base64Value x
    if x % 16 = 0 then some [UInt8.ofNat (w * 4 + x / 16)] else none
  | [w, x, y, '='] => do
    let w ← base64Value w
    let x ← base64Value x
    let y ← base64Value y
    if y % 4 = 0 then some [UInt8.ofNat (w * 4 + x / 16), UInt8.ofNat (x % 16 * 16 + y / 4)]
    else none
  | w :: x :: y :: z :: rest => do
    let w ← base64Value w
    let x ← base64Value x
    let y ← base64Value y
    let z ← base64Value z
    let bytes ← base64Bytes rest
    some (UInt8.ofNat (w * 4 + x / 16) :: UInt8.ofNat (x % 16 * 16 + y / 4) ::
      UInt8.ofNat (y % 4 * 64 + z) :: bytes)
  | _ => none

/-- `base64.StdEncoding.Strict().DecodeString`. -/
def base64Decode (text : String) : Option Bytes :=
  base64Bytes (text.toList.filter fun c => c ≠ '\r' ∧ c ≠ '\n')

theorem length_base64Digits :
    (base64Digits bytes).length = 4 * ((bytes.length + 2) / 3) := by
  fun_induction base64Digits bytes with
  | case1 => simp
  | case2 a => simp
  | case3 a b => simp
  | case4 a b c rest ih =>
    simp only [List.length_cons, ih]
    omega

theorem base64Digit_ne_padding (hn : n < 64) : base64Digit n ≠ '=' := fun h => by
  have hvalue := base64Value_base64Digit hn
  rw [h] at hvalue
  cases hvalue

theorem ofNat_eq (a : UInt8) (h : n = a.toNat) : UInt8.ofNat n = a := by
  rw [h, UInt8.ofNat_toNat]

theorem base64Bytes_base64Digits : base64Bytes (base64Digits bytes) = some bytes := by
  fun_induction base64Digits bytes with
  | case1 => rfl
  | case2 a =>
    have ha := a.toNat_lt
    simp only [base64Bytes, base64Value_base64Digit (show a.toNat / 4 < 64 by omega),
      base64Value_base64Digit (show a.toNat % 4 * 16 < 64 by omega), Option.bind_eq_bind,
      Option.bind_some]
    rw [if_pos (by omega), ofNat_eq a (by omega)]
  | case3 a b =>
    have ha := a.toNat_lt
    have hb := b.toNat_lt
    have hpad := base64Digit_ne_padding (show b.toNat % 16 * 4 < 64 by omega)
    rw [base64Bytes]
    · simp only [base64Value_base64Digit (show a.toNat / 4 < 64 by omega),
        base64Value_base64Digit (show a.toNat % 4 * 16 + b.toNat / 16 < 64 by omega),
        base64Value_base64Digit (show b.toNat % 16 * 4 < 64 by omega), Option.bind_eq_bind,
        Option.bind_some]
      rw [if_pos (by omega), ofNat_eq a (by omega), ofNat_eq b (by omega)]
    · exact hpad
  | case4 a b c rest ih =>
    have ha := a.toNat_lt
    have hb := b.toNat_lt
    have hc := c.toNat_lt
    have hpad := base64Digit_ne_padding (show c.toNat % 64 < 64 by omega)
    rw [base64Bytes]
    · simp only [base64Value_base64Digit (show a.toNat / 4 < 64 by omega),
        base64Value_base64Digit (show a.toNat % 4 * 16 + b.toNat / 16 < 64 by omega),
        base64Value_base64Digit (show b.toNat % 16 * 4 + c.toNat / 64 < 64 by omega),
        base64Value_base64Digit (show c.toNat % 64 < 64 by omega), ih, Option.bind_eq_bind,
        Option.bind_some]
      rw [ofNat_eq a (by omega), ofNat_eq b (by omega), ofNat_eq c (by omega)]
    · exact fun _ h => absurd h hpad
    · exact fun h => absurd h hpad

/-- What holds of every digit and of the padding holds of the text. -/
theorem forall_mem_base64Digits {p : Char → Prop} (hdigit : ∀ n < 64, p (base64Digit n))
    (hpad : p '=') : ∀ c ∈ base64Digits bytes, p c := by
  fun_induction base64Digits bytes with
  | case1 => exact List.forall_mem_nil p
  | case2 a =>
    have ha := a.toNat_lt
    simp only [List.forall_mem_cons]
    exact ⟨hdigit _ (by omega), hdigit _ (by omega), hpad, hpad, List.forall_mem_nil p⟩
  | case3 a b =>
    have ha := a.toNat_lt
    have hb := b.toNat_lt
    simp only [List.forall_mem_cons]
    exact ⟨hdigit _ (by omega), hdigit _ (by omega), hdigit _ (by omega), hpad,
      List.forall_mem_nil p⟩
  | case4 a b c rest ih =>
    have ha := a.toNat_lt
    have hb := b.toNat_lt
    have hc := c.toNat_lt
    simp only [List.forall_mem_cons]
    exact ⟨hdigit _ (by omega), hdigit _ (by omega), hdigit _ (by omega), hdigit _ (by omega), ih⟩

/-- **The strict decoder reads what the encoder writes.** -/
theorem base64Decode_base64Encode (bytes : Bytes) :
    base64Decode (base64Encode bytes) = some bytes := by
  have hlines : ∀ c ∈ base64Digits bytes, c ≠ '\r' ∧ c ≠ '\n' := by
    refine forall_mem_base64Digits ?_ (by decide)
    intro n hn
    have hall : ∀ n : Fin 64, base64Digit n ≠ '\r' ∧ base64Digit n ≠ '\n' := by decide
    exact hall ⟨n, hn⟩
  rw [base64Decode, base64Encode, String.toList_ofList, List.filter_eq_self.mpr]
  · exact base64Bytes_base64Digits
  · exact fun c hc => decide_eq_true (hlines c hc)

end Gomi.Go
