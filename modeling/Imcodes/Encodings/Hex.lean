import Mathlib.Data.List.Basic

/-!
# Hexadecimal

Bytes as pairs of digits. Digits of both cases are read and those of lower case are written;
reading stops at the first pair that is not two digits.

* `decode_encode` — bytes that are written are read again.
* `encode_decode` — digits that are read are written again in lower case.
-/

namespace Hex

def digits : List Char := "0123456789abcdef".toList

/-- The value of a digit. -/
def digit? (c : Char) : Option Nat := digits.idxOf? c.toLower

/-- The digit of a value. -/
def digit (n : Nat) : Char := digits.getD n '0'

/-- The bytes of a text of digits. -/
def decode : List Char → List UInt8
  | high :: low :: rest =>
    match digit? high, digit? low with
    | some h, some l => UInt8.ofNat (16 * h + l) :: decode rest
    | _, _ => []
  | _ => []

/-- The digits of bytes. -/
def encode (bytes : List UInt8) : List Char :=
  bytes.flatMap fun byte => [digit (byte.toNat / 16), digit (byte.toNat % 16)]

example : decode "0aFf7".toList = [10, 255] := by decide

example : encode [10, 255] = "0aff".toList := by decide

variable {bytes : List UInt8} {text : List Char} {c : Char} {n : Nat}

theorem digit?_digit (h : n < 16) : digit? (digit n) = some n := by
  revert n
  decide

theorem digit_of_digit? (h : digit? c = some n) : n < 16 ∧ digit n = c.toLower := by
  obtain ⟨hlt, hget, -⟩ := List.findIdx?_eq_some_iff_getElem.1 h
  refine ⟨hlt, ?_⟩
  rw [digit, List.getD_eq_getElem?_getD, List.getElem?_eq_getElem hlt]
  exact beq_iff_eq.1 hget

theorem digit_mem (n : Nat) : digit n ∈ digits := by
  rw [digit, List.getD_eq_getElem?_getD]
  cases hget : digits[n]? with
  | none => decide
  | some c => exact List.mem_of_getElem? hget

/-- What is no digit is not written. -/
theorem digit_ne (h : c ∉ digits) : digit n ≠ c := by
  rintro rfl
  exact h (digit_mem n)

theorem encode_cons {byte : UInt8} :
    encode (byte :: bytes) = digit (byte.toNat / 16) :: digit (byte.toNat % 16) :: encode bytes :=
  rfl

theorem length_encode : (encode bytes).length = 2 * bytes.length := by
  induction bytes with
  | nil => rfl
  | cons byte bytes ih =>
    rw [encode_cons, List.length_cons, List.length_cons, ih, List.length_cons]
    omega

/-- **What is written is read again.** -/
theorem decode_encode : decode (encode bytes) = bytes := by
  induction bytes with
  | nil => rfl
  | cons byte bytes ih =>
    have hlt : byte.toNat < 256 := byte.toNat_lt
    rw [encode_cons, decode, digit?_digit (by omega), digit?_digit (by omega)]
    dsimp only
    rw [ih, Nat.div_add_mod, UInt8.ofNat_toNat]

/-- **What is read is written again** in lower case. -/
theorem encode_decode (hdigits : ∀ c ∈ text, (digit? c).isSome) (heven : text.length % 2 = 0) :
    encode (decode text) = text.map Char.toLower := by
  induction text using decode.induct with
  | case1 high low rest h l hhigh hlow ih =>
    obtain ⟨hh, hhigh'⟩ := digit_of_digit? hhigh
    obtain ⟨hl, hlow'⟩ := digit_of_digit? hlow
    have hbyte : (UInt8.ofNat (16 * h + l)).toNat = 16 * h + l :=
      UInt8.toNat_ofNat_of_lt' (by simp only [UInt8.size]; omega)
    rw [decode, hhigh, hlow]
    dsimp only
    rw [encode_cons, hbyte, ih (fun c hc => hdigits c (by simp [hc]))
        (by simp only [List.length_cons] at heven; omega), List.map_cons, List.map_cons,
      ← hhigh', ← hlow', show (16 * h + l) / 16 = h by omega, show (16 * h + l) % 16 = l by omega]
  | case2 high low rest hnone =>
    obtain ⟨h, hh⟩ := Option.isSome_iff_exists.1 (hdigits high (by simp))
    obtain ⟨l, hl⟩ := Option.isSome_iff_exists.1 (hdigits low (by simp))
    exact absurd hl (hnone h l hh)
  | case3 text hshort =>
    match text with
    | [] => rfl
    | [c] => simp at heven
    | high :: low :: rest => exact absurd rfl (hshort high low rest)

end Hex
