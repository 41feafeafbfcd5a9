import Mathlib.Data.Fin.Basic
import Mathlib.Tactic

/-! # Bytes written in hexadecimal

A byte is spelled by two digits, of either case, and white space may stand before, between and after
bytes. `decode` reads a text back, and reads exactly what spells bytes (`decode_eq_some`); whatever
digits a writer has, what it writes spells the bytes it was given (`spells_pairs`). -/

namespace PyDBLog.Bytes.Hex

/-- The value of a hexadecimal digit: 0 to 9, a to f, A to F. -/
def digitValue (c : Char) : Option ℕ :=
  if 48 ≤ c.toNat ∧ c.toNat ≤ 57 then some (c.toNat - 48)
  else if 97 ≤ c.toNat ∧ c.toNat ≤ 102 then some (c.toNat - 87)
  else if 65 ≤ c.toNat ∧ c.toNat ≤ 70 then some (c.toNat - 55)
  else none

/-- ASCII white space: the blank, and from the tab to the carriage return. -/
def isSpace (c : Char) : Bool := c.toNat = 32 ∨ 9 ≤ c.toNat ∧ c.toNat ≤ 13

/-- The byte of two digits. -/
def byteOf (high low : Char) : Option (Fin 256) := do
  let h ← digitValue high
  let l ← digitValue low
  return Fin.ofNat 256 (16 * h + l)

/-- The bytes a text spells. -/
def decode : List Char → Option (List (Fin 256))
  | [] => some []
  | [c] => if isSpace c then some [] else none
  | high :: low :: cs =>
    if isSpace high then decode (low :: cs)
    else do
      let byte ← byteOf high low
      let bytes ← decode cs
      return byte :: bytes

/-- A text spells bytes. -/
inductive Spells : List Char → List (Fin 256) → Prop
  | nil : Spells [] []
  | space {c cs bs} (hc : isSpace c = true) (h : Spells cs bs) : Spells (c :: cs) bs
  | byte {high low cs b bs} (hb : byteOf high low = some b) (h : Spells cs bs) :
      Spells (high :: low :: cs) (b :: bs)

/-! ### Digits -/

/-- White space is no digit. -/
theorem digitValue_space {c : Char} (h : isSpace c = true) : digitValue c = none := by
  have hcode : c.toNat = 32 ∨ 9 ≤ c.toNat ∧ c.toNat ≤ 13 := by simpa [isSpace] using h
  unfold digitValue
  rw [if_neg (by omega), if_neg (by omega), if_neg (by omega)]

theorem byteOf_space {high low : Char} (h : isSpace high = true) : byteOf high low = none := by
  rw [byteOf, digitValue_space h]
  rfl

theorem byteOf_digits {high low : Char} {b : Fin 256} (hh : digitValue high = some (b / 16 : ℕ))
    (hl : digitValue low = some (b % 16 : ℕ)) : byteOf high low = some b := by
  have hvalue : 16 * ((b : ℕ) / 16) + (b : ℕ) % 16 = b := Nat.div_add_mod _ _
  have hbyte : Fin.ofNat 256 (16 * ((b : ℕ) / 16) + (b : ℕ) % 16) = b := by
    rw [hvalue]
    exact Fin.ofNat_val_eq_self b
  rw [byteOf, hh, hl]
  exact congrArg some hbyte

/-! ### Reading -/

theorem decode_space {c : Char} (h : isSpace c = true) : ∀ cs : List Char, decode (c :: cs) = decode cs
  | [] => by simp [decode, h]
  | d :: cs => by simp [decode, h]

theorem decode_byte {high low : Char} {b : Fin 256} (h : byteOf high low = some b) (cs : List Char) :
    decode (high :: low :: cs) = (decode cs).map (b :: ·) := by
  have hspace : ¬ isSpace high = true := by
    intro hspace
    rw [byteOf_space hspace] at h
    cases h
  simp only [decode, if_neg hspace, h]
  cases decode cs <;> rfl

theorem spells_of_decode {cs : List Char} {bs : List (Fin 256)} (h : decode cs = some bs) : Spells cs bs := by
  induction cs using decode.induct generalizing bs with
  | case1 =>
    obtain rfl := Option.some.inj h
    exact .nil
  | case2 c hc =>
    rw [decode, if_pos hc] at h
    obtain rfl := Option.some.inj h
    exact .space hc .nil
  | case3 c hc =>
    rw [decode, if_neg hc] at h
    cases h
  | case4 high low cs hc ih =>
    rw [decode_space hc] at h
    exact .space hc (ih h)
  | case5 high low cs hc ih =>
    rw [decode, if_neg hc] at h
    obtain ⟨b, hb, h⟩ := Option.bind_eq_some_iff.mp h
    obtain ⟨bytes, hbytes, h⟩ := Option.bind_eq_some_iff.mp h
    obtain rfl := Option.some.inj h
    exact .byte hb (ih hbytes)

/-- **What is read is what the text spells.** -/
theorem decode_eq_some {cs : List Char} {bs : List (Fin 256)} : decode cs = some bs ↔ Spells cs bs := by
  refine ⟨spells_of_decode, fun h => ?_⟩
  induction h with
  | nil => rfl
  | space hc h ih => rw [decode_space hc, ih]
  | byte hb h ih => rw [decode_byte hb, ih, Option.map_some]

/-! ### Writing -/

/-- **Two digits for each byte spell the bytes**, whatever the digits are written as. -/
theorem spells_pairs {digit : ℕ → Char} (h : ∀ n < 16, digitValue (digit n) = some n)
    (bs : List (Fin 256)) : Spells (bs.flatMap fun b => [digit (b / 16), digit (b % 16)]) bs := by
  induction bs with
  | nil => exact .nil
  | cons b bs ih =>
    have hhigh := h ((b : ℕ) / 16) (by omega)
    have hlow := h ((b : ℕ) % 16) (by omega)
    exact .byte (byteOf_digits hhigh hlow) ih

end PyDBLog.Bytes.Hex
