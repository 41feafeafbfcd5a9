import Mathlib.Data.List.Lex
import Mathlib.Data.Fin.Basic
import Mathlib.Tactic

/-! # Big-endian numerals of a fixed width

Lists of digits `Fin b`, most significant first. At one width the lexicographic order on the lists
is the order of their values (`lt_iff_value_lt`), the digits of a number have its value
(`value_digits`), and adding one is the successor: nothing of the same width lies strictly between
(`succ_le_of_lt`). -/

namespace PyDBLog.Bytes.BigEndian

variable {b : ℕ}

/-- The value of a numeral, most significant digit first. -/
def value : List (Fin b) → ℕ
  | [] => 0
  | x :: xs => x * b ^ xs.length + value xs

theorem value_lt : ∀ xs : List (Fin b), value xs < b ^ xs.length
  | [] => by simp [value]
  | x :: xs => by
    have h1 := value_lt xs
    have h2 : ((x : ℕ) + 1) * b ^ xs.length ≤ b * b ^ xs.length :=
      Nat.mul_le_mul_right _ x.isLt
    simp only [value, List.length_cons, pow_succ]
    rw [Nat.mul_comm (b ^ xs.length) b]
    linarith [Nat.add_mul (x : ℕ) 1 (b ^ xs.length)]

/-- **Order of the lists is order of the values**, at one width. -/
theorem lt_iff_value_lt : ∀ {xs ys : List (Fin b)}, xs.length = ys.length →
    (xs < ys ↔ value xs < value ys)
  | [], [], _ => by simp [value]
  | x :: xs, y :: ys, h => by
    have hl : xs.length = ys.length := by simpa using h
    have hx := value_lt xs
    have hy := value_lt ys
    rw [List.cons_lt_cons_iff, lt_iff_value_lt hl]
    simp only [value, hl] at hx ⊢
    rcases lt_trichotomy x y with hxy | rfl | hxy
    · have : ((x : ℕ) + 1) * b ^ ys.length ≤ y * b ^ ys.length := Nat.mul_le_mul_right _ hxy
      simp only [hxy, true_or, true_iff]
      linarith [Nat.add_mul (x : ℕ) 1 (b ^ ys.length)]
    · simp
    · have : ((y : ℕ) + 1) * b ^ ys.length ≤ x * b ^ ys.length := Nat.mul_le_mul_right _ hxy
      simp only [hxy.not_gt, hxy.ne', false_and, or_self, false_iff, not_lt]
      linarith [Nat.add_mul (y : ℕ) 1 (b ^ ys.length)]

theorem le_iff_value_le {xs ys : List (Fin b)} (h : xs.length = ys.length) :
    xs ≤ ys ↔ value xs ≤ value ys := by
  rw [← not_lt, lt_iff_value_lt h.symm, not_lt]

/-- The greatest value of a width is that of the greatest digit in every place. -/
theorem value_add_one_eq : ∀ {xs : List (Fin b)},
    value xs + 1 = b ^ xs.length ↔ ∀ x ∈ xs, (x : ℕ) + 1 = b
  | [] => by simp [value]
  | x :: xs => by
    have hv := value_lt xs
    have hx := x.isLt
    rw [List.forall_mem_cons, ← value_add_one_eq, value, List.length_cons, pow_succ']
    constructor
    · intro h
      have hxb : (x : ℕ) + 1 = b := by
        by_contra hne
        have hle : ((x : ℕ) + 1 + 1) * b ^ xs.length ≤ b * b ^ xs.length :=
          Nat.mul_le_mul_right _ (by omega)
        linarith [Nat.add_mul ((x : ℕ) + 1) 1 (b ^ xs.length), Nat.add_mul (x : ℕ) 1 (b ^ xs.length)]
      refine ⟨hxb, ?_⟩
      have hb : b * b ^ xs.length = ((x : ℕ) + 1) * b ^ xs.length := by rw [hxb]
      linarith [Nat.add_mul (x : ℕ) 1 (b ^ xs.length)]
    · rintro ⟨hxb, hxs⟩
      have hb : b * b ^ xs.length = ((x : ℕ) + 1) * b ^ xs.length := by rw [hxb]
      linarith [Nat.add_mul (x : ℕ) 1 (b ^ xs.length)]

theorem value_append : ∀ xs ys : List (Fin b), value (xs ++ ys) = value xs * b ^ ys.length + value ys
  | [], ys => by simp [value]
  | x :: xs, ys => by
    simp only [List.cons_append, value, value_append xs ys, List.length_append, pow_add]
    ring

/-- What is put behind the lesser of two numerals of one width does not make it the greater. -/
theorem append_lt_of_lt : ∀ {xs ys zs : List (Fin b)}, xs.length = ys.length → xs < ys → xs ++ zs < ys
  | [], [], _, _, h => absurd h (lt_irrefl _)
  | x :: xs, y :: ys, zs, hl, h => by
    rw [List.cons_lt_cons_iff] at h
    rw [List.cons_append, List.cons_lt_cons_iff]
    refine h.imp id fun ⟨hxy, hlt⟩ => ⟨hxy, append_lt_of_lt ?_ hlt⟩
    simpa using hl

theorem lt_append_of_lt : ∀ {xs ys zs : List (Fin b)}, xs < ys → xs < ys ++ zs
  | [], _ :: _, _, _ => List.nil_lt_cons _ _
  | x :: xs, y :: ys, zs, h => by
    rw [List.cons_lt_cons_iff] at h
    rw [List.cons_append, List.cons_lt_cons_iff]
    exact h.imp id fun ⟨hxy, hlt⟩ => ⟨hxy, lt_append_of_lt hlt⟩

variable [NeZero b]

theorem value_zeros (n : ℕ) : value (List.replicate n (0 : Fin b)) = 0 := by
  induction n with
  | zero => rfl
  | succ n ih => simp [List.replicate_succ, value, ih]

/-- What is less than a numeral with zeros behind it is less than the numeral. -/
theorem lt_of_lt_append_zeros : ∀ {xs ys : List (Fin b)} {n : ℕ}, ys.length = xs.length + n →
    ys < xs ++ List.replicate n 0 → ys < xs
  | [], ys, n, hl, h => by
    rw [List.nil_append, lt_iff_value_lt (by simpa using hl), value_zeros] at h
    exact absurd h (Nat.not_lt_zero _)
  | x :: xs, [], n, hl, _ => List.nil_lt_cons x xs
  | x :: xs, y :: ys, n, hl, h => by
    have hl' : ys.length = xs.length + n := by
      rw [List.length_cons, List.length_cons] at hl
      omega
    rw [List.cons_append, List.cons_lt_cons_iff] at h
    rw [List.cons_lt_cons_iff]
    exact h.imp id fun ⟨hxy, hlt⟩ => ⟨hxy, lt_of_lt_append_zeros hl' hlt⟩

/-- The last `w` digits of `n`, most significant first. -/
def digits : ℕ → ℕ → List (Fin b)
  | 0, _ => []
  | w + 1, n => Fin.ofNat b (n / b ^ w) :: digits w (n % b ^ w)

@[simp] theorem length_digits : ∀ w n : ℕ, (digits w n : List (Fin b)).length = w
  | 0, _ => rfl
  | w + 1, n => by simp [digits, length_digits w]

theorem value_digits : ∀ {w n : ℕ}, n < b ^ w → value (digits w n : List (Fin b)) = n
  | 0, n, h => by simp at h; simp [digits, value, h]
  | w + 1, n, h => by
    have hpos : 0 < b ^ w := Nat.pow_pos (NeZero.pos b)
    have hd : n / b ^ w < b := by
      rw [Nat.div_lt_iff_lt_mul hpos, ← pow_succ']; exact h
    simp only [digits, value, length_digits, Fin.val_ofNat, Nat.mod_eq_of_lt hd]
    rw [value_digits (Nat.mod_lt _ hpos), Nat.mul_comm]
    exact Nat.div_add_mod n (b ^ w)

/-- Adding one, unless every digit is the greatest. -/
def succ (w : ℕ) (xs : List (Fin b)) : Option (List (Fin b)) :=
  if value xs + 1 < b ^ w then some (digits w (value xs + 1)) else none

theorem succ_eq_some {w : ℕ} {xs ys : List (Fin b)} (h : succ w xs = some ys) :
    ys.length = w ∧ value ys = value xs + 1 := by
  unfold succ at h
  split_ifs at h with hlt
  obtain rfl := Option.some.inj h
  exact ⟨length_digits _ _, value_digits hlt⟩

/-- There is no successor of the greatest digit in every place, and of nothing else. -/
theorem succ_eq_none {w : ℕ} {xs : List (Fin b)} (hx : xs.length = w) :
    succ w xs = none ↔ ∀ x ∈ xs, (x : ℕ) + 1 = b := by
  have hv := value_lt xs
  rw [← value_add_one_eq, succ, hx]
  rw [hx] at hv
  split_ifs with hlt
  · simp [hlt.ne]
  · simp only [true_iff]
    omega

theorem lt_succ {w : ℕ} {xs ys : List (Fin b)} (hx : xs.length = w) (h : succ w xs = some ys) :
    xs < ys := by
  obtain ⟨hl, hv⟩ := succ_eq_some h
  rw [lt_iff_value_lt (by rw [hx, hl]), hv]
  exact Nat.lt_succ_self _

/-- **The successor**: nothing of the same width lies strictly between. -/
theorem succ_le_of_lt {w : ℕ} {xs ys zs : List (Fin b)} (hx : xs.length = w) (hz : zs.length = w)
    (h : succ w xs = some ys) (hlt : xs < zs) : ys ≤ zs := by
  obtain ⟨hl, hv⟩ := succ_eq_some h
  rw [lt_iff_value_lt (by rw [hx, hz])] at hlt
  rw [le_iff_value_le (by rw [hl, hz]), hv]
  exact hlt

theorem lt_succ_iff {w : ℕ} {xs ys zs : List (Fin b)} (hx : xs.length = w) (hz : zs.length = w)
    (h : succ w xs = some ys) : zs < ys ↔ zs ≤ xs := by
  constructor
  · intro hlt
    by_contra hle
    exact absurd hlt (not_lt.mpr (succ_le_of_lt hx hz h (not_le.mp hle)))
  · exact fun hle => lt_of_le_of_lt hle (lt_succ hx h)

end PyDBLog.Bytes.BigEndian
