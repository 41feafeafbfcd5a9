import PyDBLog.Bytes.BigEndian
import Mathlib.Data.String.Basic

/-! # The Python the program is written in

Byte strings are lists of bytes compared lexicographically; `hex`, `join` and `repr` build the texts
of the error messages. A call that reaches outside the process is a computation over the world it
runs in (`Call`): it returns or raises, and either way leaves the world it ran in. `bind_ok` peels a
returning computation apart. -/

namespace PyDBLog.Model.Python

/-- One byte. -/
abbrev Byte := Fin 256

instance byte_neZero : NeZero 256 := ⟨by decide⟩

/-- `bytes`. Comparison is lexicographic. -/
abbrev Bytes := List Byte

/-- A naive `datetime`, in microseconds. -/
abbrev Datetime := ℤ

/-- A `timedelta`, in microseconds. -/
abbrev Timedelta := ℤ

/-- An aware `datetime`: the instant, and the offset from UTC it is written with. -/
structure AwareDatetime where
  instant : ℤ
  offset : ℤ
  deriving DecidableEq

/-- `datetime.now(UTC)` at an instant. -/
def AwareDatetime.utc (instant : ℤ) : AwareDatetime := ⟨instant, 0⟩

/-- What a call can raise. `polarsError` stands for the exceptions polars raises on names, dtypes
and shapes, `driverError` for whatever the database driver raises. -/
inductive PyError
  | valueError (message : String)
  | typeError (message : String)
  | indexError (message : String)
  | keyError (message : String)
  | runtimeError (message : String)
  | timeoutError (message : String)
  | cdcRetentionExpiredError (message : String)
  | schemaChangedError (message : String)
  | polarsError (message : String)
  | driverError (message : String)
  deriving DecidableEq

/-! ### Texts -/

/-- One hexadecimal digit. -/
def hexDigit (n : ℕ) : Char := if n < 10 then Char.ofNat (48 + n) else Char.ofNat (87 + n)

/-- `bytes.hex()`. -/
def hex (bs : Bytes) : String :=
  String.ofList (bs.flatMap fun b => [hexDigit (b / 16), hexDigit (b % 16)])

/-- `', '.join(parts)`. -/
def commaJoin (parts : List String) : String := String.intercalate ", " parts

/-- `str.lower()` on the ASCII letters, which are all the letters of the type names it is asked
about. -/
def lower (s : String) : String := String.ofList (s.toList.map Char.toLower)

/-- The ranges of characters that `str.isprintable` refuses: controls, formats, separators other
than the blank and private use. Which code points stand for no character depends on the Python, and
none is taken to. -/
def unprintable : List (ℕ × ℕ) :=
  [(0, 31), (127, 160), (173, 173), (1536, 1541), (1564, 1564), (1757, 1757), (1807, 1807), (2192, 2193),
    (2274, 2274), (5760, 5760), (6158, 6158), (8192, 8207), (8232, 8239), (8287, 8292), (8294, 8303),
    (12288, 12288), (57344, 63743), (65279, 65279), (65529, 65531), (69821, 69821), (69837, 69837),
    (78896, 78904), (113824, 113827), (119155, 119162), (917505, 917505), (917536, 917631),
    (983040, 1048573), (1048576, 1114109)]

def isPrintable (c : Char) : Bool :=
  !unprintable.any fun range => range.1 ≤ c.toNat && c.toNat ≤ range.2

/-- A number in hexadecimal digits, of which there are `width`. -/
def hexDigits : ℕ → ℕ → List Char
  | 0, _ => []
  | width + 1, n => hexDigits width (n / 16) ++ [hexDigit (n % 16)]

/-- One character inside a `repr`, quoted with `quote`. -/
def reprChar (quote c : Char) : List Char :=
  let backslash := Char.ofNat 92
  if c = backslash ∨ c = quote then [backslash, c]
  else if c.toNat = 10 then [backslash, 'n']
  else if c.toNat = 13 then [backslash, 'r']
  else if c.toNat = 9 then [backslash, 't']
  else if isPrintable c then [c]
  else if c.toNat < 256 then backslash :: 'x' :: hexDigits 2 c.toNat
  else if c.toNat < 65536 then backslash :: 'u' :: hexDigits 4 c.toNat
  else backslash :: 'U' :: hexDigits 8 c.toNat

/-- `repr` of a string: single quotes, unless it holds one and no double quote. -/
def pyRepr (s : String) : String :=
  let single := Char.ofNat 39
  let double := Char.ofNat 34
  let quote := if single ∈ s.toList ∧ double ∉ s.toList then double else single
  String.ofList (quote :: s.toList.flatMap (reprChar quote) ++ [quote])

/-- `repr` of a byte string. -/
def pyReprBytes (bs : Bytes) : String :=
  let backslash := Char.ofNat 92
  let single := Char.ofNat 39
  let double := Char.ofNat 34
  let chars := bs.map fun b => Char.ofNat b
  let quote := if single ∈ chars ∧ double ∉ chars then double else single
  String.ofList ('b' :: quote :: bs.flatMap (fun b =>
    if b < 127 then reprChar quote (Char.ofNat b)
    else [backslash, 'x', hexDigit (b / 16), hexDigit (b % 16)]) ++ [quote])

/-! ### Calls -/

/-- A computation over the world `σ`: it returns a value or raises, and leaves a world behind. -/
abbrev Call (σ α : Type) := EStateM PyError σ α

section calls

variable {σ α β : Type} {w w' : σ}

theorem bind_ok {x : Call σ α} {f : α → Call σ β} {b : β} :
    (x >>= f) w = .ok b w' ↔ ∃ a w₁, x w = .ok a w₁ ∧ f a w₁ = .ok b w' := by
  show EStateM.bind x f w = _ ↔ _
  unfold EStateM.bind
  cases x w <;> simp

theorem pure_ok {a b : α} : (pure a : Call σ α) w = .ok b w' ↔ a = b ∧ w = w' := by
  show EStateM.Result.ok a w = _ ↔ _
  simp

theorem throw_ok {e : PyError} {b : α} : (throw e : Call σ α) w = .ok b w' ↔ False := by
  show EStateM.Result.error e w = _ ↔ _
  simp

theorem ofExcept_ok {x : Except PyError α} {b : α} :
    (ofExcept x : Call σ α) w = .ok b w' ↔ x = .ok b ∧ w = w' := by
  cases x with
  | ok a => simp [MonadExcept.ofExcept, pure_ok]
  | error e => simp [MonadExcept.ofExcept, throw_ok]

theorem except_bind_ok {x : Except PyError α} {f : α → Except PyError β} {b : β} :
    (x >>= f) = .ok b ↔ ∃ a, x = .ok a ∧ f a = .ok b := by
  cases x <;> simp [bind, Except.bind]

/-- `if c: raise e` lets the call go on only when `c` fails. -/
theorem guard_ok {c : Prop} [Decidable c] {e : PyError} {x : Call σ α} {b : α} :
    (if c then throw e else x) w = .ok b w' ↔ ¬ c ∧ x w = .ok b w' := by
  split_ifs with h
  · simp [h, throw_ok]
  · simp [h]

theorem except_guard_ok {c : Prop} [Decidable c] {e : PyError} {x : Except PyError α} {b : α} :
    (if c then .error e else x) = .ok b ↔ ¬ c ∧ x = .ok b := by
  split_ifs with h <;> simp [h]

theorem forM_ok {f : α → Except PyError PUnit} {u : PUnit} : ∀ {xs : List α},
    xs.forM f = .ok u ↔ ∀ x ∈ xs, f x = .ok ()
  | [] => by simp [pure, Except.pure]
  | x :: xs => by
    have ih : xs.forM f = .ok u ↔ _ := forM_ok
    show (f x >>= fun _ => xs.forM f) = _ ↔ _
    rw [except_bind_ok, List.forall_mem_cons, ← ih]
    exact ⟨fun ⟨_, hx, hxs⟩ => ⟨hx, hxs⟩, fun ⟨hx, hxs⟩ => ⟨_, hx, hxs⟩⟩

/-- A traversal that returns has a value for each element. -/
theorem mapM_ok {f : α → Except PyError β} : ∀ {xs : List α} {ys : List β},
    xs.mapM f = .ok ys ↔ List.Forall₂ (fun x y => f x = .ok y) xs ys
  | [], ys => by cases ys <;> simp [pure, Except.pure]
  | x :: xs, ys => by
    have ih : ∀ ys, xs.mapM f = .ok ys ↔ _ := fun ys => mapM_ok
    rw [List.mapM_cons, except_bind_ok]
    simp only [except_bind_ok, ih]
    constructor
    · rintro ⟨y, hy, ys', hys, h⟩
      obtain rfl := Except.ok.inj h
      exact .cons hy hys
    · rintro (_ | ⟨hy, hys⟩)
      exact ⟨_, hy, _, hys, rfl⟩

/-- A traversal by a function that returns `g x` where `P x` holds. -/
theorem mapM_ok_map {f : α → Except PyError β} {P : α → Prop} {g : α → β}
    (h : ∀ x y, f x = .ok y ↔ P x ∧ y = g x) {xs : List α} {ys : List β} :
    xs.mapM f = .ok ys ↔ (∀ x ∈ xs, P x) ∧ ys = xs.map g := by
  rw [mapM_ok]
  simp only [h]
  induction xs generalizing ys with
  | nil => simp
  | cons x xs ih =>
    cases ys with
    | nil => simp
    | cons y ys =>
      simp only [List.forall₂_cons, ih, List.forall_mem_cons, List.map_cons, List.cons.injEq]
      tauto

end calls

end PyDBLog.Model.Python
