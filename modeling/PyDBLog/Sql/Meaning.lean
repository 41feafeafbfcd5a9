import PyDBLog.Sql.Text
import Mathlib.Data.List.Lex
import Mathlib.Data.List.Pairwise
import Mathlib.Data.List.Sort

/-! # What a SELECT reads

The result of a statement over the rows of a table: the rows that meet its comparisons, in an order
the statement asks for, cut by TOP or FETCH, each as the select list shows it. Where rows tie, any
order is a result. A name in ORDER BY is that of a select list entry if there is one, and a column
of the table otherwise; a name in WHERE is a column of the table. Parameters are bound in the order
of the text. -/

namespace PyDBLog.Sql.Meaning

open PyDBLog.Sql.Statement PyDBLog.Sql.Text

/-- The values of a database: NULL among them, and the integers a parameter can be. -/
structure Domain (V : Type) where
  null : V
  ofInt : ℤ → V

/-- A row of a table, by the names of its columns. -/
abbrev Row (V : Type) := String → V

variable {V : Type}

/-- A table with a primary key: no two rows agree on the key, and no row has NULL in it. -/
structure Table (D : Domain V) (key : List String) where
  rows : List (Row V)
  unique : rows.Pairwise fun row row' => key.map row ≠ key.map row'
  not_null : ∀ row ∈ rows, ∀ name ∈ key, row name ≠ D.null

/-! ### Parameters -/

/-- The parameters of a statement, each with what it is for. -/
structure Bound where
  top : Option ℤ
  bounds : List ℤ
  fetch : Option ℤ

/-- The next parameter, if there is a question mark for it. -/
def takeIf : Bool → List ℤ → Option (Option ℤ × List ℤ)
  | false, params => some (none, params)
  | true, p :: params => some (some p, params)
  | true, [] => none

/-- The parameters of a list taken up from left to right, as the question marks stand in the
text. -/
def bound (q : Select) (params : List ℤ) : Option Bound := do
  let (top, params) ← takeIf q.top params
  let (fetch, rest) ← takeIf q.fetch (params.drop q.predicates.length)
  if params.length < q.predicates.length ∨ rest ≠ [] then none
  else some ⟨top, params.take q.predicates.length, fetch⟩

/-! ### The order -/

section order

variable (D : Domain V)

/-- What a select list entry shows of a row. -/
def shown (item : Item) (row : Row V) : V := if item.isNull then D.null else row item.name

/-- What a name in ORDER BY stands for. -/
def sortValue (q : Select) (row : Row V) (name : String) : V :=
  match q.items.find? fun item => item.name = name with
  | some item => shown D item row
  | none => row name

def sortKey (q : Select) (row : Row V) : List V := q.orderBy.map (sortValue D q row)

variable {D} {q : Select}

/-- No entry that shows NULL has the name of a key: the order is that of the key's columns. -/
theorem sortKey_eq (h : ∀ name ∈ q.orderBy, ⟨name, true⟩ ∉ q.items) (row : Row V) :
    sortKey D q row = q.orderBy.map row := by
  refine List.map_congr_left fun name hname => ?_
  unfold sortValue
  cases hfind : q.items.find? fun item => item.name = name with
  | none => rfl
  | some item =>
    have hitem := List.mem_of_find?_eq_some hfind
    have hn : item.name = name := by simpa using List.find?_some hfind
    have hshown : item.isNull = false := by
      by_contra hnull
      rw [Bool.not_eq_false] at hnull
      exact h name hname (by rw [← hn, ← hnull]; exact hitem)
    simp [shown, hshown, hn]

end order

/-! ### Results -/

variable [LinearOrder V] (D : Domain V)

/-- A row meets a comparison with a parameter. -/
def Meets (p : (String × Comparison) × ℤ) (row : Row V) : Prop :=
  row p.1.1 ≠ D.null ∧ match p.1.2 with
    | .ge => D.ofInt p.2 ≤ row p.1.1
    | .lt => row p.1.1 < D.ofInt p.2

instance (p : (String × Comparison) × ℤ) (row : Row V) : Decidable (Meets D p row) := by
  unfold Meets
  cases p.1.2 <;> infer_instance

/-- The rows a cap leaves. -/
def capped {α : Type} (cap : Option ℤ) (rows : List α) : List α :=
  match cap with
  | none => rows
  | some n => rows.take n.toNat

/-- **The results of a statement** with its parameters over rows. -/
def Reads (q : Select) (params : List ℤ) (rows : List (Row V)) (result : List (List V)) : Prop :=
  ∃ b, bound q params = some b ∧ ∃ sorted : List (Row V),
    sorted.Perm (rows.filter fun row => ∀ p ∈ q.predicates.zip b.bounds, Meets D p row) ∧
    sorted.Pairwise (fun row row' => sortKey D q row ≤ sortKey D q row') ∧
    result = (capped b.fetch (capped b.top sorted)).map fun row => q.items.map (shown D · row)

/-- The results of a text: those of the statement it is the text of. -/
def Means (text : String) (params : List ℤ) (rows : List (Row V)) (result : List (List V)) : Prop :=
  ∃ q : Select, q.PlainNames ∧ q.text = text ∧ Reads D q params rows result

/-! ### Consequences -/

variable {D} {q : Select} {params : List ℤ} {rows : List (Row V)} {result : List (List V)}

/-- A text means what its statement does. -/
theorem means_text (h : q.PlainNames) : Means D q.text params rows result ↔ Reads D q params rows result := by
  constructor
  · rintro ⟨q', h', htext, hreads⟩
    obtain rfl := Select.text_injective h' h htext
    exact hreads
  · exact fun hreads => ⟨q, h, rfl, hreads⟩

/-- **Over a table with a primary key there is one order by it.** -/
theorem sorted_unique {key : List String} {rows sorted sorted' : List (Row V)}
    (unique : rows.Pairwise fun row row' => key.map row ≠ key.map row') (h : sorted.Perm rows)
    (h' : sorted'.Perm rows) (hs : sorted.Pairwise fun row row' => key.map row ≤ key.map row')
    (hs' : sorted'.Pairwise fun row row' => key.map row ≤ key.map row') : sorted = sorted' := by
  have hinj : ∀ row ∈ rows, ∀ row' ∈ rows, key.map row = key.map row' → row = row' := by
    intro row hrow row' hrow' heq
    have hsymm : Std.Symm fun row row' : Row V => key.map row ≠ key.map row' := ⟨fun _ _ h => h.symm⟩
    by_contra hne
    exact unique.forall hrow hrow' hne heq
  refine List.Perm.eq_of_pairwise ?_ hs hs' (h.trans h'.symm)
  intro a b ha hb hab hba
  exact hinj a (h.mem_iff.mp ha) b (h'.mem_iff.mp hb) (le_antisymm hab hba)

end PyDBLog.Sql.Meaning
