import Mathlib.Data.String.Basic

/-! # Texts with slots

A template is a text a program fixes, with slots for the names it puts in. `Fills` says that a text
is a template with names in all of its slots, from left to right; templates that are put one after
the other, with or without a separator, are filled by the names of the one and then those of the
other. -/

namespace PyDBLog.Sql.Slots

/-- A piece of a text: one that is fixed, or a slot for a name. -/
inductive Piece
  | text (s : String)
  | slot
  deriving DecidableEq

abbrev Template := List Piece

/-- How many names a template takes. -/
def slots (t : Template) : ℕ := t.count .slot

/-- The text of a template with names in its slots. -/
def fill : Template → List String → String
  | [], _ => ""
  | .text s :: t, names => s ++ fill t names
  | .slot :: t, names => names.headD "" ++ fill t names.tail

/-- Templates one after the other, with a text between them. -/
def separated (sep : String) : List Template → Template
  | [] => []
  | [t] => t
  | t :: u :: ts => t ++ .text sep :: separated sep (u :: ts)

/-- A text is the template with these names in its slots. -/
structure Fills (t : Template) (names : List String) (text : String) : Prop where
  slots_eq : slots t = names.length
  text_eq : text = fill t names

variable {t u : Template} {names more : List String} {a b : String}

theorem fill_append (h : slots t = names.length) :
    fill (t ++ u) (names ++ more) = fill t names ++ fill u more := by
  induction t generalizing names with
  | nil =>
    obtain rfl : names = [] := List.length_eq_zero_iff.mp h.symm
    simp [fill]
  | cons piece t ih =>
    cases piece with
    | text s =>
      have htail : slots t = names.length := by simpa [slots] using h
      simp only [List.cons_append, fill, ih htail, String.append_assoc]
    | slot =>
      cases names with
      | nil => simp [slots] at h
      | cons name names =>
        have htail : slots t = names.length := by simpa [slots] using h
        simp [fill, ih htail, String.append_assoc]

theorem Fills.text (s : String) : Fills [.text s] [] s where
  slots_eq := rfl
  text_eq := by simp [fill]

theorem Fills.slot (name : String) : Fills [.slot] [name] name where
  slots_eq := rfl
  text_eq := by simp [fill]

theorem Fills.append (h : Fills t names a) (h' : Fills u more b) :
    Fills (t ++ u) (names ++ more) (a ++ b) where
  slots_eq := by
    rw [slots, List.count_append, List.length_append]
    exact congrArg₂ _ h.slots_eq h'.slots_eq
  text_eq := by rw [fill_append h.slots_eq, h.text_eq, h'.text_eq]

/-- A template between two texts. -/
theorem Fills.between (front back : String) (h : Fills t names a) :
    Fills (.text front :: (t ++ [.text back])) names (front ++ a ++ back) := by
  have := ((Fills.text front).append h).append (Fills.text back)
  simpa using this

/-- Filled templates with a separator fill the separated template. -/
theorem Fills.separated (sep : String) (items : List (Template × List String × String))
    (h : ∀ item ∈ items, Fills item.1 item.2.1 item.2.2) :
    Fills (separated sep (items.map fun item => item.1)) (items.flatMap fun item => item.2.1)
      (sep.intercalate (items.map fun item => item.2.2)) := by
  induction items with
  | nil => exact ⟨rfl, rfl⟩
  | cons item items ih =>
    have hitem := h item List.mem_cons_self
    have hitems := ih fun other hother => h other (List.mem_cons_of_mem _ hother)
    cases items with
    | nil => simpa [Slots.separated] using hitem
    | cons next items =>
      have := hitem.append ((Fills.text sep).append hitems)
      simpa [Slots.separated, String.intercalate_cons_cons, String.append_assoc] using this

/-- The text a template is filled to determines the name in its one slot. -/
theorem fill_slot_inj {front back name other : String}
    (h : front ++ name ++ back = front ++ other ++ back) : name = other := by
  have hlist := congrArg String.toList h
  simp only [String.toList_append, List.append_cancel_right_eq, List.append_cancel_left_eq] at hlist
  exact String.toList_inj.mp hlist

end PyDBLog.Sql.Slots
