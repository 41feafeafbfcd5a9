import PyDBLog.Sql.Statement

/-! # The text of a SELECT

Two statements with plain names have one text only if they are the same (`text_injective`): no word
holds a blank, and each clause is read off the words up to the one that follows it. Clause by
clause, the text is what `text_eq` says. -/

namespace PyDBLog.Sql.Text

open PyDBLog.Sql.Slots PyDBLog.Sql.Statement PyDBLog.Sql.Statement.Select

/-! ### Blanks -/

theorem mem_listed {α : Type} {words : α → String → List Word} {word : Word} : ∀ {as : List α},
    word ∈ listed words as → ∃ a ∈ as, ∃ after ∈ ["", ","], word ∈ words a after
  | [a], h => ⟨a, List.mem_cons_self, "", List.mem_cons_self, h⟩
  | a :: b :: as, h => by
    rw [listed, List.mem_append] at h
    rcases h with h | h
    · exact ⟨a, List.mem_cons_self, ",", by simp, h⟩
    · obtain ⟨c, hc, rest⟩ := mem_listed h
      exact ⟨c, List.mem_cons_of_mem _ hc, rest⟩

theorem Select.mem_whereWords {q : Select} {word : Word} (h : word ∈ q.whereWords) :
    word = fixed .where "WHERE" ∨ word = fixed .where "AND" ∨
      ∃ p ∈ q.predicates, word ∈ predicateWords p := by
  unfold whereWords at h
  cases hq : q.predicates with
  | nil => simp [hq] at h
  | cons p ps =>
    simp only [hq, andWords, List.cons_append, List.mem_cons, List.mem_append, List.mem_flatMap] at h
    rcases h with h | h | ⟨r, hr, h | h⟩
    · exact Or.inl h
    · exact Or.inr (Or.inr ⟨p, List.mem_cons_self, h⟩)
    · exact Or.inr (Or.inl h)
    · exact Or.inr (Or.inr ⟨r, List.mem_cons_of_mem _ hr, h⟩)

theorem mem_names_words {p : String × Comparison} {name : String}
    (h : name ∈ (predicateWords p).flatMap Word.names) : name = p.1 := by
  simpa [predicateWords, fixed, quoted] using h

/-- The names of a statement are those of its columns, its table, its comparisons and its order. -/
theorem Select.mem_names {q : Select} {name : String} (h : name ∈ q.names) :
    (∃ item ∈ q.items, item.name = name) ∨ name = q.schema ∨ name = q.table ∨
      (∃ p ∈ q.predicates, p.1 = name) ∨ name ∈ q.orderBy := by
  simp only [names, words, List.mem_flatMap, List.mem_append, List.mem_cons] at h
  obtain ⟨word, hword, hname⟩ := h
  rcases hword with (((((rfl | hword) | hword) | hword) | hword) | hword) | hword
  · cases hname
  · unfold topWords at hword
    split at hword
    · rcases List.mem_pair.mp hword with rfl | rfl <;> cases hname
    · cases hword
  · obtain ⟨item, hitem, after, -, hword⟩ := mem_listed hword
    rcases List.mem_append.mp hword with hnull | hquoted
    · split at hnull
      · rcases List.mem_pair.mp hnull with rfl | rfl <;> cases hname
      · cases hnull
    · obtain rfl := List.mem_singleton.mp hquoted
      exact Or.inl ⟨item, hitem, (List.mem_singleton.mp hname).symm⟩
  · rcases List.mem_pair.mp hword with rfl | rfl
    · cases hname
    · rcases List.mem_pair.mp hname with rfl | rfl
      · exact Or.inr (Or.inl rfl)
      · exact Or.inr (Or.inr (Or.inl rfl))
  · rcases mem_whereWords hword with rfl | rfl | ⟨p, hp, hword⟩
    · cases hname
    · cases hname
    · have := mem_names_words (List.mem_flatMap.mpr ⟨word, hword, hname⟩)
      exact Or.inr (Or.inr (Or.inr (Or.inl ⟨p, hp, this.symm⟩)))
  · rcases List.mem_cons.mp hword with rfl | hword
    · cases hname
    rcases List.mem_cons.mp hword with rfl | hword
    · cases hname
    obtain ⟨key, hkey, after, -, hword⟩ := mem_listed hword
    obtain rfl := List.mem_singleton.mp hword
    obtain rfl := List.mem_singleton.mp hname
    exact Or.inr (Or.inr (Or.inr (Or.inr hkey)))
  · unfold fetchWords at hword
    split at hword
    · obtain ⟨s, -, rfl⟩ := List.mem_map.mp hword
      cases hname
    · cases hword

@[simp] theorem fixed_text (clause : Clause) (s : String) : (fixed clause s).text = s := by
  simp [Word.text, fixed, fill]

@[simp] theorem quoted_text (clause : Clause) (name after : String) :
    (quoted clause name after).text = "[" ++ (name ++ ("]" ++ after)) := by
  simp [Word.text, quoted, fill]

theorem blank_notMem_quoted {clause : Clause} {name after : String} (h : Plain name)
    (hafter : after ∈ ["", ","]) : ' ' ∉ (quoted clause name after).text.toList := by
  have hname : ' ' ∉ name.toList := h.notMem
  have hrest : ' ' ∉ after.toList := by
    rcases List.mem_cons.mp hafter with rfl | hafter
    · decide
    · obtain rfl := List.mem_singleton.mp hafter
      decide
  simp [hname, hrest]

/-- No word holds a blank. -/
theorem Select.blank_notMem {q : Select} (h : q.PlainNames) :
    ∀ word ∈ q.words, ' ' ∉ word.text.toList := by
  have htop : ∀ word ∈ q.topWords, ' ' ∉ word.text.toList := by
    unfold topWords
    split <;> simp
  have hitems : ∀ word ∈ listed Item.words q.items, ' ' ∉ word.text.toList := by
    intro word hword
    obtain ⟨item, hitem, after, hafter, hword⟩ := mem_listed hword
    rcases List.mem_append.mp hword with hnull | hname
    · split at hnull
      · rcases List.mem_pair.mp hnull with rfl | rfl <;> simp
      · cases hnull
    · obtain rfl := List.mem_singleton.mp hname
      exact blank_notMem_quoted (h.items item hitem) hafter
  have hfrom : ∀ word ∈ q.fromWords, ' ' ∉ word.text.toList := by
    have hschema : ' ' ∉ q.schema.toList := h.schema.notMem
    have htable : ' ' ∉ q.table.toList := h.table.notMem
    simp [fromWords, Word.text, fixed, fill, hschema, htable]
  have hwhere : ∀ word ∈ q.whereWords, ' ' ∉ word.text.toList := by
    intro word hword
    rcases mem_whereWords hword with rfl | rfl | ⟨p, hp, hword⟩
    · simp
    · simp
    · have hquoted : ' ' ∉ (quoted (.compare p.2) p.1 "").text.toList :=
        blank_notMem_quoted (h.predicates p hp) List.mem_cons_self
      have hsymbol : ' ' ∉ p.2.symbol.toList := by cases p.2 <;> decide
      simp only [predicateWords, List.mem_cons, List.not_mem_nil, or_false] at hword
      rcases hword with rfl | rfl | rfl
      · exact hquoted
      · simpa using hsymbol
      · simp
  have horder : ∀ word ∈ q.orderWords, ' ' ∉ word.text.toList := by
    intro word hword
    simp only [orderWords, List.mem_cons] at hword
    rcases hword with rfl | rfl | hword
    · simp
    · simp
    · obtain ⟨name, hname, after, hafter, hword⟩ := mem_listed hword
      obtain rfl := List.mem_singleton.mp hword
      exact blank_notMem_quoted (h.orderBy name hname) hafter
  have hfetch : ∀ word ∈ q.fetchWords, ' ' ∉ word.text.toList := by
    unfold fetchWords
    split <;> simp
  intro word hword
  simp only [words, List.cons_append, List.mem_cons, List.mem_append] at hword
  rcases hword with rfl | ((((hword | hword) | hword) | hword) | hword) | hword
  · simp
  · exact htop word hword
  · exact hitems word hword
  · exact hfrom word hword
  · exact hwhere word hword
  · exact horder word hword
  · exact hfetch word hword

/-! ### One text, one statement -/

/-- Lists of words without blanks have different texts. -/
theorem intercalate_inj {ws ws' : List String} (h : ∀ w ∈ ws, ' ' ∉ w.toList)
    (h' : ∀ w ∈ ws', ' ' ∉ w.toList) (hne : ws ≠ []) (hne' : ws' ≠ [])
    (heq : " ".intercalate ws = " ".intercalate ws') : ws = ws' := by
  have hsplit : ∀ {ws : List String}, (∀ w ∈ ws, ' ' ∉ w.toList) → ws ≠ [] →
      ((" ".intercalate ws).toList.splitOn ' ') = ws.map String.toList := by
    intro ws h hne
    rw [String.toList_intercalate]
    exact List.splitOn_intercalate ' ' (by simpa using h) (by simpa using hne)
  have hlists := hsplit h hne
  rw [heq, hsplit h' hne'] at hlists
  exact (List.map_inj_right fun _ _ => String.toList_inj.mp).mp hlists.symm

/-- A list up to the first of an entry. -/
theorem append_cons_inj {α : Type} [DecidableEq α] {x : α} {l l' r r' : List α} (h : x ∉ l) (h' : x ∉ l')
    (heq : l ++ x :: r = l' ++ x :: r') : l = l' ∧ r = r' := by
  have hidx := congrArg (List.idxOf x) heq
  rw [List.idxOf_append_of_notMem h, List.idxOf_append_of_notMem h', List.idxOf_cons_self,
    List.idxOf_cons_self] at hidx
  obtain ⟨hl, hr⟩ := List.append_inj heq (by omega)
  exact ⟨hl, (List.cons.inj hr).2⟩

/-- A name in brackets and what follows it are read off the word. -/
theorem quoted_inj {name name' after after' : String} (h : Plain name) (h' : Plain name')
    (heq : "[" ++ (name ++ ("]" ++ after)) = "[" ++ (name' ++ ("]" ++ after'))) :
    name = name' ∧ after = after' := by
  have hlists : name.toList ++ ']' :: after.toList = name'.toList ++ ']' :: after'.toList := by
    simpa using congrArg String.toList heq
  obtain ⟨hname, hafter⟩ := append_cons_inj h.notMem h'.notMem hlists
  exact ⟨String.toList_inj.mp hname, String.toList_inj.mp hafter⟩

/-- What a list of columns begins with. -/
def Begins (w : String) : Prop := w = "NULL" ∨ w.toList.head? = some '['

instance (w : String) : Decidable (Begins w) := inferInstanceAs (Decidable (_ ∨ _))

/-- Words that no entry of a list begins. -/
def Stops (ws : List String) : Prop := ∀ w ∈ ws.head?, ¬ Begins w

theorem begins_quoted (name after : String) : Begins ("[" ++ (name ++ ("]" ++ after))) :=
  Or.inr (by simp)

/-- An entry is read off the words it begins. -/
theorem item_inj {a b : Item} {after after' : String} {r r' : List String} (ha : Plain a.name)
    (hb : Plain b.name)
    (h : (a.words after).map Word.text ++ r = (b.words after').map Word.text ++ r') :
    a = b ∧ after = after' ∧ r = r' := by
  obtain ⟨name, isNull⟩ := a
  obtain ⟨name', isNull'⟩ := b
  have hne : ∀ n s : String, "NULL" ≠ "[" ++ (n ++ ("]" ++ s)) := by
    intro n s heq
    have := congrArg (fun w => w.toList.head?) heq
    simp at this
  cases isNull <;> cases isNull' <;>
    simp only [Item.words, Bool.false_eq_true, if_false, if_true, List.nil_append, List.map_cons,
      List.map_nil, List.cons_append, List.cons.injEq, fixed_text, quoted_text, true_and] at h
  · obtain ⟨hname, rfl⟩ := h
    obtain ⟨rfl, rfl⟩ := quoted_inj ha hb hname
    exact ⟨rfl, rfl, rfl⟩
  · exact absurd h.1.symm (hne _ _)
  · exact absurd h.1 (hne _ _)
  · obtain ⟨hname, rfl⟩ := h
    obtain ⟨rfl, rfl⟩ := quoted_inj ha hb hname
    exact ⟨rfl, rfl, rfl⟩

/-- A list that is not empty begins as one. -/
theorem listed_begins (a : Item) (as : List Item) :
    ∃ w rest, (listed Item.words (a :: as)).map Word.text = w :: rest ∧ Begins w := by
  have hitem : ∀ after, ∃ w rest, (a.words after).map Word.text = w :: rest ∧ Begins w := by
    intro after
    unfold Item.words
    split
    · exact ⟨_, _, rfl, Or.inl (fixed_text ..)⟩
    · exact ⟨_, _, rfl, by rw [quoted_text]; exact begins_quoted ..⟩
  cases as with
  | nil => exact hitem ""
  | cons b as =>
    obtain ⟨w, rest, hw, hbegins⟩ := hitem ","
    exact ⟨w, _, by rw [listed, List.map_append, hw]; rfl, hbegins⟩

/-- **A list is read off the words up to where it stops.** -/
theorem listed_inj {as bs : List Item} {r r' : List String} (ha : ∀ a ∈ as, Plain a.name)
    (hb : ∀ b ∈ bs, Plain b.name) (hr : Stops r) (hr' : Stops r')
    (h : (listed Item.words as).map Word.text ++ r = (listed Item.words bs).map Word.text ++ r') :
    as = bs ∧ r = r' := by
  induction as generalizing bs with
  | nil =>
    cases bs with
    | nil => exact ⟨rfl, h⟩
    | cons b bs =>
      obtain ⟨w, rest, hw, hbegins⟩ := listed_begins b bs
      rw [hw] at h
      exact absurd hbegins (hr w (by rw [show r = w :: (rest ++ r') from h]; rfl))
  | cons a as ih =>
    cases bs with
    | nil =>
      obtain ⟨w, rest, hw, hbegins⟩ := listed_begins a as
      rw [hw] at h
      exact absurd hbegins (hr' w (by rw [← show w :: (rest ++ r) = r' from h]; rfl))
    | cons b bs =>
      have hplain := ha a List.mem_cons_self
      have hplain' := hb b List.mem_cons_self
      have hne : ("" : String) ≠ "," := by decide
      cases as with
      | nil =>
        cases bs with
        | nil =>
          obtain ⟨rfl, -, rfl⟩ := item_inj hplain hplain' h
          exact ⟨rfl, rfl⟩
        | cons c bs =>
          rw [listed, listed, List.map_append, List.append_assoc] at h
          exact absurd (item_inj hplain hplain' h).2.1 hne
      | cons c as =>
        cases bs with
        | nil =>
          rw [listed, listed, List.map_append, List.append_assoc] at h
          exact absurd (item_inj hplain hplain' h).2.1 hne.symm
        | cons e bs =>
          rw [listed, listed, List.map_append, List.append_assoc, List.map_append, List.append_assoc] at h
          obtain ⟨rfl, -, hrest⟩ := item_inj hplain hplain' h
          obtain ⟨hlists, rfl⟩ := ih (fun x hx => ha x (List.mem_cons_of_mem _ hx))
            (fun x hx => hb x (List.mem_cons_of_mem _ hx)) hrest
          exact ⟨by rw [hlists], rfl⟩

theorem predicateWords_inj {p q : String × Comparison} {r r' : List String} (hp : Plain p.1)
    (hq : Plain q.1) (h : (predicateWords p).map Word.text ++ r = (predicateWords q).map Word.text ++ r') :
    p = q ∧ r = r' := by
  obtain ⟨name, comparison⟩ := p
  obtain ⟨name', comparison'⟩ := q
  simp only [predicateWords, List.map_cons, List.map_nil, List.cons_append, List.nil_append,
    List.cons.injEq, quoted_text, fixed_text, true_and] at h
  obtain ⟨hname, hsymbol, rfl⟩ := h
  obtain ⟨rfl, -⟩ := quoted_inj hp hq hname
  have hcomparison : comparison = comparison' := by
    cases comparison <;> cases comparison' <;> first | rfl | exact absurd hsymbol (by decide)
  exact ⟨by rw [hcomparison], rfl⟩

/-- Comparisons are read off the words up to the order. -/
theorem andWords_inj {ps qs : List (String × Comparison)} {r r' : List String}
    (hp : ∀ p ∈ ps, Plain p.1) (hq : ∀ q ∈ qs, Plain q.1)
    (h : (andWords ps).map Word.text ++ "ORDER" :: r = (andWords qs).map Word.text ++ "ORDER" :: r') :
    ps = qs ∧ r = r' := by
  have hne : ("ORDER" : String) ≠ "AND" := by decide
  induction ps generalizing qs with
  | nil =>
    cases qs with
    | nil => exact ⟨rfl, (List.cons.inj h).2⟩
    | cons q qs =>
      simp only [andWords, List.flatMap_nil, List.map_nil, List.nil_append, List.flatMap_cons,
        List.cons_append, List.map_cons, fixed_text, List.cons.injEq] at h
      exact absurd h.1 hne
  | cons p ps ih =>
    cases qs with
    | nil =>
      simp only [andWords, List.flatMap_nil, List.map_nil, List.nil_append, List.flatMap_cons,
        List.cons_append, List.map_cons, fixed_text, List.cons.injEq] at h
      exact absurd h.1.symm hne
    | cons q qs =>
      simp only [andWords, List.flatMap_cons, List.cons_append, List.map_cons, fixed_text,
        List.cons.injEq, true_and, List.map_append, List.append_assoc] at h
      obtain ⟨rfl, hrest⟩ := predicateWords_inj (hp p List.mem_cons_self) (hq q List.mem_cons_self) h
      obtain ⟨rfl, rfl⟩ := ih (fun x hx => hp x (List.mem_cons_of_mem _ hx))
        (fun x hx => hq x (List.mem_cons_of_mem _ hx)) hrest
      exact ⟨rfl, rfl⟩

/-- The keys of an order are written as a list of columns. -/
theorem orderBy_text (names : List String) :
    (listed (fun name after => [quoted .orderBy name after]) names).map Word.text =
      (listed Item.words (names.map fun name => ⟨name, false⟩)).map Word.text := by
  induction names with
  | nil => rfl
  | cons name names ih =>
    cases names with
    | nil => simp [listed, Item.words]
    | cons next names => simpa [listed, Item.words] using ih

namespace Select

/-- The words of a statement as texts. -/
theorem words_text (q : Select) : q.words.map Word.text =
    "SELECT" :: (q.topWords.map Word.text ++ ((listed Item.words q.items).map Word.text ++
      "FROM" :: ("[" ++ (q.schema ++ ("].[" ++ (q.table ++ "]")))) :: (q.whereWords.map Word.text ++
        "ORDER" :: "BY" :: ((listed Item.words (q.orderBy.map fun name => ⟨name, false⟩)).map Word.text ++
          q.fetchWords.map Word.text)))) := by
  have hfrom : q.fromWords.map Word.text =
      ["FROM", "[" ++ (q.schema ++ ("].[" ++ (q.table ++ "]")))] := by
    simp [fromWords, Word.text, fixed, fill]
  simp [words, orderWords, orderBy_text, hfrom]

theorem stops_cons {w : String} {ws : List String} (h : ¬ Begins w) : Stops (w :: ws) := by
  rintro _ ⟨⟩
  exact h

theorem stops_fetch (q : Select) : Stops (q.fetchWords.map Word.text) := by
  unfold fetchWords
  split
  · exact stops_cons (by rw [fixed_text]; decide)
  · rintro _ ⟨⟩

/-- TOP is read off the words before the list of columns. -/
theorem top_inj {q q' : Select} {r r' : List String} (h : q.PlainNames) (h' : q'.PlainNames)
    (heq : q.topWords.map Word.text ++ ((listed Item.words q.items).map Word.text ++ "FROM" :: r) =
      q'.topWords.map Word.text ++ ((listed Item.words q'.items).map Word.text ++ "FROM" :: r')) :
    q.top = q'.top ∧ q.items = q'.items ∧ r = r' := by
  have hfrom : ∀ ws, Stops ("FROM" :: ws) := fun ws => stops_cons (by decide)
  have htop : ∀ ws, Stops ("TOP" :: ws) := fun ws => stops_cons (by decide)
  have hne : ("TOP" : String) ≠ "FROM" := by decide
  unfold topWords at heq
  cases ht : q.top <;> cases ht' : q'.top <;>
    simp only [ht, ht', Bool.false_eq_true, if_false, if_true, List.map_cons, List.map_nil,
      List.nil_append, List.cons_append, fixed_text, List.cons.injEq, true_and] at heq
  · obtain ⟨hitems, hr⟩ := listed_inj h.items h'.items (hfrom _) (hfrom _) heq
    exact ⟨rfl, hitems, (List.cons.inj hr).2⟩
  · have hnone : (listed Item.words q.items).map Word.text ++ "FROM" :: r =
        (listed Item.words []).map Word.text ++ "TOP" :: _ := heq
    exact absurd (List.cons.inj (listed_inj h.items (by simp) (hfrom _) (htop _) hnone).2).1.symm hne
  · have hnone : (listed Item.words []).map Word.text ++ "TOP" :: _ =
        (listed Item.words q'.items).map Word.text ++ "FROM" :: r' := heq
    exact absurd (List.cons.inj (listed_inj (by simp) h'.items (htop _) (hfrom _) hnone).2).1 hne
  · obtain ⟨hitems, hr⟩ := listed_inj h.items h'.items (hfrom _) (hfrom _) heq
    exact ⟨rfl, hitems, (List.cons.inj hr).2⟩

theorem where_inj {q q' : Select} {r r' : List String} (h : q.PlainNames) (h' : q'.PlainNames)
    (heq : q.whereWords.map Word.text ++ "ORDER" :: r = q'.whereWords.map Word.text ++ "ORDER" :: r') :
    q.predicates = q'.predicates ∧ r = r' := by
  have hp := h.predicates
  have hq := h'.predicates
  have hne : ("ORDER" : String) ≠ "WHERE" := by decide
  unfold whereWords at heq
  cases hps : q.predicates with
  | nil =>
    cases hqs : q'.predicates with
    | nil =>
      simp only [hps, hqs, List.map_nil, List.nil_append, List.cons.injEq, true_and] at heq
      exact ⟨rfl, heq⟩
    | cons b bs =>
      simp only [hps, hqs, List.map_nil, List.nil_append, List.map_cons, List.cons_append, fixed_text,
        List.cons.injEq] at heq
      exact absurd heq.1 hne
  | cons a as =>
    rw [hps] at hp
    cases hqs : q'.predicates with
    | nil =>
      simp only [hps, hqs, List.map_nil, List.nil_append, List.map_cons, List.cons_append, fixed_text,
        List.cons.injEq] at heq
      exact absurd heq.1.symm hne
    | cons b bs =>
      rw [hqs] at hq
      simp only [hps, hqs, List.map_cons, List.cons_append, fixed_text, List.cons.injEq, true_and,
        List.map_append, List.append_assoc] at heq
      obtain ⟨rfl, hrest⟩ := predicateWords_inj (hp a List.mem_cons_self) (hq b List.mem_cons_self) heq
      obtain ⟨rfl, rfl⟩ := andWords_inj (fun x hx => hp x (List.mem_cons_of_mem _ hx))
        (fun x hx => hq x (List.mem_cons_of_mem _ hx)) hrest
      exact ⟨rfl, rfl⟩

theorem table_inj {q q' : Select} (h : q.PlainNames) (h' : q'.PlainNames)
    (heq : "[" ++ (q.schema ++ ("].[" ++ (q.table ++ "]"))) =
      "[" ++ (q'.schema ++ ("].[" ++ (q'.table ++ "]")))) : q.schema = q'.schema ∧ q.table = q'.table := by
  have hlists : q.schema.toList ++ ']' :: ('.' :: '[' :: (q.table.toList ++ [']'])) =
      q'.schema.toList ++ ']' :: ('.' :: '[' :: (q'.table.toList ++ [']'])) := by
    simpa using congrArg String.toList heq
  obtain ⟨hschema, hrest⟩ := append_cons_inj h.schema.notMem h'.schema.notMem hlists
  obtain ⟨htable, -⟩ := append_cons_inj h.table.notMem h'.table.notMem
    (List.cons.inj (List.cons.inj hrest).2).2
  exact ⟨String.toList_inj.mp hschema, String.toList_inj.mp htable⟩

/-- **Statements with plain names have different texts.** -/
theorem text_injective {q q' : Select} (h : q.PlainNames) (h' : q'.PlainNames)
    (heq : q.text = q'.text) : q = q' := by
  have hblank : ∀ {q : Select}, q.PlainNames → ∀ w ∈ q.words.map Word.text, ' ' ∉ w.toList := by
    intro q h w hw
    obtain ⟨word, hword, rfl⟩ := List.mem_map.mp hw
    exact blank_notMem h word hword
  have hwords := intercalate_inj (hblank h) (hblank h') (by simp [words]) (by simp [words]) heq
  rw [words_text, words_text, List.cons.injEq] at hwords
  obtain ⟨htop, hitems, hrest⟩ := top_inj h h' hwords.2
  obtain ⟨hfrom, hrest⟩ := List.cons.inj hrest
  obtain ⟨hschema, htable⟩ := table_inj h h' hfrom
  obtain ⟨hpredicates, hrest⟩ := where_inj h h' hrest
  obtain ⟨hkeys, hfetch⟩ := listed_inj (by simpa using h.orderBy) (by simpa using h'.orderBy)
    (stops_fetch q) (stops_fetch q') (List.cons.inj hrest).2
  have horder : q.orderBy = q'.orderBy :=
    (List.map_inj_right fun a b hab => by simpa using hab).mp hkeys
  have hfetched : q.fetch = q'.fetch := by
    unfold fetchWords at hfetch
    cases hf : q.fetch <;> cases hf' : q'.fetch <;> simp [hf, hf'] at hfetch ⊢
  cases q
  cases q'
  simp_all

end Select

/-! ### The text, clause by clause -/

def bracketed (name : String) : String := "[" ++ name ++ "]"

def itemText (item : Item) : String := (if item.isNull then "NULL AS " else "") ++ bracketed item.name

def predicateText (p : String × Comparison) : String := bracketed p.1 ++ " " ++ p.2.symbol ++ " ?"

theorem listed_text (items : List Item) :
    " ".intercalate ((listed Item.words items).map Word.text) = ", ".intercalate (items.map itemText) := by
  have hitem : ∀ (item : Item) (after : String),
      " ".intercalate ((item.words after).map Word.text) = itemText item ++ after := by
    intro item after
    unfold Item.words itemText bracketed
    refine String.toList_inj.mp ?_
    split <;> simp
  induction items with
  | nil => rfl
  | cons item items ih =>
    cases items with
    | nil => simpa [listed] using hitem item ""
    | cons next items =>
      have hne : (item.words ",").map Word.text ≠ [] := by simp [Item.words]
      have hne' : (listed Item.words (next :: items)).map Word.text ≠ [] := by
        obtain ⟨w, rest, hw, -⟩ := listed_begins next items
        rw [hw]
        exact List.cons_ne_nil _ _
      rw [listed, List.map_append, String.intercalate_append_of_ne_nil hne hne', ih, hitem]
      simp [String.intercalate_cons_cons, String.append_assoc]

theorem predicateWords_text (p : String × Comparison) :
    " ".intercalate ((predicateWords p).map Word.text) = predicateText p := by
  simp [predicateWords, predicateText, bracketed, String.append_assoc]

theorem andWords_text (p : String × Comparison) (ps : List (String × Comparison)) :
    " ".intercalate ((predicateWords p ++ andWords ps).map Word.text) =
      " AND ".intercalate ((p :: ps).map predicateText) := by
  induction ps generalizing p with
  | nil => simpa [andWords] using predicateWords_text p
  | cons q ps ih =>
    have hne : (predicateWords p).map Word.text ≠ [] := by simp [predicateWords]
    have hand : (andWords (q :: ps)).map Word.text =
        "AND" :: (predicateWords q ++ andWords ps).map Word.text := by simp [andWords]
    have hne' : (predicateWords q ++ andWords ps).map Word.text ≠ [] := by simp [predicateWords]
    rw [List.map_append, String.intercalate_append_of_ne_nil hne (by rw [hand]; exact List.cons_ne_nil _ _),
      hand, String.intercalate_cons_of_ne_nil hne', ih, predicateWords_text]
    refine String.toList_inj.mp ?_
    simp

namespace Select

def whereText (q : Select) : String :=
  if q.predicates = [] then "" else " WHERE " ++ " AND ".intercalate (q.predicates.map predicateText)

theorem topWords_text (q : Select) {r : List String} (hr : r ≠ []) :
    " ".intercalate (q.topWords.map Word.text ++ r) =
      (if q.top then "TOP (?) " else "") ++ " ".intercalate r := by
  unfold topWords
  split
  · refine String.toList_inj.mp ?_
    simp [String.intercalate_cons_of_ne_nil hr]
  · simp

theorem whereWords_text (q : Select) {r : List String} (hr : r ≠ []) :
    " " ++ " ".intercalate (q.whereWords.map Word.text ++ r) = whereText q ++ " " ++ " ".intercalate r := by
  unfold whereWords whereText
  cases hp : q.predicates with
  | nil => simp
  | cons p ps =>
    have hne : (predicateWords p ++ andWords ps).map Word.text ≠ [] := by simp [predicateWords]
    have htext := andWords_text p ps
    simp only [List.cons_append, List.map_cons, fixed_text, reduceCtorEq, if_false]
    rw [String.intercalate_cons_of_ne_nil (by simp [hr]), String.intercalate_append_of_ne_nil hne hr, htext]
    refine String.toList_inj.mp ?_
    simp

theorem fetchWords_text (q : Select) {r : List String} (hr : r ≠ []) :
    " ".intercalate (r ++ q.fetchWords.map Word.text) = " ".intercalate r ++
      (if q.fetch then " OFFSET 0 ROWS FETCH NEXT ? ROWS ONLY" else "") := by
  unfold fetchWords
  split
  · rw [String.intercalate_append_of_ne_nil hr (by simp)]
    refine String.toList_inj.mp ?_
    simp
  · simp

/-- **The text of a statement**, clause by clause. -/
theorem text_eq {q : Select} (hitems : q.items ≠ []) (horder : q.orderBy ≠ []) : q.text =
    "SELECT " ++ (if q.top then "TOP (?) " else "") ++ ", ".intercalate (q.items.map itemText) ++
      " FROM " ++ bracketed q.schema ++ "." ++ bracketed q.table ++ whereText q ++ " ORDER BY " ++
      ", ".intercalate (q.orderBy.map bracketed) ++
      (if q.fetch then " OFFSET 0 ROWS FETCH NEXT ? ROWS ONLY" else "") := by
  have hlisted : ∀ items : List Item, items ≠ [] → (listed Item.words items).map Word.text ≠ [] := by
    intro items hne
    obtain ⟨item, items, rfl⟩ := List.exists_cons_of_ne_nil hne
    obtain ⟨w, rest, hw, -⟩ := listed_begins item items
    rw [hw]
    exact List.cons_ne_nil _ _
  have hkeys : (q.orderBy.map fun name => (⟨name, false⟩ : Item)).map itemText =
      q.orderBy.map bracketed := by simp [itemText, Function.comp_def]
  have hO := hlisted (q.orderBy.map fun name => ⟨name, false⟩) (by simpa using horder)
  rw [text, words_text, String.intercalate_cons_of_ne_nil (by simp), topWords_text q (by simp),
    String.intercalate_append_of_ne_nil (hlisted _ hitems) (by simp), listed_text,
    String.intercalate_cons_cons, String.intercalate_cons_of_ne_nil (by simp)]
  have hwhere := whereWords_text q (r := "ORDER" :: "BY" ::
    ((listed Item.words (q.orderBy.map fun name => ⟨name, false⟩)).map Word.text ++
      q.fetchWords.map Word.text)) (by simp)
  rw [String.intercalate_cons_cons, String.intercalate_cons_of_ne_nil (by simp [hO]), fetchWords_text q hO,
    listed_text, hkeys] at hwhere
  refine String.toList_inj.mp ?_
  have hlists := congrArg String.toList hwhere
  simp only [String.toList_append, List.append_assoc] at hlists ⊢
  rw [hlists]
  simp [bracketed]

end Select

end PyDBLog.Sql.Text
