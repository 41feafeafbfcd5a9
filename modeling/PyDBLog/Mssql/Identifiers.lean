import PyDBLog.Model.Worlds
import PyDBLog.Mssql.Texts

/-! # The names that reach a text

What a method has the driver execute, recorded by a driver that keeps a list (`logged`). Every text
is written from identifiers, of every call but `inspect()`: there `capture_schema` goes into a text
as it is, once the table is seen to have a primary key (`names_are_identifiers_iff`). -/

namespace PyDBLog.Mssql.Identifiers

open PyDBLog.Model.Python PyDBLog.Model.Frame PyDBLog.Model.Types PyDBLog.Model.Worlds
open PyDBLog.Mssql.Connector PyDBLog.Mssql.Connector.MSSQLConnector PyDBLog.Mssql.ReadTable
open PyDBLog.Mssql.Texts PyDBLog.Sql.Slots

variable {σ α β : Type}

/-! ### A driver that keeps a record -/

/-- A call of the driver on the world beside a record. -/
def lifted (x : Call σ α) : Call (σ × List Executed) α := fun s =>
  match x s.1 with
  | .ok a w => .ok a (w, s.2)
  | .error e w => .error e (w, s.2)

/-- The connector over the same driver, with what it executes recorded, also where the driver
raises. -/
def logged (conn : MSSQLConnector σ) : MSSQLConnector (σ × List Executed) where
  execute text params := fun s => lifted (conn.execute text params) (s.1, s.2 ++ [(text, params)])
  monotonic := lifted conn.monotonic
  sleep time := lifted (conn.sleep time)
  lib := conn.lib
  pagination := conn.pagination
  watermarkTimeout := conn.watermarkTimeout
  watermarkPoll := conn.watermarkPoll
  maxPolls := conn.maxPolls
  isoformat := conn.isoformat
  seconds := conn.seconds

/-- The record grows by entries with a property. -/
def Grows (P : Executed → Prop) (s s' : σ × List Executed) : Prop :=
  ∃ more, s'.2 = s.2 ++ more ∧ ∀ entry ∈ more, P entry

variable {P : Executed → Prop} {conn : MSSQLConnector σ}

theorem Grows.refl (s : σ × List Executed) : Grows P s s := ⟨[], by simp, by simp⟩

theorem Grows.trans {s₁ s₂ s₃ : σ × List Executed} (h : Grows P s₁ s₂) (h' : Grows P s₂ s₃) :
    Grows P s₁ s₃ := by
  obtain ⟨more, heq, hmore⟩ := h
  obtain ⟨rest, heq', hrest⟩ := h'
  refine ⟨more ++ rest, by rw [heq', heq, List.append_assoc], fun entry hentry => ?_⟩
  exact (List.mem_append.mp hentry).elim (hmore entry) (hrest entry)

/-- One more entry, whatever the driver answers. -/
theorem record_execute (conn : MSSQLConnector σ) (text : String) (params : List Cell)
    (s : σ × List Executed) :
    (leaves ((logged conn).execute text params s)).2 = s.2 ++ [(text, params)] := by
  show (leaves (lifted (conn.execute text params) (s.1, s.2 ++ [(text, params)]))).2 = _
  unfold lifted
  dsimp only
  cases conn.execute text params s.1 <;> rfl

theorem execute_grows {text : String} {params : List Cell} (h : P (text, params)) :
    Moves (Grows P) ((logged conn).execute text params) :=
  fun s => ⟨[(text, params)], record_execute conn text params s, by simpa using h⟩

theorem grows_bind {x : Call (σ × List Executed) α} {f : α → Call (σ × List Executed) β}
    (hx : Moves (Grows P) x) (hf : ∀ a, Moves (Grows P) (f a)) : Moves (Grows P) (x >>= f) :=
  Moves.bind (R := Grows P) Grows.trans hx hf

theorem grows_pure (a : α) : Moves (Grows P) (pure a : Call (σ × List Executed) α) :=
  Moves.pure Grows.refl a

theorem grows_throw (e : PyError) : Moves (Grows P) (throw e : Call (σ × List Executed) α) :=
  Moves.throw Grows.refl e

theorem grows_ofExcept (x : Except PyError α) :
    Moves (Grows P) (ofExcept x : Call (σ × List Executed) α) := Moves.ofExcept Grows.refl x

/-- What a call from a world has the driver execute. -/
def executed (conn : MSSQLConnector σ) (call : ReadCall) (w : σ) : List Executed :=
  (leaves (call.run (logged conn) (w, []))).2

/-! ### What each method executes -/

/-- What follows a check that returns. -/
theorem grows_checked {x : Except PyError α} {f : α → Call (σ × List Executed) β}
    (h : ∀ a, x = .ok a → Moves (Grows P) (f a)) : Moves (Grows P) (ofExcept x >>= f) := by
  cases x with
  | ok a => exact h a rfl
  | error e =>
    have hthrow : Moves (Grows P) (throw e : Call (σ × List Executed) β) := grows_throw e
    exact hthrow

theorem readTable_grows (spec : TableSpec) (startPk endPk : Option ℤ) (limit : ℤ) :
    Moves (Grows (Written conn.pagination (.readTable spec startPk endPk limit)))
      ((logged conn).readTable spec startPk endPk limit) :=
  grows_checked fun _ hquery => grows_bind (execute_grows (readTable_written hquery)) fun _ =>
    grows_bind (grows_ofExcept _) fun _ => grows_bind (grows_ofExcept _) fun _ => grows_pure _

theorem readPkRange_grows (spec : TableSpec) :
    Moves (Grows (Written conn.pagination (.readPkRange spec))) ((logged conn).readPkRange spec) := by
  refine grows_checked fun _ hquery => grows_bind (execute_grows (readPkRange_written hquery)) fun _ => ?_
  split_ifs
  · exact grows_pure _
  · dsimp only
    split
    · exact grows_throw _
    · split
      · exact grows_pure _
      · exact grows_throw _

theorem readEventLog_grows (spec : TableSpec) (fromLsn toLsn : LSN) :
    Moves (Grows (Written conn.pagination (.readEventLog spec fromLsn toLsn)))
      ((logged conn).readEventLog spec fromLsn toLsn) := by
  unfold MSSQLConnector.readEventLog
  split
  · exact grows_throw _
  · refine grows_checked fun _ hquery => grows_bind (execute_grows (readEventLog_written hquery)) fun _ => ?_
    split_ifs
    · exact grows_pure _
    · exact grows_bind (grows_ofExcept _) fun _ => grows_bind (grows_ofExcept _) fun _ => grows_pure _

/-! ### Inspecting -/

/-- The call has an entry in the record, returning or raising. -/
def Records (entry : Executed) (x : Call (σ × List Executed) α) : Prop := ∀ s, entry ∈ (leaves (x s)).2

theorem Records.bind {entry : Executed} {x : Call (σ × List Executed) α}
    {f : α → Call (σ × List Executed) β} (h : Records entry x)
    (hf : ∀ a, Moves (Grows fun _ => True) (f a)) : Records entry (x >>= f) := by
  intro s
  show entry ∈ (leaves (EStateM.bind x f s)).2
  have hx := h s
  unfold EStateM.bind
  cases hs : x s with
  | error e s' => rwa [hs] at hx
  | ok a s' =>
    rw [hs] at hx
    obtain ⟨more, hmore, -⟩ := hf a s'
    simp only [hmore]
    exact List.mem_append_left _ hx

theorem execute_records (conn : MSSQLConnector σ) (text : String) (params : List Cell) :
    Records (text, params) ((logged conn).execute text params) := by
  intro s
  rw [record_execute]
  exact List.mem_append_right _ (List.mem_singleton_self _)

section inspect

variable {schema table captureSchema objectName : String}

theorem readPkColumns_grows (h : P (pkColumnsQuery, [.str objectName])) :
    Moves (Grows P) ((logged conn).readPkColumns objectName) := by
  refine grows_bind (execute_grows h) fun result => ?_
  dsimp only
  split_ifs
  · exact grows_throw _
  · exact grows_pure _

theorem readCaptureInstance_eq (conn : MSSQLConnector σ) :
    conn.readCaptureInstance objectName captureSchema = (do
      let result ← conn.execute (captureInstanceQuery captureSchema) [.str objectName]
      return firstCell result) := by
  rw [captureInstanceQuery_eq]
  rfl

theorem readCaptureInstance_grows (h : P (captureInstanceQuery captureSchema, [.str objectName])) :
    Moves (Grows P) ((logged conn).readCaptureInstance objectName captureSchema) := by
  rw [readCaptureInstance_eq]
  exact grows_bind (execute_grows h) fun _ => grows_pure _

theorem readCaptureInstance_records : Records (captureInstanceQuery captureSchema, [.str objectName])
    ((logged conn).readCaptureInstance objectName captureSchema) := by
  rw [readCaptureInstance_eq]
  exact (execute_records conn _ _).bind fun _ => grows_pure _

theorem readColumns_grows (h : P (columnsQuery, [.str objectName])) :
    Moves (Grows P) ((logged conn).readColumns objectName) :=
  grows_bind (execute_grows h) fun _ => grows_ofExcept _

theorem readCapturedColumns_grows {captureInstance : Cell}
    (h : ∀ name, isIdentifier name = true → P (columnsQuery, [.str s!"{captureSchema}.{name}_CT"])) :
    Moves (Grows P) ((logged conn).readCapturedColumns captureInstance captureSchema) := by
  refine grows_checked fun name hname => ?_
  obtain ⟨-, hidentifier⟩ := validateInstance_ok.mp hname
  exact grows_bind (readColumns_grows (h name hidentifier)) fun _ => grows_pure _

/-- What `inspect()` executes after the primary key, one text after the other. -/
structure Inspected (P : Executed → Prop) (schema table captureSchema : String) : Prop where
  captureInstance : P (captureInstanceQuery captureSchema, [.str s!"{schema}.{table}"])
  columns : P (columnsQuery, [.str s!"{schema}.{table}"])
  captured : ∀ captureInstance, isIdentifier captureInstance = true →
    P (columnsQuery, [.str s!"{captureSchema}.{captureInstance}_CT"])

/-- `inspect()` reads the key columns, asks for the capture instance and goes on. -/
theorem inspect_eq (conn : MSSQLConnector σ) (schema table captureSchema : String) :
    ∃ rest : List Cell → Cell → Call (σ × List Executed) TableSpec,
      (logged conn).inspect schema table captureSchema =
        ((logged conn).readPkColumns s!"{schema}.{table}" >>= fun pkColumns =>
          (logged conn).readCaptureInstance s!"{schema}.{table}" captureSchema >>= rest pkColumns) ∧
      ∀ {P : Executed → Prop}, Inspected P schema table captureSchema →
        ∀ pkColumns captureInstance, Moves (Grows P) (rest pkColumns captureInstance) := by
  refine ⟨fun pkColumns captureInstance =>
    (logged conn).readRest pkColumns captureInstance s!"{schema}.{table}" captureSchema >>= fun read =>
      ofExcept (describeTable conn.lib schema table read), ?_, fun h pkColumns captureInstance => ?_⟩
  · simp only [MSSQLConnector.inspect, readCatalogue, bind_assoc]
    rfl
  · refine grows_bind (grows_bind (readColumns_grows h.columns) fun columns => ?_) fun _ => grows_ofExcept _
    split_ifs
    · exact grows_pure _
    · exact grows_bind (readCapturedColumns_grows h.captured) fun _ => grows_pure _

/-- The catalogue answers some key column for the object. -/
def HasKey (conn : MSSQLConnector σ) (objectName : String) (w : σ) : Prop :=
  ∃ result w', conn.execute pkColumnsQuery [.str objectName] w = .ok result w' ∧ result.rows ≠ []

theorem execute_ok {text : String} {params : List Cell} {w : σ} {log : List Executed} {result : ResultSet}
    {s : σ × List Executed} : (logged conn).execute text params (w, log) = .ok result s ↔
      ∃ w', conn.execute text params w = .ok result w' ∧ s = (w', log ++ [(text, params)]) := by
  show lifted (conn.execute text params) (w, log ++ [(text, params)]) = _ ↔ _
  unfold lifted
  cases conn.execute text params w <;> simp [eq_comm]

/-- The key columns are read where the catalogue answers some, whatever it answers. -/
theorem readPkColumns_ok {w : σ} {log : List Executed} :
    (∃ pkColumns s, (logged conn).readPkColumns objectName (w, log) = .ok pkColumns s) ↔
      HasKey conn objectName w := by
  simp only [readPkColumns, bind_ok, execute_ok, guard_ok, pure_ok, List.isEmpty_iff, List.map_eq_nil_iff]
  constructor
  · rintro ⟨_, s, result, _, ⟨w', hexecute, rfl⟩, hne, -⟩
    exact ⟨result, w', hexecute, hne⟩
  · rintro ⟨result, w', hexecute, hne⟩
    exact ⟨_, _, result, _, ⟨w', hexecute, rfl⟩, hne, rfl, rfl⟩

end inspect

/-! ### Which calls keep to identifiers -/

/-- The names a call comes to put in a text. -/
def Interpolates (conn : MSSQLConnector σ) (w : σ) : ReadCall → String → Prop
  | .inspect schema table captureSchema, name =>
    name = captureSchema ∧ HasKey conn s!"{schema}.{table}" w
  | .readTable spec _ _ _, name => name = spec.sourceSchema ∨ name = spec.sourceTable ∨
      name ∈ spec.businessColumns ∨ name ∈ spec.pkColumns
  | .readPkRange spec, name => name = spec.sourceSchema ∨ name = spec.sourceTable ∨
      name = spec.pkColumns.headD ""
  | .readEventLog spec _ _, name => name ∈ spec.captureInstance ∨ name ∈ spec.businessColumns

/-- **No other name reaches a text**: everything a call executes is written from identifiers, and
where a name it puts in a text is none, the call raises ValueError. -/
structure Safe (conn : MSSQLConnector σ) (call : ReadCall) (w : σ) : Prop where
  written : ∀ entry ∈ executed conn call w, Written conn.pagination call entry
  refuses : ∀ name, Interpolates conn w call name → ¬ isIdentifier name = true →
    ∃ message w', call.run conn w = .error (.valueError message) w'

theorem written_of_grows {call : ReadCall} {w : σ}
    (h : Grows P (w, []) (leaves (call.run (logged conn) (w, [])))) :
    ∀ entry ∈ executed conn call w, P entry := by
  obtain ⟨more, heq, hmore⟩ := h
  intro entry hentry
  rw [executed, heq] at hentry
  exact hmore entry hentry

/-! ### The barrier -/

variable {w : σ}

theorem readTable_safe (spec : TableSpec) (startPk endPk : Option ℤ) (limit : ℤ) :
    Safe conn (.readTable spec startPk endPk limit) w where
  written := written_of_grows (grows_bind (readTable_grows spec startPk endPk limit) (fun _ => grows_pure _) _)
  refuses name h hname := by
    have hno : ¬ Identifiers spec := by
      intro hspec
      rcases h with rfl | rfl | hcolumn | hkey
      · exact hname hspec.schema
      · exact hname hspec.table
      · obtain ⟨column, hcaptured, rfl⟩ := List.mem_map.mp hcolumn
        exact hname (hspec.columns column hcaptured)
      · exact hname (hspec.keys name hkey)
    have hrefused : ∃ message, buildReadTableQuery conn.pagination spec startPk endPk limit =
        .error (.valueError message) := readTable_refuses hno
    obtain ⟨message, hbuild⟩ := hrefused
    refine ⟨message, w, ?_⟩
    show (readTable conn spec startPk endPk limit >>= fun _ => pure ()) w = _
    unfold MSSQLConnector.readTable
    rw [hbuild]
    rfl

theorem readPkRange_safe (spec : TableSpec) : Safe conn (.readPkRange spec) w where
  written := written_of_grows (grows_bind (readPkRange_grows spec) (fun _ => grows_pure _) _)
  refuses name h hname := by
    obtain ⟨message, hbuild⟩ := readPkRange_refuses h hname
    refine ⟨message, w, ?_⟩
    show (readPkRange conn spec >>= fun _ => pure ()) w = _
    unfold MSSQLConnector.readPkRange
    rw [hbuild]
    rfl

theorem readEventLog_safe (spec : TableSpec) (fromLsn toLsn : LSN) :
    Safe conn (.readEventLog spec fromLsn toLsn) w where
  written := written_of_grows (grows_bind (readEventLog_grows spec fromLsn toLsn) (fun _ => grows_pure _) _)
  refuses name h hname := by
    show ∃ message w', (readEventLog conn spec fromLsn toLsn >>= fun _ => pure ()) w = _
    unfold MSSQLConnector.readEventLog
    cases hinstance : spec.captureInstance with
    | none => exact ⟨_, _, rfl⟩
    | some captureInstance =>
      have hin : name = captureInstance ∨ name ∈ spec.businessColumns := by
        refine h.imp_left fun hmem => ?_
        rw [hinstance] at hmem
        exact (Option.mem_some.mp hmem).symm
      obtain ⟨message, hbuild⟩ := readEventLog_refuses hin hname
      refine ⟨message, w, ?_⟩
      simp only [hbuild]
      rfl

section inspect

variable {schema table captureSchema : String}

theorem written_key : Written conn.pagination (.inspect schema table captureSchema)
    (pkColumnsQuery, [.str s!"{schema}.{table}"]) where
  text := ⟨_, List.mem_cons_self, [], Fills.text _, by simp⟩
  params := Or.inl rfl

/-- With an identifier for the schema of the log, what `inspect()` executes is written from
identifiers. -/
theorem written_inspected (h : isIdentifier captureSchema = true) :
    Inspected (Written conn.pagination (.inspect schema table captureSchema)) schema table captureSchema where
  captureInstance :=
    { text := ⟨captureInstanceTemplate, by simp [templates], [captureSchema], ⟨rfl, rfl⟩, by simpa using h⟩
      params := Or.inl rfl }
  columns :=
    { text := ⟨[.text columnsQuery], by simp [templates], [], Fills.text _, by simp⟩
      params := Or.inl rfl }
  captured captureInstance hinstance :=
    { text := ⟨[.text columnsQuery], by simp [templates], [], Fills.text _, by simp⟩
      params := Or.inr ⟨captureInstance, hinstance, rfl⟩ }

theorem prefix_append {start : List Char} {a : String} (h : start <+: a.toList) (b : String) :
    start <+: (a ++ b).toList := by
  rw [String.toList_append]
  exact h.trans (List.prefix_append _ _)

theorem pkColumnsQuery_start : "SELECT c.".toList <+: pkColumnsQuery.toList := by
  unfold pkColumnsQuery
  iterate 6 refine prefix_append ?_ _
  decide

theorem columnsQuery_start : "SELECT c.".toList <+: columnsQuery.toList := by
  unfold columnsQuery
  iterate 6 refine prefix_append ?_ _
  decide

/-- The question for the capture instance is none of the other texts, and holds the schema it was
asked with. -/
theorem captureInstanceQuery_written
    (h : Written conn.pagination (.inspect schema table captureSchema)
      (captureInstanceQuery captureSchema, [.str s!"{schema}.{table}"])) :
    isIdentifier captureSchema = true := by
  have hstart : "SELECT ct".toList <+: (captureInstanceQuery captureSchema).toList := by
    rw [captureInstanceQuery_eq]
    exact prefix_append (prefix_append (by decide) _) _
  have hother : ∀ text : String, "SELECT c.".toList <+: text.toList →
      captureInstanceQuery captureSchema ≠ text := by
    rintro _ hcolumns rfl
    exact absurd ((List.prefix_of_prefix_length_le hcolumns hstart (by decide)).eq_of_length (by decide))
      (by decide)
  obtain ⟨⟨template, htemplate, names, hfills, hnames⟩, -⟩ := h
  have hfixed : ∀ text, Fills [.text text] names (captureInstanceQuery captureSchema) →
      captureInstanceQuery captureSchema = text := fun text hfills => by simpa [fill] using hfills.text_eq
  simp only [templates, List.mem_cons, List.not_mem_nil, or_false] at htemplate
  rcases htemplate with rfl | rfl | rfl
  · exact absurd (hfixed _ hfills) (hother _ pkColumnsQuery_start)
  · obtain ⟨name, rfl⟩ := List.length_eq_one_iff.mp hfills.slots_eq.symm
    have htext := hfills.text_eq
    simp only [captureInstanceQuery, captureInstanceTemplate, fill, List.headD_cons, ← String.append_assoc,
      String.append_empty] at htext
    rw [fill_slot_inj htext]
    exact hnames name (List.mem_singleton_self _)
  · exact absurd (hfixed _ hfills) (hother _ columnsQuery_start)

/-- Without a key `inspect()` executes the question for the key alone; with one, what follows, the
question for the capture instance among it. -/
theorem inspect_executed (hP : P (pkColumnsQuery, [.str s!"{schema}.{table}"]))
    (h : HasKey conn s!"{schema}.{table}" w → Inspected P schema table captureSchema) :
    ∀ entry ∈ executed conn (.inspect schema table captureSchema) w, P entry := by
  have hread : Moves (Grows P) ((logged conn).readPkColumns s!"{schema}.{table}") := readPkColumns_grows hP
  have hgrows := hread (w, [])
  obtain ⟨rest, heq, hrest⟩ := inspect_eq conn schema table captureSchema
  refine written_of_grows ?_
  show Grows P (w, []) (leaves ((do let _ ← (logged conn).inspect schema table captureSchema) (w, [])))
  rw [leaves_discard, heq]
  cases hread : (logged conn).readPkColumns s!"{schema}.{table}" (w, []) with
  | error e s =>
    rw [leaves_bind_error hread]
    rwa [hread] at hgrows
  | ok pkColumns s =>
    rw [leaves_bind_ok hread]
    rw [hread] at hgrows
    have hasked := h (readPkColumns_ok.mp ⟨pkColumns, s, hread⟩)
    have hinstance : Moves (Grows P)
        ((logged conn).readCaptureInstance s!"{schema}.{table}" captureSchema) :=
      readCaptureInstance_grows hasked.captureInstance
    exact hgrows.trans (grows_bind hinstance (hrest hasked pkColumns) s)

theorem inspect_asks (hkey : HasKey conn s!"{schema}.{table}" w) :
    (captureInstanceQuery captureSchema, [.str s!"{schema}.{table}"]) ∈
      executed conn (.inspect schema table captureSchema) w := by
  obtain ⟨rest, heq, hrest⟩ := inspect_eq conn schema table captureSchema
  obtain ⟨pkColumns, s, hread⟩ := readPkColumns_ok.mpr hkey
  show _ ∈ (leaves ((do let _ ← (logged conn).inspect schema table captureSchema) (w, []))).2
  rw [leaves_discard, heq, leaves_bind_ok hread]
  have hgoes := hrest (P := fun _ => True) ⟨trivial, trivial, fun _ _ => trivial⟩ pkColumns
  exact readCaptureInstance_records.bind hgoes s

/-- **Which calls let no other name reach a text**: all but an `inspect()` whose `capture_schema` is
no identifier, of a table that has a primary key. -/
def Guarded (conn : MSSQLConnector σ) (w : σ) : ReadCall → Prop
  | .inspect schema table captureSchema =>
    isIdentifier captureSchema = true ∨ ¬ HasKey conn s!"{schema}.{table}" w
  | _ => True

theorem inspect_safe_iff : Safe conn (.inspect schema table captureSchema) w ↔
    Guarded conn w (.inspect schema table captureSchema) := by
  constructor
  · intro h
    by_contra hno
    obtain ⟨hname, hkey⟩ := not_or.mp hno
    exact hname (captureInstanceQuery_written (h.written _ (inspect_asks (not_not.mp hkey))))
  · intro h
    refine ⟨?_, ?_⟩
    · exact inspect_executed written_key fun hkey => written_inspected (h.resolve_right (not_not.mpr hkey))
    · rintro name ⟨rfl, hkey⟩ hname
      exact absurd h (not_or.mpr ⟨hname, not_not.mpr hkey⟩)

end inspect

/-- **Where no unvalidated name reaches a text.** -/
theorem names_are_identifiers_iff (conn : MSSQLConnector σ) (call : ReadCall) (w : σ) :
    Safe conn call w ↔ Guarded conn w call := by
  cases call with
  | inspect schema table captureSchema => exact inspect_safe_iff
  | readTable spec startPk endPk limit => exact iff_of_true (readTable_safe ..) trivial
  | readPkRange spec => exact iff_of_true (readPkRange_safe spec) trivial
  | readEventLog spec fromLsn toLsn => exact iff_of_true (readEventLog_safe ..) trivial

/-! ### A name that is none -/

/-- A server on which every object has the key `id`, and nothing else is known. -/
def keyServer : MSSQLConnector Unit := serverOf fun query _ _ =>
  .ok (answer (if query = pkColumnsQuery then [[.str "id"]] else [])) ()

def injected : ReadCall := .inspect "dbo" "items" "sys.tables; DROP TABLE dbo.items; --"

/-- **A schema that closes the statement is executed with what follows it.** -/
theorem capture_schema_is_executed :
    ("SELECT ct.capture_instance FROM sys.tables; DROP TABLE dbo.items; --.change_tables ct " ++
        "WHERE ct.source_object_id = OBJECT_ID(?)", [.str "dbo.items"]) ∈ executed keyServer injected () ∧
      ¬ Safe keyServer injected () := by
  have hkey : HasKey keyServer (toString "dbo" ++ toString "." ++ toString "items") () := by
    refine ⟨_, (), rfl, ?_⟩
    rw [if_pos rfl]
    exact List.cons_ne_nil _ _
  have hasked : (captureInstanceQuery "sys.tables; DROP TABLE dbo.items; --",
      [.str (toString "dbo" ++ toString "." ++ toString "items")]) ∈ executed keyServer injected () :=
    inspect_asks hkey
  refine ⟨hasked, fun h => ?_⟩
  exact absurd (captureInstanceQuery_written (h.written _ hasked)) (by decide +kernel)

end PyDBLog.Mssql.Identifiers
