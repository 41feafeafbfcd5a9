import PyDBLog.Mssql.Superseding
import PyDBLog.Runs.Calls

/-! # One schema per run

Every frame of a run over SQL Server has the schema of the spec the run began with: the log's own
columns, then the captured ones under the types they were inspected with (`one_schema`). The two
read paths meet because a chunk is conformed to the captured columns and stamped with literals of
the dtypes the log's columns read back as, and a spec is only adopted if its columns agree in what
decides their type. -/

namespace PyDBLog.Mssql.OneSchema

open PyDBLog.Model.Python PyDBLog.Model.Frame PyDBLog.Model.Types PyDBLog.Model.Connector
open PyDBLog.Model.DBLog PyDBLog.Model.Returns
open PyDBLog.Mssql.Schema PyDBLog.Mssql.Connector PyDBLog.Mssql.Superseding
open PyDBLog.Runs.Calls

variable {σ : Type} {conn : MSSQLConnector σ} {lib : Libraries} {spec spec' : TableSpec}
  {fs : List ArrowField} {w w' : σ}

/-! ### Columns that agree -/

/-- A column's name and all that decides its type. -/
def identity (column : ColumnSpec) : String × String × ℤ × ℤ := (column.name, column.signature)

/-- Two specs read rows of one schema, matched on one key. -/
def Agree (spec spec' : TableSpec) : Prop :=
  spec.pkColumns = spec'.pkColumns ∧ spec.capturedColumns.map identity = spec'.capturedColumns.map identity

theorem Agree.trans {spec'' : TableSpec} (h : Agree spec spec') (h' : Agree spec' spec'') :
    Agree spec spec'' := ⟨h.1.trans h'.1, h.2.trans h'.2⟩

theorem identity_of_beq : ∀ {cs ds : List ColumnSpec}, (cs == ds) = true →
    cs.map identity = ds.map identity
  | [], [], _ => rfl
  | [], _ :: _, h => by simp at h
  | _ :: _, [], h => by simp at h
  | c :: cs, d :: ds, h => by
    rw [List.cons_beq_cons, Bool.and_eq_true, ColumnSpec.beq_iff] at h
    rw [List.map_cons, List.map_cons, identity_of_beq h.2, identity, identity, h.1.1, h.1.2]

theorem Agree.names (h : Agree spec spec') : spec.businessColumns = spec'.businessColumns := by
  have hn : ∀ cs : List ColumnSpec, cs.map ColumnSpec.name = (cs.map identity).map Prod.fst := fun cs => by
    rw [List.map_map]; rfl
  rw [TableSpec.businessColumns, TableSpec.businessColumns, hn, h.2, ← hn]

/-- A type is decided by the signature. -/
theorem arrowType_congr {c d : ColumnSpec} {type : ArrowType} (h : c.signature = d.signature)
    (hc : arrowType c = .ok type) : arrowType d = .ok type := by
  simp only [ColumnSpec.signature, Prod.mk.injEq] at h
  obtain ⟨htype, hprec, hscale⟩ := h
  unfold arrowType at hc ⊢
  rw [← htype, ← hprec, ← hscale]
  dsimp only at hc ⊢
  split at hc
  · exact hc
  · split_ifs at hc ⊢
    all_goals exact hc

theorem fields_ok {cs : List ColumnSpec} : fields cs = .ok fs ↔
    List.Forall₂ (fun c f => f.1 = c.name ∧ arrowType c = .ok f.2) cs fs := by
  rw [fields, mapM_ok]
  have hf : ∀ (c : ColumnSpec) (f : ArrowField),
      (do return (c.name, ← arrowType c) : Except PyError ArrowField) = .ok f ↔
        f.1 = c.name ∧ arrowType c = .ok f.2 := by
    intro c f
    rw [except_bind_ok]
    constructor
    · rintro ⟨a, ha, h⟩
      obtain rfl := Except.ok.inj h
      exact ⟨rfl, ha⟩
    · rintro ⟨hn, ha⟩
      exact ⟨f.2, ha, by rw [← hn]; rfl⟩
  simp only [hf]

theorem fields_congr : ∀ {cs ds : List ColumnSpec} {fs : List ArrowField},
    cs.map identity = ds.map identity → fields cs = .ok fs → fields ds = .ok fs
  | [], [], _, _, h => h
  | [], _ :: _, _, h, _ => by simp at h
  | _ :: _, [], _, h, _ => by simp at h
  | c :: cs, d :: ds, fs, h, hc => by
    rw [List.map_cons, List.map_cons, List.cons.injEq, identity, identity, Prod.mk.injEq] at h
    rw [fields_ok] at hc ⊢
    rcases hc with _ | ⟨⟨hn, ht⟩, hcs⟩
    have ih := fields_ok.mp (fields_congr h.2 (fields_ok.mpr hcs))
    exact .cons ⟨hn.trans h.1.1, arrowType_congr h.1.2 ht⟩ ih

theorem fields_of_typed : ∀ {cs : List ColumnSpec}, (∀ c ∈ cs, ∃ type, arrowType c = .ok type) →
    ∃ fs, fields cs = .ok fs
  | [], _ => ⟨[], rfl⟩
  | c :: cs, h => by
    obtain ⟨type, ht⟩ := h c (by simp)
    have hcs : ∃ fs, fields cs = .ok fs := fields_of_typed fun d hd => h d (by simp [hd])
    obtain ⟨fs, hfs⟩ := hcs
    exact ⟨(c.name, type) :: fs, fields_ok.mpr (.cons ⟨rfl, ht⟩ (fields_ok.mp hfs))⟩

theorem fields_names (h : fields spec.capturedColumns = .ok fs) : fs.map Prod.fst = spec.businessColumns := by
  rw [TableSpec.businessColumns]
  generalize spec.capturedColumns = cs at h
  rw [fields_ok] at h
  induction h with
  | nil => rfl
  | cons hf _ ih => rw [List.map_cons, List.map_cons, hf.1, ih]

theorem fields_inj {fs' : List ArrowField} (h : Agree spec spec') (hs : fields spec.capturedColumns = .ok fs)
    (hs' : fields spec'.capturedColumns = .ok fs') : fs' = fs :=
  Except.ok.inj (hs'.symm.trans (fields_congr h.2 hs))

/-! ### A spec that was validated -/

/-- What a validated spec promises: its columns have types, none is named like one of the log's own,
and the key is captured. -/
theorem validate_ok (h : validate spec = .ok ()) : (∃ fs, fields spec.capturedColumns = .ok fs) ∧
    (∀ name ∈ spec.businessColumns, name ∉ metadataColumns) ∧
    ∀ name ∈ spec.pkColumns, name ∈ spec.businessColumns := by
  simp only [validate, except_bind_ok, forM_ok] at h
  obtain ⟨_, -, _, hkey, _, hname, htyped⟩ := h
  refine ⟨?_, fun name hn => ?_, fun name hn => ?_⟩
  · exact fields_of_typed fun c hc => (htyped c hc).imp fun _ h => h.1
  · have := hname name hn
    rw [validateName, except_guard_ok] at this
    exact this.1
  · have := hkey name hn
    rw [validateKey, except_guard_ok, not_not] at this
    exact this.1

/-! ### The two read paths -/

/-- What polars reads Arrow fields as. -/
def readAs (lib : Libraries) (fs : List ArrowField) : List (String × DType) :=
  fs.map fun f => (f.1, lib.dtype f.2)

/-- The schema of the frames of a run: `eventSchema`, as polars reads it. -/
def frameSchema (lib : Libraries) (fs : List ArrowField) : List (String × DType) :=
  readAs lib (metadataFields ++ fs)

theorem readAs_names (fs : List ArrowField) : (readAs lib fs).map Prod.fst = fs.map Prod.fst := by
  rw [readAs, List.map_map]
  rfl

/-- Whatever a result set held, conforming it gives the declared schema. -/
theorem conform_ok {table : ArrowTable} {context : String} {columns : List ArrowColumn}
    (h : conform lib table fs context = .ok columns) {numRows : ℕ} :
    (frameOf lib numRows columns).schema = readAs lib fs := by
  simp only [conform, except_guard_ok, mapM_ok] at h
  have hcast : ∀ {f : ArrowField} {column : ArrowColumn},
      castColumn lib table.columns context f = .ok column → column.name = f.1 ∧ column.type = f.2 := by
    intro f column hc
    simp only [castColumn, except_bind_ok] at hc
    obtain ⟨origin, -, hc⟩ := hc
    split at hc
    · obtain rfl := Except.ok.inj hc
      exact ⟨rfl, rfl⟩
    · cases hc
  rw [frameOf, readAs, eq_comm, ← List.forall₂_eq_eq_eq, List.forall₂_map_left_iff,
    List.forall₂_map_right_iff]
  refine h.2.2.2.imp fun f column hc => ?_
  rw [(hcast hc).1, (hcast hc).2]

/-- A table read has the captured columns. -/
theorem readTable_schema {start stop : Option ℤ} {limit : ℤ} {df : DataFrame}
    (h : conn.readTable spec start stop limit w = .ok df w') :
    ∃ fs, fields spec.capturedColumns = .ok fs ∧ df.schema = readAs conn.lib fs := by
  simp only [MSSQLConnector.readTable, bind_ok, ofExcept_ok, pure_ok] at h
  obtain ⟨_, _, -, result, w₁, -, fs, _, ⟨hfs, rfl⟩, columns, _, ⟨hcols, rfl⟩, rfl, rfl⟩ := h
  exact ⟨fs, hfs, conform_ok hcols⟩

/-- A log read has the log's columns ahead of them. -/
theorem readEventLog_schema {low high : LSN} {df : DataFrame}
    (h : conn.readEventLog spec low high w = .ok (some df) w') :
    ∃ fs, fields spec.capturedColumns = .ok fs ∧ df.schema = frameSchema conn.lib fs := by
  obtain ⟨ci, query, result, -, -, ⟨-, hnone⟩ | ⟨-, schema, columns, hs, hcols, hdf⟩⟩ :=
    MSSQLConnector.readEventLog_ok h
  · cases hnone
  · obtain rfl := Option.some.inj hdf
    obtain ⟨fs, hfs, rfl⟩ := eventSchema_ok.mp hs
    exact ⟨fs, hfs, conform_ok hcols⟩

theorem frameSchema_eq (lib : Libraries) (fs : List ArrowField) :
    frameSchema lib fs = readAs lib metadataFields ++ readAs lib fs := List.map_append

/-- The log's own columns are read as what dump rows are stamped with. -/
theorem readAs_metadataFields (lib : Libraries) : readAs lib metadataFields = stampSchema := by
  simp [readAs, metadataFields, stampSchema, lib.dtype_largeBinary, lib.dtype_int32, lib.dtype_timestamp]

/-- The literals a chunk is stamped with have the dtypes the log's columns read back as. -/
theorem dumpLiterals_schema (lib : Libraries) (spec : TableSpec) (low : Option Datetime) :
    (MSSQLConnector.dumpLiterals spec low).map (fun l => (l.1, l.2.1)) = readAs lib metadataFields :=
  (readAs_metadataFields lib).symm

/-- Stamping a chunk puts the log's columns ahead of it. -/
theorem toEvents_schema {rows events : DataFrame} {low : Option Datetime}
    (hrows : rows.schema = readAs lib fs) (h : MSSQLConnector.toEvents rows spec low = .ok events) :
    events.schema = frameSchema lib fs := by
  simp only [MSSQLConnector.toEvents, DataFrame.selectLiteralsAndAll, except_guard_ok] at h
  obtain rfl := Except.ok.inj h.2
  show (MSSQLConnector.dumpLiterals spec low).map _ ++ rows.schema = _
  rw [dumpLiterals_schema lib, hrows, frameSchema_eq]

/-! ### Matching and stacking -/

/-- Frames of one schema stack. -/
theorem concat_ok {schema : List (String × DType)} : ∀ {dfs : List DataFrame}, dfs ≠ [] →
    (∀ df ∈ dfs, df.schema = schema) → ∃ df, DataFrame.concat dfs = .ok df ∧ df.schema = schema
  | [], hne, _ => absurd rfl hne
  | [df], _, h => ⟨df, rfl, h df (by simp)⟩
  | df :: df' :: dfs, _, h => by
    obtain ⟨rest, hrest, hs⟩ := concat_ok (List.cons_ne_nil df' dfs) fun x hx => h x (by simp [hx])
    refine ⟨⟨df.schema, df.rows ++ rest.rows⟩, ?_, h df (by simp)⟩
    rw [DataFrame.concat, hrest]
    · show DataFrame.concat₂ df rest = _
      rw [DataFrame.concat₂, if_neg (by rw [hs, h df (by simp)]; simp)]
    · simp

/-- **A merge of a chunk and its window returns**, whatever they hold. -/
theorem mergeChunk_returns {chunk : DataFrame} {window : Option DataFrame} {low : Datetime}
    (hc : chunk.schema = readAs lib fs) (hw : ∀ df ∈ window, df.schema = frameSchema lib fs)
    (hpk : spec.pkColumns.Nodup) (hnodup : ((metadataFields ++ fs).map Prod.fst).Nodup)
    (hkey : ∀ name ∈ spec.pkColumns, name ∈ fs.map Prod.fst) :
    ∃ frame, mergeChunk conn.source chunk window low spec w = .ok frame w := by
  have hcols : chunk.columns = fs.map Prod.fst := by rw [DataFrame.columns, hc, readAs_names]
  have hnames : (metadataColumns ++ chunk.columns).Nodup := by
    rw [hcols]
    rwa [List.map_append] at hnodup
  refine ⟨_, mergeChunk_eq hpk (fun name h => hcols ▸ hkey name h) hnames (fun df h => ?_) low w⟩
  rw [hw df h, frameSchema_eq, readAs_metadataFields, ← hc]

/-! ### Runs -/

variable {d : Driver σ} {L : LSN} {known : List RunState} {frames : List DataFrame}

/-- How a run begins, with the spec it inspected: with its first returning call on nothing, or with
a state built at a position. -/
inductive Opened (d : Driver σ) (spec : TableSpec) : LSN → σ → List RunState → List DataFrame → Prop
  | seeded {req w opened w₁ b w'} (fresh : req.state = none) (opens : d.opens req w = .ok opened w₁)
      (inspected : opened.spec = spec) (returned : d.call req w = .ok b w') :
      Opened d spec opened.lastLsn w' [b.state] b.frame.toList
  | built {now fromLsn dumpDone w state w'} (inspected : state.spec = spec)
      (returned : stateAtLsn d.connector now d.target.schema d.target.table fromLsn dumpDone w
        = .ok state w') : Opened d spec fromLsn w' [state] []

/-- The spec a run begins with was validated. -/
theorem Opened.validated (hconn : d.connector = conn.source) (h : Opened d spec L w known frames) :
    validate spec = .ok () := by
  cases h with
  | seeded fresh opens inspected returned =>
    rw [Driver.opens, fresh, hconn] at opens
    obtain ⟨spec, ci, _, _, _, _, hi, hci, -, -, rfl⟩ := seed_ok.mp opens
    obtain rfl := inspected
    exact (MSSQLConnector.inspect_ok hi).2.2 ci hci
  | built inspected returned =>
    rw [hconn] at returned
    obtain ⟨spec, ci, _, _, hi, hci, -, -, rfl⟩ := stateAtLsn_ok.mp returned
    obtain rfl := inspected
    exact (MSSQLConnector.inspect_ok hi).2.2 ci hci

theorem Run.validated (hconn : d.connector = conn.source) (run : Run d (Opened d spec) L w known frames) :
    validate spec = .ok () := by
  induction run with
  | begins h => exact h.validated hconn
  | idles _ _ ih => exact ih
  | raises _ _ _ _ ih => exact ih
  | returns _ _ _ _ _ ih => exact ih

/-- A carried state is opened under a spec that agrees with its own. -/
theorem opens_agree {req : Request} {st opened : RunState} (given : req.state = some st)
    (h : d.opens req w = .ok opened w') : Agree st.spec opened.spec := by
  rw [Driver.opens, given] at h
  obtain ⟨w₁, -, -, -, hr, -⟩ := openRun_some h
  rcases refreshSpec_ok hr with ⟨rfl, -⟩ | ⟨fresh, -, hpk, hcap, rfl⟩
  · exact ⟨rfl, rfl⟩
  · exact ⟨hpk, identity_of_beq hcap⟩

theorem WindowRead.schema {st st' : RunState} {high : LSN} {window : Option DataFrame}
    (h : WindowRead conn.source st w high window st' w') : st'.spec = st.spec ∧
      ∀ df ∈ window, ∃ fs, fields st.spec.capturedColumns = .ok fs ∧ df.schema = frameSchema conn.lib fs := by
  cases h with
  | past => exact ⟨rfl, by simp⟩
  | read _ _ events_eq _ => exact ⟨rfl, by rintro df rfl; exact readEventLog_schema events_eq⟩

/-- **The frame of a call** has the schema of the spec the call opened with. -/
theorem BatchRead.schema (hconn : d.connector = conn.source) {req : Request} {opened : RunState}
    {rows : List Row} {high : LSN} {window : Option DataFrame} {b : BatchResult}
    (h : d.Reads req w opened rows high window b w') : b.state.spec = opened.spec ∧
      ∀ df ∈ b.frame, ∃ fs, fields opened.spec.capturedColumns = .ok fs ∧
        df.schema = frameSchema conn.lib fs := by
  rw [Driver.Reads, hconn] at h
  have hpaged : ∀ {rows : DataFrame} {chunk : Option DataFrame} {paged : RunState} {w₂ w₃ : σ},
      PageRead conn.source req.chunkSize opened w₂ rows chunk paged w₃ → paged.spec = opened.spec := by
    intro _ _ _ _ _ hp
    cases hp <;> rfl
  cases h with
  | tail ho hdone hw => exact WindowRead.schema hw
  | last ho hwalking hlow hp hmark ha hw =>
    obtain ⟨hspec, hframe⟩ := WindowRead.schema hw
    rw [hpaged hp] at hspec hframe
    exact ⟨hspec, hframe⟩
  | chunk ho hwalking hlow hp hmark ha hw hmerge =>
    have hspec := (WindowRead.schema hw).1.trans (hpaged hp)
    refine ⟨hspec, ?_⟩
    rintro df ⟨⟩
    cases hp with
    | rows asked hne hkey =>
      obtain ⟨fs, hfs, hrows⟩ := readTable_schema asked
      obtain ⟨kept, events, hk, he, hschema, -⟩ := mergeChunk_ok hmerge
      have hkept := (supersede_ok hk).1.trans hrows
      exact ⟨fs, hfs, hschema.trans (toEvents_schema hkept (ofExcept_ok.mp he).1)⟩

/-- Every state of a run agrees with the spec it began with, and every frame has its schema. -/
theorem Run.agrees (hconn : d.connector = conn.source)
    (hresumes : ∀ known st, d.resumes known st → fallsBack known st)
    (hfs : fields spec.capturedColumns = .ok fs) (run : Run d (Opened d spec) L w known frames) :
    (∀ st ∈ known, Agree spec st.spec) ∧ ∀ df ∈ frames, df.schema = frameSchema conn.lib fs := by
  have hreads : ∀ {req opened rows high window b w w'}, Agree spec opened.spec →
      d.Reads req w opened rows high window b w' →
      Agree spec b.state.spec ∧ ∀ df ∈ b.frame.toList, df.schema = frameSchema conn.lib fs := by
    intro req opened rows high window b w w' hagree hr
    obtain ⟨hspec, hframe⟩ := BatchRead.schema hconn hr
    refine ⟨hspec ▸ hagree, fun df hdf => ?_⟩
    obtain ⟨fs', hfs', hschema⟩ := hframe df (Option.mem_toList.mp hdf)
    rw [hschema, fields_inj hagree hfs hfs']
  induction run with
  | begins h =>
    cases h with
    | seeded fresh opens inspected returned =>
      obtain ⟨-, opened, rows, high, window, hr⟩ := Driver.call_ok.mp returned
      obtain rfl := Driver.Reads.opened_eq hr opens
      obtain rfl := inspected
      obtain ⟨hagree, hframes⟩ := hreads ⟨rfl, rfl⟩ hr
      exact ⟨fun st h => List.mem_singleton.mp h ▸ hagree, hframes⟩
    | built inspected returned =>
      obtain rfl := inspected
      exact ⟨fun st h => List.mem_singleton.mp h ▸ ⟨rfl, rfl⟩, by simp⟩
  | idles run moved ih => exact ih
  | raises run resumed given raised ih => exact ih
  | returns run resumed given admitted returned ih =>
    obtain ⟨-, opened, rows, high, window, hr⟩ := Driver.call_ok.mp returned
    obtain ⟨w₁, ho⟩ := Driver.Reads.opens hr
    have hopened := (ih.1 _ (hresumes _ _ resumed)).trans (opens_agree given ho)
    obtain ⟨hagree, hframes⟩ := hreads hopened hr
    refine ⟨fun st h => ?_, fun df h => ?_⟩
    · rcases List.mem_cons.mp h with rfl | h
      · exact hagree
      · exact ih.1 st h
    · rcases List.mem_append.mp h with h | h
      · exact ih.2 df h
      · exact hframes df h

/-- The specs a call of the run can read under: the one it began with, or what a state of it is
opened under. -/
def Adopted (d : Driver σ) (spec : TableSpec) (known : List RunState) (spec' : TableSpec) : Prop :=
  spec' = spec ∨ ∃ st ∈ known, ∃ req w opened w', req.state = some st ∧
    d.opens req w = .ok opened w' ∧ opened.spec = spec'

/-- One schema for a run that began with the spec, handed back these states and gave these frames. A
merge selects the key columns, which a primary key names once. -/
structure Uniform (conn : MSSQLConnector σ) (d : Driver σ) (spec : TableSpec) (known : List RunState)
    (frames : List DataFrame) (declared : List ArrowField) : Prop where
  declared_eq : eventSchema spec = .ok declared
  nodup : (declared.map Prod.fst).Nodup
  keyed : ∀ name ∈ spec.pkColumns, name ∈ declared.map Prod.fst
  schema_eq : ∀ df ∈ frames, df.schema = readAs conn.lib declared
  stacking : ∀ dfs, dfs ≠ [] → (∀ df ∈ dfs, df ∈ frames) → ∃ df, DataFrame.concat dfs = .ok df
  merging : spec.pkColumns.Nodup → ∀ spec', Adopted d spec known spec' → ∀ {start limit w₁ chunk w₂},
    conn.readTable spec' start none limit w₁ = .ok chunk w₂ →
    ∀ {window}, (window = none ∨ ∃ low high w₃ w₄,
      conn.readEventLog spec' low high w₃ = .ok window w₄) →
    ∀ low w, ∃ frame, mergeChunk conn.source chunk window low spec' w = .ok frame w

/-- **One schema per run**: `eventSchema` of the spec the run began with names every column once and
the key among them, every frame has it, frames of the run stack, and a chunk and a window read under
any spec the run adopts merge. -/
theorem one_schema (hconn : d.connector = conn.source)
    (hresumes : ∀ known st, d.resumes known st → fallsBack known st)
    (hcols : spec.businessColumns.Nodup) (run : Run d (Opened d spec) L w known frames) :
    ∃ declared, Uniform conn d spec known frames declared := by
  obtain ⟨⟨fs, hfs⟩, hnames, hkeys⟩ := validate_ok (Run.validated hconn run)
  obtain ⟨hagree, hframes⟩ := Run.agrees hconn hresumes hfs run
  have hbusiness := fields_names hfs
  have hnodup : ((metadataFields ++ fs).map Prod.fst).Nodup := by
    rw [List.map_append, hbusiness, List.nodup_append]
    exact ⟨by decide, hcols, fun name hm name' hn h => hnames name' hn (h ▸ hm)⟩
  have hkey : ∀ name ∈ spec.pkColumns, name ∈ fs.map Prod.fst := fun name h =>
    hbusiness ▸ hkeys name h
  refine ⟨metadataFields ++ fs, ?_, hnodup, fun name h => ?_, hframes, fun dfs hne h => ?_, ?_⟩
  · rw [eventSchema, hfs]; rfl
  · rw [List.map_append]
    exact List.mem_append_right _ (hkey name h)
  · obtain ⟨df, hdf, -⟩ := concat_ok hne fun df hdf => hframes df (h df hdf)
    exact ⟨df, hdf⟩
  · intro hpk spec' hadopted start limit w₁ chunk w₂ hchunk window hwindow low w
    have hspec : Agree spec spec' := by
      rcases hadopted with rfl | ⟨st, hst, req, w, opened, w', given, ho, rfl⟩
      · exact ⟨rfl, rfl⟩
      · exact (hagree st hst).trans (opens_agree given ho)
    obtain ⟨fs', hfs', hchunk⟩ := readTable_schema hchunk
    rw [fields_inj hspec hfs hfs'] at hchunk
    refine mergeChunk_returns hchunk ?_ (hspec.1 ▸ hpk) hnodup (hspec.1 ▸ hkey)
    rintro df hdf
    rcases hwindow with rfl | ⟨_, _, _, _, h⟩
    · cases hdf
    · obtain rfl := Option.mem_def.mp hdf
      obtain ⟨fs', hfs', hschema⟩ := readEventLog_schema h
      rw [hschema, fields_inj hspec hfs hfs']

open PyDBLog.World.InMemory

/-- One event of an item, its columns in another order than they were asked for and under other
types. -/
def oneEvent : ArrowTable where
  numRows := 1
  columns := [⟨"name", .other "string", [.str "bolt"]⟩, ⟨"id", .int64, [.int 1]⟩,
    ⟨"start_lsn", .other "binary", [.bytes (lsnAt 4)]⟩, ⟨"seqval", .other "binary", [.bytes (lsnAt 4)]⟩,
    ⟨"operation", .int64, [.int 2]⟩, ⟨"update_mask", .other "binary", [.bytes (Bytes.BigEndian.digits 1 3)]⟩,
    ⟨"commit_timestamp", .timestamp .ns none, [.datetime 4]⟩]
  length_cells := by decide

/-- A page of one item, as the driver lays it out. -/
def onePage : ArrowTable where
  numRows := 1
  columns := [⟨"name", .other "string", [.str "nut"]⟩, ⟨"id", .int64, [.int 2]⟩]
  length_cells := by decide

def itemsSpec : TableSpec where
  sourceSchema := "dbo"
  sourceTable := "items"
  pkColumns := ["id"]
  columns := [⟨"id", "int", 10, 0, none⟩, ⟨"name", "nvarchar", 0, 0, none⟩]
  capturedColumns := [⟨"id", "int", 10, 0, none⟩, ⟨"name", "nvarchar", 0, 0, none⟩]
  captureInstance := some "dbo_items"

/-- What the window of the event is answered. -/
def windowScript : List ResultSet :=
  [answer [[.bytes (lsnAt 1)]], answer [[.bytes (lsnAt 4)]], ⟨[], oneEvent⟩]

/-- What a page is answered before it, with a window that has no event. -/
def chunkScript : List ResultSet :=
  [answer [[.bytes (lsnAt 1)]], answer [[.datetime 3]], ⟨[], onePage⟩, answer [[.datetime 3]],
    answer [[.int 1]], answer [[.bytes (lsnAt 3)]], answer []] ++ windowScript

def columnRows : List Row :=
  [[.str "id", .str "int", .int 10, .int 0, .null], [.str "name", .str "nvarchar", .int 0, .int 0, .null]]

def catalogueScript : List ResultSet :=
  [answer [[.str "id"]], answer [[.str "dbo_items"]], answer columnRows, answer columnRows,
    answer [[.bytes (lsnAt 1)]]] ++ chunkScript

def scriptedDriver : Driver (List ResultSet) := ⟨scripted.source, items, Eq, fallsBack, fun _ _ => True⟩

def eventFrame : DataFrame where
  schema := [("start_lsn", .binary), ("seqval", .binary), ("operation", .int32),
    ("update_mask", .binary), ("commit_timestamp", .datetime .us), ("id", .int32),
    ("name", .other "large_string")]
  rows := [[.bytes (lsnAt 4), .bytes (lsnAt 4), .int 2, .bytes (Bytes.BigEndian.digits 1 3), .datetime 4,
    .int 1, .str "bolt"]]

def chunkFrame : DataFrame where
  schema := eventFrame.schema
  rows := (itemDumps 3 [(2, "nut")]).rows

/-- A state of the items at a position. -/
def itemsAt (n : ℕ) : RunState := ⟨itemsSpec, lsnAt n, .utc 0, none, true⟩

/-- One that is to walk them, and one that has. -/
def unwalkedAt (n : ℕ) : RunState := ⟨itemsSpec, lsnAt n, .utc 0, none, false⟩
def walkedAt (n : ℕ) : RunState := ⟨itemsSpec, lsnAt n, .utc 0, some 3, true⟩

theorem scripted_built : stateAtLsn scriptedDriver.connector 0 scriptedDriver.target.schema
    scriptedDriver.target.table (lsnAt 2) false catalogueScript = .ok (unwalkedAt 2) chunkScript := rfl

theorem scripted_chunk : scriptedDriver.call ⟨0, some (unwalkedAt 2), 5, none⟩ chunkScript =
    .ok ⟨some chunkFrame, walkedAt 4⟩ windowScript := rfl

theorem scripted_window : scriptedDriver.call ⟨0, some (walkedAt 4), 5, none⟩ windowScript =
    .ok ⟨some eventFrame, walkedAt 5⟩ [] := rfl

/-- A run of a chunk and a window. -/
theorem one_schema_scripted : ∃ declared, Uniform scripted scriptedDriver itemsSpec
    [walkedAt 5, walkedAt 4, unwalkedAt 2] [chunkFrame, eventFrame] declared := by
  have built : Run scriptedDriver (Opened scriptedDriver itemsSpec) (lsnAt 2) chunkScript [unwalkedAt 2] [] :=
    .begins (.built rfl scripted_built)
  have read : Run scriptedDriver (Opened scriptedDriver itemsSpec) (lsnAt 2) windowScript
      [walkedAt 4, unwalkedAt 2] [chunkFrame] :=
    built.returns List.mem_cons_self rfl trivial scripted_chunk
  exact one_schema rfl (fun _ _ h => h) (by decide)
    (read.returns List.mem_cons_self rfl trivial scripted_window)

end PyDBLog.Mssql.OneSchema
