import PyDBLog.Mssql.OneSchema

/-! # When a re-inspection stops a run

`_refresh_spec` is there to decide whether the frame schema moved. It compares signatures, and
several of them are read as one Arrow type: a column that changes its signature within one type
stops the run although no frame changes. That is the only case in which the two part
(`refresh_stops_iff`). -/

namespace PyDBLog.Mssql.Refresh

open PyDBLog.Model.Python PyDBLog.Model.Frame PyDBLog.Model.Types PyDBLog.Model.Connector
open PyDBLog.Model.DBLog PyDBLog.Model.Returns
open PyDBLog.Mssql.Schema PyDBLog.Mssql.Connector PyDBLog.Mssql.OneSchema

/-! ### What is compared -/

/-- Equal lists of columns are those of one name and one signature in each place. -/
theorem beq_iff_identity {cs ds : List ColumnSpec} : (cs == ds) = true ↔ cs.map identity = ds.map identity := by
  refine ⟨identity_of_beq, fun h => ?_⟩
  induction cs generalizing ds with
  | nil =>
    rw [List.map_nil, eq_comm, List.map_eq_nil_iff] at h
    rw [h]
    rfl
  | cons c cs ih =>
    obtain ⟨d, ds', rfl, hd, hds⟩ := List.map_eq_cons_iff.mp h.symm
    rw [identity, identity, Prod.mk.injEq] at hd
    rw [List.cons_beq_cons, Bool.and_eq_true, ColumnSpec.beq_iff]
    exact ⟨⟨hd.1.symm, hd.2.symm⟩, ih hds.symm⟩

/-- The two columns have one name and are read as one Arrow type. -/
def ReadsAlike (column other : ColumnSpec) : Prop :=
  column.name = other.name ∧ ∃ type, arrowType column = .ok type ∧ arrowType other = .ok type

/-- Two lists of columns have one list of fields when they are read alike. -/
theorem fields_eq_iff : ∀ {cs ds : List ColumnSpec} {fs gs : List ArrowField}, fields cs = .ok fs →
    fields ds = .ok gs → (fs = gs ↔ List.Forall₂ ReadsAlike cs ds) := by
  simp only [fields_ok]
  intro cs ds fs gs hfs hgs
  induction hfs generalizing ds gs with
  | nil => cases hgs <;> simp
  | cons hf hfs ih =>
    rcases hgs with _ | ⟨hg, hgs⟩
    · simp
    rw [List.forall₂_cons, ← ih hgs, List.cons.injEq]
    refine and_congr_left fun _ => ⟨?_, ?_⟩
    · rintro rfl
      exact ⟨hf.1.symm.trans hg.1, _, hf.2, hg.2⟩
    · rintro ⟨hname, type, hc, hd⟩
      rw [hf.2] at hc
      rw [hg.2] at hd
      refine Prod.ext (hf.1.trans (hname.trans hg.1.symm)) ?_
      exact (Except.ok.inj hc).trans (Except.ok.inj hd).symm

/-- Validated specs have one event schema when their captured columns are read alike. -/
theorem eventSchema_eq_iff {spec other : TableSpec} (hs : validate spec = .ok ())
    (ho : validate other = .ok ()) : eventSchema spec = eventSchema other ↔
      List.Forall₂ ReadsAlike spec.capturedColumns other.capturedColumns := by
  obtain ⟨fs, hfs⟩ := (validate_ok hs).1
  obtain ⟨gs, hgs⟩ := (validate_ok ho).1
  rw [← fields_eq_iff hfs hgs, eventSchema, eventSchema, hfs, hgs]
  constructor
  · intro h
    exact List.append_cancel_left (Except.ok.inj h)
  · rintro rfl
    rfl

/-- Columns of one name and one signature are read alike. -/
theorem readsAlike_of_identity {cs ds : List ColumnSpec} (hcs : ∃ fs, fields cs = .ok fs)
    (h : cs.map identity = ds.map identity) : List.Forall₂ ReadsAlike cs ds := by
  obtain ⟨fs, hfs⟩ := hcs
  have hds := fields_ok.mp (fields_congr h hfs)
  rw [fields_ok] at hfs
  induction hfs generalizing ds with
  | nil =>
    rw [List.map_nil, eq_comm, List.map_eq_nil_iff] at h
    rw [h]
    exact .nil
  | cons hf hfs ih =>
    rcases hds with _ | ⟨hd, hds⟩
    rw [List.map_cons, List.map_cons, List.cons.injEq] at h
    exact .cons ⟨congrArg Prod.fst h.1, _, hf.2, hd.2⟩ (ih h.2 hds)

/-- Columns that are read alike have one identity exactly where they have one signature. -/
theorem identity_iff_signature {cs ds : List ColumnSpec} (h : List.Forall₂ ReadsAlike cs ds) :
    cs.map identity = ds.map identity ↔
      List.Forall₂ (fun column other => column.signature = other.signature) cs ds := by
  induction h with
  | nil => simp
  | cons hc _ ih =>
    rw [List.map_cons, List.map_cons, List.cons.injEq, List.forall₂_cons, ih]
    refine and_congr_left fun _ => ?_
    rw [identity, identity, Prod.mk.injEq]
    exact and_iff_right hc.1

/-! ### One refresh -/

variable {σ : Type} {C : SourceConnector σ} {now : ℤ} {state : RunState} {every : Timedelta}
  {fresh : TableSpec} {captureInstance : String} {w w' : σ}

/-- What a spec is refused with. -/
theorem checkSpec_error {was isNow : TableSpec} (h : checkSpec was isNow ≠ .ok ()) :
    ∃ message, checkSpec was isNow = .error (.schemaChangedError message) := by
  unfold checkSpec at h ⊢
  split_ifs at h ⊢ with hpk hcap
  · exact ⟨_, rfl⟩
  · exact ⟨_, rfl⟩
  · exact absurd rfl h

/-- A stale state that is re-inspected: what the check says is what the refresh does. -/
theorem refreshSpec_eq (stale : every ≤ now - state.lastInspect.instant)
    (inspected : C.inspect state.spec.sourceSchema state.spec.sourceTable w = .ok fresh w')
    (captured : fresh.captureInstance = some captureInstance) :
    refreshSpec C now state (some every) w = match checkSpec state.spec fresh with
      | .ok _ => .ok { state with spec := fresh, lastInspect := .utc now } w'
      | .error e => .error e w' := by
  have hrequire : requireCaptureInstance fresh = .ok captureInstance := requireCaptureInstance_ok.mpr captured
  rw [refreshSpec]
  simp only [not_lt.mpr stale, if_false]
  show EStateM.bind _ _ w = _
  rw [EStateM.bind, inspected]
  simp only [hrequire]
  cases checkSpec state.spec fresh <;> rfl

/-- What a re-inspection ought to do: stop the run exactly when the primary key or the event schema
moved, and otherwise adopt the spec and keep position, page and progress. -/
def Decides (C : SourceConnector σ) (now : ℤ) (state : RunState) (every : Timedelta) (fresh : TableSpec)
    (w w' : σ) : Prop :=
  ((∃ message, refreshSpec C now state (some every) w = .error (.schemaChangedError message) w') ↔
    state.spec.pkColumns ≠ fresh.pkColumns ∨ eventSchema state.spec ≠ eventSchema fresh) ∧
  (¬ (state.spec.pkColumns ≠ fresh.pkColumns ∨ eventSchema state.spec ≠ eventSchema fresh) →
    refreshSpec C now state (some every) w =
      .ok { spec := fresh, lastLsn := state.lastLsn, lastInspect := .utc now,
            chunkKey := state.chunkKey, dumpDone := state.dumpDone } w')

/-- **When a re-inspection decides right**: unless the key is kept, every captured column keeps its
name and its Arrow type, and one of them changes its signature all the same. -/
theorem refresh_stops_iff (was : validate state.spec = .ok ()) (isNow : validate fresh = .ok ())
    (stale : every ≤ now - state.lastInspect.instant)
    (inspected : C.inspect state.spec.sourceSchema state.spec.sourceTable w = .ok fresh w')
    (captured : fresh.captureInstance = some captureInstance) :
    Decides C now state every fresh w w' ↔
      (state.spec.pkColumns = fresh.pkColumns →
        List.Forall₂ ReadsAlike state.spec.capturedColumns fresh.capturedColumns →
        List.Forall₂ (fun column other => column.signature = other.signature)
          state.spec.capturedColumns fresh.capturedColumns) := by
  have hcheck : checkSpec state.spec fresh = .ok () ↔ state.spec.pkColumns = fresh.pkColumns ∧
      state.spec.capturedColumns.map identity = fresh.capturedColumns.map identity := by
    rw [checkSpec_ok, beq_iff_identity]
  have halike : state.spec.capturedColumns.map identity = fresh.capturedColumns.map identity →
      List.Forall₂ ReadsAlike state.spec.capturedColumns fresh.capturedColumns :=
    readsAlike_of_identity (validate_ok was).1
  rw [Decides, refreshSpec_eq stale inspected captured, ne_eq, ne_eq, eventSchema_eq_iff was isNow]
  by_cases hok : checkSpec state.spec fresh = .ok ()
  · obtain ⟨hpk, hid⟩ := hcheck.mp hok
    have hsig := (identity_iff_signature (halike hid)).mp hid
    simp [hok, hpk, halike hid, hsig]
  · obtain ⟨message, hm⟩ := checkSpec_error hok
    rw [hm]
    rw [hcheck, not_and] at hok
    constructor
    · rintro ⟨hiff, -⟩ hpk hreads
      rcases hiff.mp ⟨message, rfl⟩ with h | h
      · exact absurd hpk h
      · exact absurd hreads h
    · intro h
      have hmoved : ¬ state.spec.pkColumns = fresh.pkColumns ∨
          ¬ List.Forall₂ ReadsAlike state.spec.capturedColumns fresh.capturedColumns := by
        by_contra hnot
        rw [not_or, not_not, not_not] at hnot
        exact hok hnot.1 ((identity_iff_signature hnot.2).mpr (h hnot.1 hnot.2))
      exact ⟨⟨fun _ => hmoved, fun _ => ⟨message, rfl⟩⟩, fun hnot => absurd hmoved hnot⟩

/-! ### The items, re-inspected -/

/-- What the catalogue answers an inspection of the items. -/
def itemsCatalogue : List ResultSet :=
  [answer [[.str "id"]], answer [[.str "dbo_items"]], answer columnRows, answer columnRows]

theorem items_inspected : scripted.source.inspect "dbo" "items" itemsCatalogue = .ok itemsSpec [] := rfl

/-- The items as they were before their names became Unicode. -/
def narrowSpec : TableSpec where
  sourceSchema := "dbo"
  sourceTable := "items"
  pkColumns := ["id"]
  columns := [⟨"id", "int", 10, 0, none⟩, ⟨"name", "varchar", 0, 0, none⟩]
  capturedColumns := [⟨"id", "int", 10, 0, none⟩, ⟨"name", "varchar", 0, 0, none⟩]
  captureInstance := some "dbo_items"

/-- A state of those items, a day after it was inspected. -/
theorem refresh_stops_iff_items :
    Decides scripted.source defaultInspectEvery { itemsAt 4 with spec := narrowSpec } defaultInspectEvery
        itemsSpec itemsCatalogue [] ↔
      (narrowSpec.pkColumns = itemsSpec.pkColumns →
        List.Forall₂ ReadsAlike narrowSpec.capturedColumns itemsSpec.capturedColumns →
        List.Forall₂ (fun column other => column.signature = other.signature)
          narrowSpec.capturedColumns itemsSpec.capturedColumns) :=
  refresh_stops_iff rfl rfl (by decide) items_inspected rfl

/-- **A run stopped for nothing**: a column that was `varchar` is `nvarchar` when the spec is read
again. Key and event schema are what they were, and the run is refused. -/
theorem refresh_stops_widened :
    validate narrowSpec = .ok () ∧ validate itemsSpec = .ok () ∧
      eventSchema narrowSpec = eventSchema itemsSpec ∧
      ¬ Decides scripted.source defaultInspectEvery { itemsAt 4 with spec := narrowSpec } defaultInspectEvery
        itemsSpec itemsCatalogue [] := by
  refine ⟨rfl, rfl, rfl, fun hdecides => ?_⟩
  rcases hdecides.1.mp ⟨_, rfl⟩ with h | h
  · exact h rfl
  · exact h rfl

end PyDBLog.Mssql.Refresh
