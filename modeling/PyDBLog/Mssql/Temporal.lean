import PyDBLog.Mssql.Connector
import PyDBLog.Time.Calendar

/-! # Times of the source in 64 bits

What SQL Server's time types hold, exactly, in ticks of 100 ns, against the unit the type map reads
them in. A count of units has to fit in 64 bits. At scale 7 the map chooses nanoseconds, which
leaves the moments from 1677-09-21 00:12:43.1452242 to 2262-04-11 23:47:16.8547758; the cast of a
result set fails on any other (`temporal_survives_iff`). -/

namespace PyDBLog.Mssql.Temporal

open PyDBLog.Model.Python PyDBLog.Model.Frame PyDBLog.Model.Types
open PyDBLog.Mssql.Schema PyDBLog.Time.Calendar

/-! ### Ticks -/

def ticksPerSecond : ℕ := 10000000

def ticksPerMinute : ℕ := 600000000

def ticksPerDay : ℕ := 864000000000

/-- 1970-01-01 -/
def epoch : Date := ⟨1970, 1, 1, by decide, by decide, by decide, by decide, by decide⟩

/-- A date and a time of day, to the tick. -/
structure Moment where
  date : Date
  tick : ℕ
  tick_lt : tick < ticksPerDay

/-- The ticks since 1970-01-01. -/
def Moment.ticks (m : Moment) : ℤ := Date.daysSince epoch m.date * ticksPerDay + m.tick

/-- 1677-09-21 00:12:43.1452242 -/
def earliest : Moment where
  date := ⟨1677, 9, 21, by decide, by decide, by decide, by decide, by decide⟩
  tick := 12 * ticksPerMinute + 43 * ticksPerSecond + 1452242
  tick_lt := by decide

/-- 2262-04-11 23:47:16.8547758 -/
def latest : Moment where
  date := ⟨2262, 4, 11, by decide, by decide, by decide, by decide, by decide⟩
  tick := (23 * 60 + 47) * ticksPerMinute + 16 * ticksPerSecond + 8547758
  tick_lt := by decide

/-! ### The types and their values -/

/-- The types that are mapped to a time type. `datetime` has the scale 3 and `smalldatetime` the
scale 0; the others have the scale they are declared with. -/
inductive SqlTime
  | datetime
  | smalldatetime
  | datetime2 (scale : Fin 8)
  | datetimeoffset (scale : Fin 8)
  | time (scale : Fin 8)

namespace SqlTime

def name : SqlTime → String
  | .datetime => "datetime"
  | .smalldatetime => "smalldatetime"
  | .datetime2 _ => "datetime2"
  | .datetimeoffset _ => "datetimeoffset"
  | .time _ => "time"

def scale : SqlTime → ℕ
  | .datetime => 3
  | .smalldatetime => 0
  | .datetime2 scale => scale
  | .datetimeoffset scale => scale
  | .time scale => scale

/-- A column of the type, as the catalogue describes it. -/
def Describes (type : SqlTime) (column : ColumnSpec) : Prop :=
  lower column.typeName = type.name ∧ column.scale = type.scale

instance (type : SqlTime) (column : ColumnSpec) : Decidable (type.Describes column) :=
  inferInstanceAs (Decidable (_ ∧ _))

/-- The Arrow type of the type's values in a unit. -/
def arrow : SqlTime → TimeUnit → ArrowType
  | .datetimeoffset _, unit => .timestamp unit (some "UTC")
  | .time _, unit => .time64 unit
  | _, unit => .timestamp unit none

/-- A time without a date. -/
def IsTimeOfDay : SqlTime → Prop
  | .time _ => True
  | _ => False

instance (type : SqlTime) : Decidable type.IsTimeOfDay := by
  cases type <;> unfold IsTimeOfDay <;> infer_instance

end SqlTime

/-- A time of day with at most `scale` fractional digits of a second. -/
def HasDigits (scale tick : ℕ) : Prop := 10 ^ (7 - scale) ∣ tick

/-- The values of a type: its range of dates, and the times of day it can tell apart. An offset is
in minutes, and beside it stands the local date and time. -/
inductive SqlValue : SqlTime → Type
  | datetime (date : Date) (ms : ℕ) (year_ge : 1753 ≤ date.year) (year_le : date.year ≤ 9999)
      (ms_lt : ms < 86400000) (rounded : ms % 10 = 0 ∨ ms % 10 = 3 ∨ ms % 10 = 7) : SqlValue .datetime
  | smalldatetime (date : Date) (minute : ℕ)
      (date_ge : (⟨1900, 1, 1, by decide, by decide, by decide, by decide, by decide⟩ : Date) ≤ date)
      (date_le : date ≤ ⟨2079, 6, 6, by decide, by decide, by decide, by decide, by decide⟩)
      (minute_lt : minute < 1440) : SqlValue .smalldatetime
  | datetime2 {scale : Fin 8} (moment : Moment) (year_le : moment.date.year ≤ 9999)
      (digits : HasDigits scale moment.tick) : SqlValue (.datetime2 scale)
  | datetimeoffset {scale : Fin 8} (moment : Moment) (offset : ℤ) (year_le : moment.date.year ≤ 9999)
      (digits : HasDigits scale moment.tick) (offset_ge : -840 ≤ offset) (offset_le : offset ≤ 840) :
      SqlValue (.datetimeoffset scale)
  | time {scale : Fin 8} (tick : ℕ) (tick_lt : tick < ticksPerDay) (digits : HasDigits scale tick) :
      SqlValue (.time scale)

/-- The ticks of a value: since 1970-01-01, in UTC where it has an offset, or since midnight. -/
def SqlValue.ticks {type : SqlTime} : SqlValue type → ℤ
  | .datetime date ms _ _ _ _ => Date.daysSince epoch date * ticksPerDay + ms * 10000
  | .smalldatetime date minute _ _ _ => Date.daysSince epoch date * ticksPerDay + minute * ticksPerMinute
  | .datetime2 moment _ _ => moment.ticks
  | .datetimeoffset moment offset _ _ _ _ => moment.ticks - offset * ticksPerMinute
  | .time tick _ _ => tick

/-! ### Counts of units -/

def perSecond : TimeUnit → ℕ
  | .us => 1000000
  | .ns => 1000000000

/-- The ticks are a whole number of units, which 64 bits with a sign hold. -/
def Held (unit : TimeUnit) (x : ℤ) : Prop :=
  ∃ n : ℤ, n * ticksPerSecond = x * perSecond unit ∧ -2 ^ 63 ≤ n ∧ n < 2 ^ 63

theorem held_us {x : ℤ} : Held .us x ↔ 10 ∣ x ∧ -2 ^ 63 ≤ x / 10 ∧ x / 10 < 2 ^ 63 := by
  simp only [Held, ticksPerSecond, perSecond]
  constructor
  · rintro ⟨n, hn, hlow, hhigh⟩
    omega
  · rintro ⟨hdvd, hlow, hhigh⟩
    exact ⟨x / 10, by omega, hlow, hhigh⟩

theorem held_ns {x : ℤ} : Held .ns x ↔ -2 ^ 63 ≤ x * 100 ∧ x * 100 < 2 ^ 63 := by
  simp only [Held, ticksPerSecond, perSecond]
  constructor
  · rintro ⟨n, hn, hlow, hhigh⟩
    omega
  · rintro ⟨hlow, hhigh⟩
    exact ⟨x * 100, by omega, hlow, hhigh⟩

instance (unit : TimeUnit) (x : ℤ) : Decidable (Held unit x) :=
  match unit with
  | .us => decidable_of_iff _ held_us.symm
  | .ns => decidable_of_iff _ held_ns.symm

/-- Nanoseconds hold the moments between the earliest and the latest. -/
theorem held_ns_iff {x : ℤ} : Held .ns x ↔ earliest.ticks ≤ x ∧ x ≤ latest.ticks := by
  have hfirst : earliest.ticks = -92233720368547758 := by decide
  have hlast : latest.ticks = 92233720368547758 := by decide
  rw [held_ns, hfirst, hlast]
  omega

/-! ### Every value in microseconds, where they are chosen -/

theorem daysSince_bounds {d : Date} (h : d.year ≤ 9999) :
    -719162 ≤ Date.daysSince epoch d ∧ Date.daysSince epoch d ≤ 2932896 := by
  have hlast : d ≤ ⟨9999, 12, 31, by decide, by decide, by decide, by decide, by decide⟩ :=
    Date.le_of_december h rfl rfl
  have hle : d.ordinal ≤ 3652059 := Date.ordinal_le_iff.mpr hlast
  have hepoch : epoch.ordinal = 719163 := by decide
  have hpos := d.ordinal_pos
  rw [Date.daysSince, hepoch]
  omega

theorem year_le_of_le {d e : Date} (h : d ≤ e) : d.year ≤ e.year := by
  by_contra hlt
  exact absurd (Date.lt_iff.mpr (Or.inl (not_le.mp hlt))) (not_lt.mpr h)

/-- No value lies further than a day outside the years 1 to 9999. -/
theorem SqlValue.ticks_bounds {type : SqlTime} (v : SqlValue type) :
    -719163 * 864000000000 ≤ v.ticks ∧ v.ticks ≤ 2932898 * 864000000000 := by
  cases v with
  | datetime date ms _ year_le ms_lt _ =>
    have := daysSince_bounds year_le
    simp only [SqlValue.ticks, ticksPerDay]
    omega
  | smalldatetime date minute _ date_le minute_lt =>
    have := daysSince_bounds ((year_le_of_le date_le).trans (by decide))
    simp only [SqlValue.ticks, ticksPerDay, ticksPerMinute]
    omega
  | datetime2 moment year_le digits =>
    have := daysSince_bounds year_le
    have htick := moment.tick_lt
    simp only [SqlValue.ticks, Moment.ticks, ticksPerDay] at htick ⊢
    omega
  | datetimeoffset moment offset year_le digits offset_ge offset_le =>
    have := daysSince_bounds year_le
    have htick := moment.tick_lt
    simp only [SqlValue.ticks, Moment.ticks, ticksPerDay, ticksPerMinute] at htick ⊢
    omega
  | time tick tick_lt digits =>
    simp only [SqlValue.ticks, ticksPerDay] at tick_lt ⊢
    omega

/-- Six fractional digits are whole microseconds. -/
theorem ten_dvd_of_digits {scale tick : ℕ} (hscale : scale < 7) (h : HasDigits scale tick) : 10 ∣ tick := by
  have hpow : 10 ^ 1 ∣ 10 ^ (7 - scale) := pow_dvd_pow 10 (by omega)
  exact hpow.trans h

theorem SqlValue.ten_dvd {type : SqlTime} (hscale : type.scale < 7) (v : SqlValue type) :
    10 ∣ v.ticks := by
  cases v with
  | datetime date ms _ _ _ _ =>
    simp only [SqlValue.ticks, ticksPerDay]
    omega
  | smalldatetime date minute _ _ _ =>
    simp only [SqlValue.ticks, ticksPerDay, ticksPerMinute]
    omega
  | datetime2 moment year_le digits =>
    have := ten_dvd_of_digits hscale digits
    simp only [SqlValue.ticks, Moment.ticks, ticksPerDay]
    omega
  | datetimeoffset moment offset year_le digits _ _ =>
    have := ten_dvd_of_digits hscale digits
    simp only [SqlValue.ticks, Moment.ticks, ticksPerDay, ticksPerMinute]
    omega
  | time tick tick_lt digits =>
    have := ten_dvd_of_digits hscale digits
    simp only [SqlValue.ticks]
    omega

/-- The values the unit of their type holds. -/
def InRange {type : SqlTime} (v : SqlValue type) : Prop :=
  type.scale < 7 ∨ type.IsTimeOfDay ∨ earliest.ticks ≤ v.ticks ∧ v.ticks ≤ latest.ticks

instance {type : SqlTime} (v : SqlValue type) : Decidable (InRange v) :=
  inferInstanceAs (Decidable (_ ∨ _ ∨ _ ∧ _))

/-- **What the chosen unit holds.** -/
theorem held_iff {type : SqlTime} (v : SqlValue type) :
    Held (timeUnit type.scale) v.ticks ↔ InRange v := by
  have hbounds := v.ticks_bounds
  by_cases hscale : type.scale < 7
  · have hus : timeUnit type.scale = .us := if_neg (by omega)
    have hheld : Held .us v.ticks := held_us.mpr ⟨v.ten_dvd hscale, by omega, by omega⟩
    exact iff_of_true (hus ▸ hheld) (Or.inl hscale)
  · have hns : timeUnit type.scale = .ns := if_pos (by omega)
    rw [hns, InRange, or_iff_right hscale]
    by_cases hday : type.IsTimeOfDay
    · cases v with
      | time tick tick_lt digits =>
        refine iff_of_true (held_ns.mpr ?_) (Or.inl hday)
        simp only [SqlValue.ticks, ticksPerDay] at tick_lt ⊢
        omega
      | _ => exact hday.elim
    · rw [or_iff_right hday, held_ns_iff]

/-! ### The type map and the cast -/

/-- **The type map on a time type**: its Arrow type in the unit of its scale. -/
theorem arrowType_eq {type : SqlTime} {column : ColumnSpec} (h : type.Describes column) :
    arrowType column = .ok (type.arrow (timeUnit type.scale)) := by
  obtain ⟨hname, hscale⟩ := h
  unfold arrowType
  rw [hname, hscale]
  cases type <;> rfl

theorem arrow_inj {type : SqlTime} {unit unit' : TimeUnit} (h : type.arrow unit = type.arrow unit') :
    unit = unit' := by
  cases type <;> simpa [SqlTime.arrow] using h

/-- Two timestamps, or two times of day. -/
inductive SameKind : ArrowType → ArrowType → Prop
  | timestamp {unit tz unit' tz'} : SameKind (.timestamp unit tz) (.timestamp unit' tz')
  | time64 {unit unit'} : SameKind (.time64 unit) (.time64 unit')

def unitOf : ArrowType → Option TimeUnit
  | .timestamp unit _ => some unit
  | .time64 unit => some unit
  | _ => none

/-- What pyarrow promises of a cast from one time type to another of its kind, where `ticksOf` says
what a cell holds: every value is kept, or the cast is refused because one of them does not fit. -/
structure SafeCast (lib : Libraries) (ticksOf : Cell → Option ℤ) : Prop where
  exact : ∀ {source target unit cells}, SameKind source target → unitOf target = some unit →
    (∀ cell ∈ cells, ∀ x ∈ ticksOf cell, Held unit x) →
    ∃ cells', lib.cast source target cells = some cells' ∧ cells'.map ticksOf = cells.map ticksOf
  refuses : ∀ {source target unit cells}, SameKind source target → unitOf target = some unit →
    (∃ cell ∈ cells, ∃ x ∈ ticksOf cell, ¬ Held unit x) → lib.cast source target cells = none

/-- What the map and the cast ought to make of the values of a column: the unit that is chosen holds
each of them, and a result set that came back with them, or null, in its cells is cast to the same
values. -/
def Survives {type : SqlTime} (column : ColumnSpec) (values : List (SqlValue type)) : Prop :=
  ∃ unit, arrowType column = .ok (type.arrow unit) ∧ (∀ v ∈ values, Held unit v.ticks) ∧
    ∀ lib ticksOf, SafeCast lib ticksOf → ∀ columns context source cells,
      lookupColumn columns column.name = .ok ⟨column.name, source, cells⟩ →
      SameKind source (type.arrow unit) → cells.filterMap ticksOf = values.map SqlValue.ticks →
      ∃ cast, castColumn lib columns context (column.name, type.arrow unit) = .ok cast ∧
        cast.cells.map ticksOf = cells.map ticksOf

theorem unitOf_arrow (type : SqlTime) (unit : TimeUnit) : unitOf (type.arrow unit) = some unit := by
  cases type <;> rfl

/-- A column whose cast succeeds. -/
theorem castColumn_ok {lib : Libraries} {columns : List ArrowColumn} {context name : String}
    {source target : ArrowType} {cells cells' : List Cell}
    (found : lookupColumn columns name = .ok ⟨name, source, cells⟩)
    (cast : lib.cast source target cells = some cells') :
    castColumn lib columns context (name, target) = .ok ⟨name, target, cells'⟩ := by
  simp [castColumn, found, cast, bind, Except.bind]

/-- **The values that survive** are those a scale below 7 or a time of day has, and at scale 7 those
between the earliest and the latest moment a count of nanoseconds reaches. -/
theorem temporal_survives_iff {type : SqlTime} {column : ColumnSpec} (h : type.Describes column)
    (values : List (SqlValue type)) : Survives column values ↔ ∀ v ∈ values, InRange v := by
  constructor
  · rintro ⟨unit, hmap, hheld, -⟩ v hv
    obtain rfl := arrow_inj (Except.ok.inj ((arrowType_eq h).symm.trans hmap))
    exact (held_iff v).mp (hheld v hv)
  · intro hrange
    have hheld : ∀ v ∈ values, Held (timeUnit type.scale) v.ticks := fun v hv =>
      (held_iff v).mpr (hrange v hv)
    refine ⟨_, arrowType_eq h, hheld, ?_⟩
    intro lib ticksOf hsafe columns context source cells found kind hcells
    have hcell : ∀ cell ∈ cells, ∀ x ∈ ticksOf cell, Held (timeUnit type.scale) x := by
      intro cell hcell x hx
      have hmem : x ∈ cells.filterMap ticksOf := List.mem_filterMap.mpr ⟨cell, hcell, hx⟩
      rw [hcells] at hmem
      obtain ⟨v, hv, rfl⟩ := List.mem_map.mp hmem
      exact hheld v hv
    obtain ⟨cells', hcast, hkept⟩ := hsafe.exact kind (unitOf_arrow type _) hcell
    exact ⟨_, castColumn_ok found hcast, hkept⟩

/-! ### A column of ends of days -/

/-- What a cell of a `datetime` holds, in ticks. -/
def datetimeTicks : Cell → Option ℤ
  | .datetime t => some (t * 10)
  | _ => none

/-- Casts that keep what the unit holds and refuse anything else. -/
def safeLibraries : Libraries :=
  { Connector.plainLibraries with
    cast := fun _ target cells => match unitOf target with
      | some unit =>
        if ∀ cell ∈ cells, ∀ x ∈ datetimeTicks cell, Held unit x then some cells else none
      | none => some cells
    length_cast := fun h => by
      split at h
      · split_ifs at h
        cases h
        rfl
      · cases h
        rfl }

theorem safeLibraries_safe : SafeCast safeLibraries datetimeTicks where
  exact := by
    intro source target unit cells _ hunit hheld
    refine ⟨cells, ?_, rfl⟩
    simp only [safeLibraries, hunit]
    exact if_pos hheld
  refuses := by
    rintro source target unit cells - hunit ⟨cell, hcell, x, hx, hno⟩
    simp only [safeLibraries, hunit]
    exact if_neg fun hall => hno (hall cell hcell x hx)

/-- `sold_at datetime2(7)` -/
def soldAt : ColumnSpec := ⟨"sold_at", "datetime2", 27, 7, none⟩

/-- 9999-12-31 00:00:00, which stands for no end. -/
def noEnd : SqlValue (.datetime2 7) :=
  .datetime2 ⟨⟨9999, 12, 31, by decide, by decide, by decide, by decide, by decide⟩, 0, by decide⟩
    (by decide) (dvd_zero _)

/-- The start of the last day nanoseconds reach. -/
def lastDay : SqlValue (.datetime2 7) :=
  .datetime2 ⟨latest.date, 0, by decide⟩ (by decide) (dvd_zero _)

theorem soldAt_described : (SqlTime.datetime2 7).Describes soldAt := by decide

/-- A sale on that day survives, in the map and in the cast. -/
theorem temporal_survives_iff_sale : Survives soldAt [lastDay] ∧ ∃ cast,
    castColumn safeLibraries [⟨"sold_at", .timestamp .us none, [.datetime (106751 * 86400000000)]⟩]
        "dbo.items" ("sold_at", .timestamp .ns none) = .ok cast ∧
      cast.cells.map datetimeTicks = [some (106751 * 864000000000)] := by
  have hsurvives : Survives soldAt [lastDay] :=
    (temporal_survives_iff soldAt_described [lastDay]).mpr (by decide)
  refine ⟨hsurvives, ?_⟩
  obtain ⟨unit, hmap, -, hcast⟩ := hsurvives
  obtain rfl := arrow_inj (Except.ok.inj ((arrowType_eq soldAt_described).symm.trans hmap))
  exact hcast safeLibraries datetimeTicks safeLibraries_safe
    [⟨"sold_at", .timestamp .us none, [.datetime (106751 * 86400000000)]⟩] "dbo.items" _ _ rfl .timestamp
    (by decide)

/-- **A date that stands for no end does not**: the unit that is chosen does not hold it, and the
cast of the result set that carries it raises. -/
theorem no_end_is_refused : (SqlTime.datetime2 7).Describes soldAt ∧ ¬ Survives soldAt [noEnd] ∧
    castColumn safeLibraries [⟨"sold_at", .timestamp .us none, [.datetime (2932896 * 86400000000)]⟩]
        "dbo.items" ("sold_at", .timestamp .ns none) =
      .error (.valueError ("dbo.items: column 'sold_at' came back as timestamp[us] and does not " ++
        "cast to the declared timestamp[ns]")) := by
  refine ⟨soldAt_described, ?_, rfl⟩
  rintro ⟨unit, hmap, hheld, -⟩
  obtain rfl := arrow_inj (Except.ok.inj ((arrowType_eq soldAt_described).symm.trans hmap))
  exact absurd (hheld noEnd List.mem_cons_self) (by decide)

end PyDBLog.Mssql.Temporal
