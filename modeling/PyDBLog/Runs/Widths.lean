import PyDBLog.Runs.Calls
import PyDBLog.Mssql.Lsn

/-! # Positions of another width

A position the caller hands in may have any width, and is compared as bytes all the same. Byte order
is the order of the numbers at the width of an LSN alone: against a floor, the positions that are
accepted and then read as the numbers they are, are those of that width, those no reported position
reaches, and no others (`accepted_position_iff`). -/

namespace PyDBLog.Runs.Widths

open PyDBLog.Model.Python PyDBLog.Model.Frame PyDBLog.Model.Types PyDBLog.Model.Connector
open PyDBLog.Model.DBLog PyDBLog.Model.Returns PyDBLog.Model.Worlds
open PyDBLog.Mssql.Schema PyDBLog.Mssql.Connector PyDBLog.Mssql.Lsn
open PyDBLog.World.Log PyDBLog.World.Log.Source PyDBLog.World.Promises PyDBLog.World.InMemory
open PyDBLog.Runs.Window PyDBLog.Runs.Calls
open PyDBLog.Bytes

/-- What a caller may rely on once a position was accepted against a floor: its number is at or
above the floor's, and the first call that returns while the reported number is at or above it reads
a window of exactly the changes whose numbers lie between. -/
def ComparedAsNumber {σ : Type} (C : SourceConnector σ) (view : σ → Source) (t : Target)
    (fromLsn floor : LSN) : Prop :=
  ∀ now spec captureInstance state w w₀ w₁, t.Describes spec → C.inspect t.schema t.table w = .ok spec w₀ →
    spec.captureInstance = some captureInstance → C.getMinLsn captureInstance w₀ = .ok floor w₁ →
    stateAtLsn C now t.schema t.table fromLsn true w = .ok state w₁ →
    number floor ≤ number fromLsn ∧
      ∀ now' chunkSize inspectEvery w₂ opened rows high window b w₃, Grows (view w₁) (view w₂) →
        BatchRead C now' t.schema t.table chunkSize inspectEvery (some state) w₂ opened rows high window b w₃ →
        number fromLsn ≤ number high →
        number b.state.lastLsn = number high + 1 ∧
          HasRows t (((view w₃).changes.filter fun c =>
            number fromLsn ≤ number c.startLsn ∧ number c.startLsn ≤ number high).map
              (Change.eventRow t.columns)) b.frame

variable {σ : Type} {C : SourceConnector σ} {view : σ → Source} {t : Target} {fromLsn floor high : LSN}
  {w w' : σ}

/-! ### Positions that are read right -/

/-- The greatest number of the width of an LSN is that of no position that can be advanced. -/
theorem number_lt_of_advanced {lsn next : LSN} (h : MSSQLConnector.incrementLsn lsn = .ok next) :
    number next = number lsn + 1 ∧ number lsn + 1 < 256 ^ lsnWidth := by
  obtain ⟨-, hs⟩ := MSSQLConnector.incrementLsn_ok.mp h
  obtain ⟨hl, hv⟩ := BigEndian.succ_eq_some hs
  have hlt := BigEndian.value_lt next
  rw [hl, hv] at hlt
  exact ⟨hv, hlt⟩

/-- Numbers of a width are below its power. -/
theorem number_lt (lsn : LSN) (h : lsn.length = lsnWidth) : number lsn < 256 ^ lsnWidth :=
  h ▸ BigEndian.value_lt lsn

/-- A position that is longer than an LSN lies below every LSN whose number is above that of its
first ten bytes. -/
theorem lt_of_take_lt (hlong : lsnWidth < fromLsn.length) {p : LSN} (hp : p.length = lsnWidth)
    (h : number (fromLsn.take lsnWidth) < number p) : fromLsn < p := by
  have hwide : (fromLsn.take lsnWidth).length = p.length := by
    rw [List.length_take, hp]
    omega
  rw [← List.take_append_drop lsnWidth fromLsn]
  exact BigEndian.append_lt_of_lt hwide ((lt_iff_number_lt hwide).mpr h)

/-- The number of a position that is longer than an LSN, by its first ten bytes. -/
theorem number_take (hlong : lsnWidth < fromLsn.length) :
    number (fromLsn.take lsnWidth) * 256 ≤ number fromLsn := by
  have hv := BigEndian.value_append (fromLsn.take lsnWidth) (fromLsn.drop lsnWidth)
  rw [List.take_append_drop] at hv
  have hpow : 256 ^ 1 ≤ 256 ^ (fromLsn.drop lsnWidth).length := by
    refine Nat.pow_le_pow_right (by omega) ?_
    rw [List.length_drop]
    omega
  have hmul := Nat.mul_le_mul_left (number (fromLsn.take lsnWidth)) hpow
  unfold number at hmul ⊢
  omega

/-- A returning call on a walked state: the reported position is below the state's and nothing is
read, or the window up to it is. -/
theorem tail_reads (hC : LogLaws C view t) {now chunkSize : ℤ} {inspectEvery : Option Timedelta}
    {state opened : RunState} {rows : List Row} {window : Option DataFrame} {b : BatchResult}
    (hd : t.Describes state.spec) (hdone : state.dumpDone = true)
    (h : BatchRead C now t.schema t.table chunkSize inspectEvery (some state) w opened rows high window b w') :
    high.length = lsnWidth ∧ (high < state.lastLsn ∨ state.lastLsn ≤ high ∧
      number b.state.lastLsn = number high + 1 ∧ number high + 1 < 256 ^ lsnWidth ∧
      Carries t ((view w').window state.lastLsn high) b.frame) := by
  obtain ⟨w₁, ho⟩ : ∃ w₁, openRun C now t.schema t.table (some state) inspectEvery w = .ok opened w₁ := by
    cases h <;> exact ⟨_, by assumption⟩
  obtain ⟨hdo, hlsn, -, hwalked⟩ := openRun_carried hC hd ho
  rw [hdone] at hwalked
  have hread := (BatchRead.window hC hdo h).1
  cases h with
  | last _ walking => rw [hwalked] at walking; cases walking
  | chunk _ walking => rw [hwalked] at walking; cases walking
  | tail _ _ hw =>
    cases hw with
    | past hm hlt => exact ⟨hC.maxLsn_wide hm, Or.inl (hlsn ▸ hlt)⟩
    | read hm hle he hn =>
      have hinc := hn
      rw [hC.incrementLsn] at hinc
      obtain ⟨hnext, hlt⟩ := number_lt_of_advanced (ofExcept_ok.mp hinc).1
      obtain ⟨-, -, hcloses⟩ := hC.incrementLsn_ok hn
      refine ⟨hC.maxLsn_wide hm, Or.inr ⟨hlsn ▸ hle, hnext, hlt, ?_⟩⟩
      rw [← hlsn, ← segment_of_closes hcloses]
      exact hread.carries

/-- A position is accepted against the floor that is read. -/
theorem accepted {now : ℤ} {spec : TableSpec} {captureInstance : String} {state : RunState} {w₀ w₁ : σ}
    (inspected : C.inspect t.schema t.table w = .ok spec w₀)
    (captured : spec.captureInstance = some captureInstance)
    (retains : C.getMinLsn captureInstance w₀ = .ok floor w₁)
    (h : stateAtLsn C now t.schema t.table fromLsn true w = .ok state w₁) :
    floor ≤ fromLsn ∧ state = ⟨spec, fromLsn, .utc now, none, true⟩ := by
  obtain ⟨spec', ci', w₀', floor', hi', hci', hf', hle, hstate⟩ := stateAtLsn_ok.mp h
  obtain ⟨rfl, rfl⟩ := EStateM.Result.ok.inj (inspected.symm.trans hi')
  obtain rfl := Option.some.inj (captured.symm.trans hci')
  obtain ⟨rfl, -⟩ := EStateM.Result.ok.inj (retains.symm.trans hf')
  exact ⟨hle, hstate⟩

/-- **What is enough**: the width of an LSN, or a number no position that can be advanced
reaches. -/
theorem comparedAsNumber_of (hC : LogLaws C view t) (hfloor : floor.length = lsnWidth)
    (h : fromLsn.length = lsnWidth ∨ 256 ^ lsnWidth ≤ number fromLsn + 1) :
    ComparedAsNumber C view t fromLsn floor := by
  intro now spec ci state w w₀ w₁ hd hi hci hf hstate
  obtain ⟨hle, rfl⟩ := accepted hi hci hf hstate
  have hbound := number_lt floor hfloor
  refine ⟨?_, fun now' chunkSize inspectEvery w₂ opened rows high window b w₃ _ hr hnum => ?_⟩
  · rcases h with hwide | hlarge
    · exact (BigEndian.le_iff_value_le (hfloor.trans hwide.symm)).mp hle
    · omega
  have hdescribes : t.Describes (RunState.spec ⟨spec, fromLsn, .utc now, none, true⟩) := hd
  obtain ⟨hhigh, hcase⟩ := tail_reads hC hdescribes rfl hr
  rcases h with hwide | hlarge
  · have hord : fromLsn ≤ high := (BigEndian.le_iff_value_le (hwide.trans hhigh.symm)).mpr hnum
    rcases hcase with hlt | ⟨-, hnext, -, hcarry⟩
    · exact absurd hlt (not_lt.mpr hord)
    · refine ⟨hnext, ?_⟩
      have hfilter : (view w₃).window fromLsn high = (view w₃).changes.filter fun c =>
          number fromLsn ≤ number c.startLsn ∧ number c.startLsn ≤ number high := by
        refine List.filter_congr fun c hc => decide_eq_decide.mpr (and_congr ?_ ?_)
        · exact BigEndian.le_iff_value_le (hwide.trans ((view w₃).wide c hc).symm)
        · exact BigEndian.le_iff_value_le (((view w₃).wide c hc).trans hhigh.symm)
      exact hfilter ▸ hcarry
  · -- the reported position is the greatest there is, and cannot be advanced
    have hmax := number_lt high hhigh
    rcases hcase with hlt | ⟨-, -, hbelow, -⟩
    · exfalso
      rcases lt_trichotomy fromLsn.length lsnWidth with hshort | hwide | hlong
      · have := BigEndian.value_lt fromLsn
        have hpow : 256 ^ (fromLsn.length + 1) ≤ 256 ^ lsnWidth := Nat.pow_le_pow_right (by omega) hshort
        rw [pow_succ] at hpow
        unfold number at hlarge
        omega
      · exact absurd hlt (not_lt.mpr ((BigEndian.le_iff_value_le (hwide.trans hhigh.symm)).mpr hnum))
      · have htake := number_take hlong
        have hten : 256 ^ 1 ≤ 256 ^ lsnWidth := Nat.pow_le_pow_right (by omega) (by decide)
        exact absurd (lt_of_take_lt hlong hhigh (by omega)) (not_lt.mpr hlt.le)
    · omega

/-! ### Positions that are not -/

section memory

variable {range : Set ℤ} {m : Memory t range}

/-- The state a source in memory builds at a position. -/
def builtAt (t : Target) (fromLsn : LSN) : RunState := ⟨Memory.spec t, fromLsn, .utc 0, none, true⟩

theorem memory_inspect : (Memory.connector t range).inspect t.schema t.table m = .ok (Memory.spec t) m := by
  simp [Memory.connector, Memory.ask]

theorem memory_floor {captureInstance : String} :
    (Memory.connector t range).getMinLsn captureInstance m = .ok m.floor m := rfl

theorem memory_mark : (Memory.connector t range).getMaxLsn m = .ok m.mark m := rfl

theorem memory_events (h : m.floor ≤ fromLsn) {spec : TableSpec} :
    (Memory.connector t range).readEventLog spec fromLsn high m = .ok (m.events fromLsn high) m := by
  simp [Memory.connector, Memory.ask, h]

theorem memory_increment {next : LSN} (h : MSSQLConnector.incrementLsn high = .ok next) :
    (Memory.connector t range).incrementLsn high m = .ok next m := by
  simp [Memory.connector, Memory.ask, h]

theorem memory_accepts (h : m.floor ≤ fromLsn) :
    stateAtLsn (Memory.connector t range) 0 t.schema t.table fromLsn true m = .ok (builtAt t fromLsn) m :=
  stateAtLsn_ok.mpr ⟨Memory.spec t, _, m, m.floor, memory_inspect, rfl, memory_floor, h, rfl⟩

theorem memory_opens (h : m.floor ≤ fromLsn) :
    openRun (Memory.connector t range) 0 t.schema t.table (some (builtAt t fromLsn)) none m =
      .ok (builtAt t fromLsn) m := by
  simp only [openRun, refreshSpec, bind_ok, ofExcept_ok, pure_ok, checkTable_ok,
    requireCaptureInstance_ok, checkRetention_ok]
  exact ⟨(), m, ⟨rfl, rfl⟩, _, m, ⟨rfl, rfl⟩, _, m, ⟨rfl, rfl⟩, (), m, ⟨m.floor, memory_floor, h⟩, rfl, rfl⟩

/-- What an accepted position that is compared as a number comes to on a source in memory. -/
theorem ComparedAsNumber.memory
    (h : ComparedAsNumber (Memory.connector t range) Memory.source t fromLsn m.floor)
    (hle : m.floor ≤ fromLsn) : number m.floor ≤ number fromLsn ∧
      (number fromLsn ≤ number m.mark → fromLsn ≤ m.mark ∧
        ∀ next, MSSQLConnector.incrementLsn m.mark = .ok next →
          ∀ c ∈ m.source.window fromLsn m.mark, number fromLsn ≤ number c.startLsn) := by
  obtain ⟨hfloor, hreads⟩ := h 0 (Memory.spec t) _ _ m m m (Memory.spec_describes t) memory_inspect rfl
    memory_floor (memory_accepts hle)
  refine ⟨hfloor, fun hnum => ⟨not_lt.mp fun hlt => ?_, fun next hnext c hc => ?_⟩⟩
  · obtain ⟨hpast, -⟩ := hreads 0 1 none m _ _ _ _ _ _ (Grows.refl _)
      (.tail (memory_opens hle) rfl (.past memory_mark hlt)) hnum
    have hpast' : number fromLsn = number m.mark + 1 := hpast
    omega
  · have hbounds : fromLsn ≤ c.startLsn ∧ c.startLsn ≤ m.mark := by simpa using (List.mem_filter.mp hc).2
    obtain ⟨-, hrows⟩ := hreads 0 1 none m _ _ _ _ _ _ (Grows.refl _) (.tail (memory_opens hle) rfl
      (.read memory_mark (hbounds.1.trans hbounds.2) (memory_events hle) (memory_increment hnext))) hnum
    have hcarry := HasRows.rows (m.events_carries fromLsn m.mark)
    rw [HasRows.rows hrows] at hcarry
    have hmem : c.eventRow t.columns ∈ (m.source.window fromLsn m.mark).map (Change.eventRow t.columns) :=
      List.mem_map_of_mem hc
    obtain ⟨c', hc', hrow⟩ := List.mem_map.mp (hcarry ▸ hmem)
    have hlsn : c'.startLsn = c.startLsn := Cell.bytes.inj (List.cons.inj hrow).1
    rw [← hlsn]
    simpa using (of_decide_eq_true (List.mem_filter.mp hc').2).1

end memory

/-- A source that holds nothing. -/
def idle (floor mark : LSN) (hmark : mark.length = lsnWidth) : Items where
  changes := []
  mark := mark
  floor := floor
  clock := 0
  strict := .nil
  wide := by simp
  positive := by simp
  dated := by simp
  keyed := by simp
  mark_wide := hmark

/-- A source that holds one item, put in at a position. -/
def boltAt (floor mark lsn : LSN) (hmark : mark.length = lsnWidth) (hlsn : lsn.length = lsnWidth)
    (hpos : zeroBytes lsnWidth < lsn) : Items where
  changes := [{ itemChange 0 .insert 1 "bolt" with startLsn := lsn }]
  mark := mark
  floor := floor
  clock := 0
  strict := List.pairwise_singleton _ _
  wide := by simpa using hlsn
  positive := by simpa using hpos
  dated := by simp [itemChange]
  keyed := by simpa using ⟨1, by decide, rfl⟩
  mark_wide := hmark

theorem number_lsnAt {n : ℕ} (h : n < 256 ^ lsnWidth) : number (lsnAt n) = n := BigEndian.value_digits h

theorem length_lsnAt (n : ℕ) : (lsnAt n).length = lsnWidth := BigEndian.length_digits _ _

theorem number_zero : number (zeroBytes lsnWidth) = 0 := BigEndian.value_zeros _

/-- A shorter position stands above the LSN of its own number. -/
theorem lsnAt_lt_of_short (hshort : fromLsn.length < lsnWidth) (hpos : zeroBytes lsnWidth < fromLsn) :
    lsnAt (number fromLsn) < fromLsn := by
  obtain ⟨n, hn⟩ := Nat.exists_eq_add_of_lt hshort
  let filled : LSN := fromLsn ++ List.replicate (n + 1) 0
  have hwide : filled.length = lsnWidth := by
    rw [List.length_append, List.length_replicate]
    omega
  have hfilled : number filled = number fromLsn * 256 ^ (n + 1) := by
    rw [number, BigEndian.value_append, BigEndian.value_zeros, List.length_replicate, Nat.add_zero]
    rfl
  have hnonzero : 0 < number filled := by
    have hlt : zeroBytes lsnWidth < filled := BigEndian.lt_append_of_lt hpos
    rwa [lt_iff_number_lt (by rw [hwide]; rfl), number_zero] at hlt
  have hgrows : number fromLsn < number filled := by
    have hpow : 256 ^ 1 ≤ 256 ^ (n + 1) := Nat.pow_le_pow_right (by omega) (by omega)
    have hmul := Nat.mul_le_mul_left (number fromLsn) hpow
    rw [hfilled] at hnonzero ⊢
    have := Nat.pos_of_mul_pos_right hnonzero
    omega
  refine BigEndian.lt_of_lt_append_zeros (n := n + 1) (by rw [length_lsnAt]; omega) ?_
  show lsnAt (number fromLsn) < filled
  rw [lt_iff_number_lt (by rw [length_lsnAt, hwide]), number_lsnAt (hgrows.trans (number_lt _ hwide))]
  exact hgrows

/-- The items as a source in memory. -/
abbrev itemsSource : SourceConnector Items := Memory.connector items (Set.Icc 1 9)

/-- A shorter position that is accepted is not compared as a number. -/
theorem not_comparedAsNumber_short (hshort : fromLsn.length < lsnWidth)
    (hpos : zeroBytes lsnWidth < floor) (hle : floor ≤ fromLsn) :
    ¬ ComparedAsNumber itemsSource Memory.source items fromLsn floor := by
  intro h
  let m : Items := idle floor (lsnAt (number fromLsn)) (length_lsnAt _)
  have habove := lsnAt_lt_of_short hshort (hpos.trans_le hle)
  have hbound : number fromLsn < 256 ^ lsnWidth :=
    (BigEndian.value_lt fromLsn).trans_le (Nat.pow_le_pow_right (by omega) hshort.le)
  obtain ⟨-, hreads⟩ := ComparedAsNumber.memory (m := m) h hle
  exact absurd (hreads (number_lsnAt hbound).ge).1 (not_le.mpr habove)

/-- Nor is a longer one, unless its number is out of reach. -/
theorem not_comparedAsNumber_long (hlong : lsnWidth < fromLsn.length)
    (hreach : number fromLsn + 1 < 256 ^ lsnWidth) (hfloor : floor.length = lsnWidth)
    (hpos : zeroBytes lsnWidth < floor) (hle : floor ≤ fromLsn) :
    ¬ ComparedAsNumber itemsSource Memory.source items fromLsn floor := by
  intro h
  have htake := number_take hlong
  -- the first ten bytes are at or above the floor, which is not zero
  have hfirst : number floor ≤ number (fromLsn.take lsnWidth) :=
    not_lt.mp fun hlt => absurd (lt_of_take_lt hlong hfloor hlt) (not_lt.mpr hle)
  have hone : 0 < number floor := by
    rwa [lt_iff_number_lt (by rw [hfloor]; rfl), number_zero] at hpos
  -- a change that is one past them lies above the position in byte order, and below it in number
  let lsn : LSN := lsnAt (number (fromLsn.take lsnWidth) + 1)
  have hlsn : number lsn = number (fromLsn.take lsnWidth) + 1 := number_lsnAt (by omega)
  have hlsn_pos : zeroBytes lsnWidth < lsn := by
    rw [lt_iff_number_lt (by rw [length_lsnAt]; rfl), number_zero]
    omega
  let m : Items := boltAt floor (lsnAt (number fromLsn)) lsn (length_lsnAt _) (length_lsnAt _) hlsn_pos
  have hmark : number m.mark = number fromLsn := number_lsnAt (by omega)
  obtain ⟨next, hnext⟩ : ∃ next, MSSQLConnector.incrementLsn m.mark = .ok next := by
    have hs : BigEndian.succ lsnWidth m.mark = some (lsnAt (number m.mark + 1)) := 
      if_pos (by rw [← hmark] at hreach; exact hreach)
    exact ⟨_, MSSQLConnector.incrementLsn_ok.mpr ⟨m.mark_wide, hs⟩⟩
  obtain ⟨-, hreads⟩ := ComparedAsNumber.memory (m := m) h hle
  have hfirst_lt : number (fromLsn.take lsnWidth) < number lsn := by omega
  have hbelow : fromLsn ≤ lsn := (lt_of_take_lt hlong (length_lsnAt _) hfirst_lt).le
  have hlsn_le : lsn ≤ m.mark := by
    refine (BigEndian.le_iff_value_le (by rw [length_lsnAt, m.mark_wide])).mpr ?_
    show number lsn ≤ number m.mark
    omega
  have hwindow : { itemChange 0 .insert 1 "bolt" with startLsn := lsn } ∈ m.source.window fromLsn m.mark :=
    List.mem_filter.mpr ⟨List.mem_singleton_self _, by simpa using ⟨hbelow, hlsn_le⟩⟩
  have hnum : number fromLsn ≤ number lsn := (hreads hmark.ge).2 next hnext _ hwindow
  omega

/-- **When an accepted position is compared as a number**, over all sources whose floor it was
accepted against: when it has the width of an LSN, when no position that can be advanced reaches its
number, and when the floor refuses it. -/
theorem accepted_position_iff (fromLsn floor : LSN) (hfloor : floor.length = lsnWidth)
    (hpos : zeroBytes lsnWidth < floor) :
    (∀ (σ : Type) (C : SourceConnector σ) (view : σ → Source) (t : Target), LogLaws C view t →
      ComparedAsNumber C view t fromLsn floor) ↔
      fromLsn.length = lsnWidth ∨ 256 ^ lsnWidth ≤ number fromLsn + 1 ∨ fromLsn < floor := by
  constructor
  · intro h
    by_contra hnot
    rw [not_or, not_or, not_le, not_lt] at hnot
    obtain ⟨hwidth, hreach, hle⟩ := hnot
    have hitems := h Items itemsSource Memory.source items (Memory.logLaws items _)
    rcases lt_or_gt_of_ne hwidth with hshort | hlong
    · exact not_comparedAsNumber_short hshort hpos hle hitems
    · exact not_comparedAsNumber_long hlong hreach hfloor hpos hle hitems
  · rintro (hwide | hlarge | hrefused) σ C view t hC
    · exact comparedAsNumber_of hC hfloor (Or.inl hwide)
    · exact comparedAsNumber_of hC hfloor (Or.inr hlarge)
    · intro now spec ci state w w₀ w₁ hd hi hci hf hstate
      exact absurd hrefused (not_lt.mpr (accepted hi hci hf hstate).1)

/-- A position of the width of an LSN, against the floor of the stock. -/
theorem accepted_position_iff_four :
    (∀ (σ : Type) (C : SourceConnector σ) (view : σ → Source) (t : Target), LogLaws C view t →
      ComparedAsNumber C view t (lsnAt 4) (lsnAt 1)) ↔
      (lsnAt 4).length = lsnWidth ∨ 256 ^ lsnWidth ≤ number (lsnAt 4) + 1 ∨ lsnAt 4 < lsnAt 1 :=
  accepted_position_iff (lsnAt 4) (lsnAt 1) (by decide) (by decide)

/-- **A run that reads nothing**: the one byte of the number 1 is accepted against a floor of 1, and
the call on it finds nothing to read, although there are changes at 1 and 2 and the capture job is
at 4. -/
theorem accepted_position_reads_nothing :
    LogLaws itemsSource Memory.source items ∧
      stateAtLsn itemsSource 0 "dbo" "items" [1] true stock = .ok (builtAt items [1]) stock ∧
      dblog itemsSource 0 "dbo" "items" (some (builtAt items [1])) 1 none stock =
        .ok ⟨none, builtAt items [1]⟩ stock ∧
      ¬ ComparedAsNumber itemsSource Memory.source items [1] (lsnAt 1) := by
  refine ⟨Memory.logLaws items _, rfl, rfl, fun h => ?_⟩
  obtain ⟨-, hreads⟩ := ComparedAsNumber.memory (m := stock) h (by decide)
  exact absurd (hreads (by decide)).1 (by decide)

end PyDBLog.Runs.Widths
