import PyDBLog.Runs.Window
import PyDBLog.World.InMemory

/-! # Runs

A run is a sequence of calls on one table. A `Driver` says what happens between the calls, which of
the states a run has returned a call may be given, and what is asked of a call; `Run` is the
sequence, with the position it opened at, the world it got to, the states it returned (the last one
first) and the frames, in order. A call that raises may be tried again. -/

namespace PyDBLog.Runs.Calls

open PyDBLog.Model.Python PyDBLog.Model.Frame PyDBLog.Model.Types PyDBLog.Model.Connector
open PyDBLog.Model.DBLog PyDBLog.Model.Returns PyDBLog.Model.Worlds
open PyDBLog.World.Log PyDBLog.World.Promises PyDBLog.Runs.Window

variable {σ : Type}

/-- What a caller passes to a call, and the time at which it does. -/
structure Request where
  now : ℤ
  state : Option RunState
  chunkSize : ℤ
  inspectEvery : Option Timedelta

structure Driver (σ : Type) where
  connector : SourceConnector σ
  target : Target
  moves : σ → σ → Prop
  resumes : List RunState → RunState → Prop
  admits : Request → σ → Prop

/-- The state is the one the last returning call handed back. -/
def threads (known : List RunState) (state : RunState) : Prop := known.head? = some state

/-- The state is one of those the run has returned. -/
def fallsBack (known : List RunState) (state : RunState) : Prop := state ∈ known

namespace Driver

variable (d : Driver σ)

/-- What a call opens with. -/
def opens (req : Request) : Call σ RunState :=
  openRun d.connector req.now d.target.schema d.target.table req.state req.inspectEvery

def call (req : Request) : Call σ BatchResult :=
  dblog d.connector req.now d.target.schema d.target.table req.state req.chunkSize req.inspectEvery

/-- What a returning call has read. -/
abbrev Reads (req : Request) (w : σ) (opened : RunState) (rows : List Row) (high : LSN)
    (window : Option DataFrame) (b : BatchResult) (w' : σ) : Prop :=
  BatchRead d.connector req.now d.target.schema d.target.table req.chunkSize req.inspectEvery req.state w
    opened rows high window b w'

end Driver

/-- **Runs of a driver** that begin as `first` says. -/
inductive Run (d : Driver σ) (first : LSN → σ → List RunState → List DataFrame → Prop) :
    LSN → σ → List RunState → List DataFrame → Prop
  | begins {L w known frames} (h : first L w known frames) : Run d first L w known frames
  | idles {L w known frames w'} (run : Run d first L w known frames) (moved : d.moves w w') :
      Run d first L w' known frames
  | raises {L w known frames state req e w'} (run : Run d first L w known frames)
      (resumed : d.resumes known state) (given : req.state = some state)
      (raised : d.call req w = .error e w') : Run d first L w' known frames
  | returns {L w known frames state req b w'} (run : Run d first L w known frames)
      (resumed : d.resumes known state) (given : req.state = some state) (admitted : d.admits req w)
      (returned : d.call req w = .ok b w') :
      Run d first L w' (b.state :: known) (frames ++ b.frame.toList)

/-- A run opened on nothing, on a table the spec describes: its first returning call. -/
inductive Seeded (d : Driver σ) : LSN → σ → List RunState → List DataFrame → Prop
  | intro {req w opened w₁ b w'} (fresh : req.state = none) (admitted : d.admits req w)
      (opens : d.opens req w = .ok opened w₁) (describes : d.target.Describes opened.spec)
      (returned : d.call req w = .ok b w') :
      Seeded d opened.lastLsn w' [b.state] b.frame.toList

/-- A run built at a position the caller knows. -/
inductive Built (d : Driver σ) (dumpDone : Bool) :
    LSN → σ → List RunState → List DataFrame → Prop
  | intro {now fromLsn w state w'} (describes : d.target.Describes state.spec)
      (returned : stateAtLsn d.connector now d.target.schema d.target.table fromLsn dumpDone w
        = .ok state w') : Built d dumpDone fromLsn w' [state] []

section reads

variable {d : Driver σ} {req : Request} {w w' : σ} {b : BatchResult}

theorem Driver.call_ok : d.call req w = .ok b w' ↔ 1 ≤ req.chunkSize ∧
    ∃ opened rows high window, d.Reads req w opened rows high window b w' := dblog_ok

theorem Driver.Reads.opens {opened : RunState} {rows : List Row} {high : LSN}
    {window : Option DataFrame} (h : d.Reads req w opened rows high window b w') :
    ∃ w₁, d.opens req w = .ok opened w₁ := by
  cases h with
  | tail ho => exact ⟨_, ho⟩
  | last ho => exact ⟨_, ho⟩
  | chunk ho => exact ⟨_, ho⟩

/-- A call opens with one state. -/
theorem Driver.Reads.opened_eq {opened opened' : RunState} {rows : List Row} {high : LSN}
    {window : Option DataFrame} {w₁ : σ} (h : d.Reads req w opened rows high window b w')
    (ho : d.opens req w = .ok opened' w₁) : opened = opened' := by
  obtain ⟨w₂, ho'⟩ := Driver.Reads.opens h
  rw [ho] at ho'
  cases ho'
  rfl

/-- The first call of a seeded run, taken apart. -/
theorem Seeded.reads {L : LSN} {known : List RunState} {frames : List DataFrame}
    (h : Seeded d L w' known frames) : ∃ req w opened w₁ rows high window b, req.state = none ∧
      d.admits req w ∧ 1 ≤ req.chunkSize ∧ d.opens req w = .ok opened w₁ ∧
      d.target.Describes opened.spec ∧ d.Reads req w opened rows high window b w' ∧
      L = opened.lastLsn ∧ known = [b.state] ∧ frames = b.frame.toList := by
  obtain ⟨fresh, admitted, ho, hd, hr⟩ := h
  obtain ⟨hc, opened', rows, high, window, hreads⟩ := Driver.call_ok.mp hr
  obtain rfl := Driver.Reads.opened_eq hreads ho
  exact ⟨_, _, _, _, rows, high, window, _, fresh, admitted, hc, ho, hd, hreads, rfl, rfl, rfl⟩

/-- A call on a carried state, taken apart. -/
theorem Driver.carried {view : σ → Source} (hC : LogLaws d.connector view d.target) {state : RunState}
    (hd : d.target.Describes state.spec) (given : req.state = some state)
    (h : d.call req w = .ok b w') : ∃ opened w₁ rows high window, 1 ≤ req.chunkSize ∧
      d.opens req w = .ok opened w₁ ∧ d.Reads req w opened rows high window b w' ∧
      d.target.Describes opened.spec ∧ opened.lastLsn = state.lastLsn ∧
      opened.chunkKey = state.chunkKey ∧ opened.dumpDone = state.dumpDone := by
  obtain ⟨hc, opened, rows, high, window, hr⟩ := Driver.call_ok.mp h
  obtain ⟨w₁, ho⟩ := Driver.Reads.opens hr
  have ho' := ho
  rw [Driver.opens, given] at ho'
  exact ⟨opened, w₁, rows, high, window, hc, ho, hr, openRun_carried hC hd ho'⟩

end reads

/-! ### The world around a call -/

section world

variable {R : σ → σ → Prop} {d : Driver σ} {req : Request} {w w' : σ}

/-- A call moves the world as the primitives of its source do, returning or raising. -/
theorem Driver.moves_call (hR : Moving R d.connector) (req : Request) : Moves R (d.call req) :=
  hR.dblog _ _ _ _ _ _

theorem Driver.returned_moves (hR : Moving R d.connector) {b : BatchResult}
    (h : d.call req w = .ok b w') : R w w' := (Driver.moves_call hR req).ok h

theorem Driver.raised_moves (hR : Moving R d.connector) {e : PyError}
    (h : d.call req w = .error e w') : R w w' := (Driver.moves_call hR req).error h

end world

/-! ### A run on the items -/

open PyDBLog.Mssql.Connector PyDBLog.World.InMemory

/-- Calls on the source in memory, with any commit between them. -/
def itemsDriver (resumes : List RunState → RunState → Prop) : Driver Items where
  connector := Memory.connector items _
  target := items
  moves m m' := Source.Later m.source m'.source
  resumes := resumes
  admits req _ := 5 ≤ req.chunkSize

/-- A run that opens at a position. -/
def openAt (n : ℕ) : RunState := ⟨Memory.spec items, lsnAt n, .utc 0, none, false⟩

/-- A run whose walk of the items is over. -/
def walkedTo (n : ℕ) : RunState := ⟨Memory.spec items, lsnAt n, .utc 0, some 3, true⟩

/-- The rows of items as dump rows stamped at one instant. -/
def itemDumps (low : Datetime) (rows : List (ℤ × String)) : DataFrame where
  schema := [("start_lsn", .binary), ("seqval", .binary), ("operation", .int32),
    ("update_mask", .binary), ("commit_timestamp", .datetime .us)] ++ Memory.cellSchema items
  rows := rows.map fun (id, name) => [.bytes (zeroBytes lsnWidth), .bytes (zeroBytes lsnWidth),
    .int opDump, .bytes (zeroBytes 1), .datetime low, .int id, .str name]

/-- The deletes of items by one transaction. -/
def itemDeletes (n : ℕ) (rows : List (ℤ × String)) : DataFrame where
  schema := (itemDumps 0 []).schema
  rows := rows.map fun (id, name) => (itemChange n .delete id name).eventRow items.columns

def stockDumps : DataFrame := itemDumps 4 [(1, "bolt"), (2, "nut")]

def saleDeletes : DataFrame := itemDeletes 6 [(1, "bolt")]

/-- Opened on nothing, a run on the stock begins at its present. -/
theorem stock_opens (resumes : List RunState → RunState → Prop) :
    (itemsDriver resumes).opens ⟨0, none, 5, none⟩ stock =
      .ok (openAt 4) stock := rfl

/-- Its first call walks the table. -/
theorem stock_walk (resumes : List RunState → RunState → Prop) :
    (itemsDriver resumes).call ⟨0, none, 5, none⟩ stock = .ok ⟨some stockDumps, walkedTo 5⟩ stock := rfl

theorem stock_seeded (resumes : List RunState → RunState → Prop) : Seeded (itemsDriver resumes)
    (lsnAt 4) stock [walkedTo 5] [stockDumps] :=
  .intro rfl (show (5 : ℤ) ≤ 5 from le_rfl) (stock_opens resumes) (Memory.spec_describes items)
    (stock_walk resumes)

/-- The call after it reads the sale off the log. -/
theorem sold_tail (resumes : List RunState → RunState → Prop) :
    (itemsDriver resumes).call ⟨0, some (walkedTo 5), 5, none⟩ sold =
      .ok ⟨some saleDeletes, walkedTo 9⟩ sold := rfl

/-- The run of the two calls. -/
theorem sold_run (resumes : List RunState → RunState → Prop)
    (first : LSN → Items → List RunState → List DataFrame → Prop)
    (walk : first (lsnAt 4) stock [walkedTo 5] [stockDumps])
    (resumed : resumes [walkedTo 5] (walkedTo 5)) :
    Run (itemsDriver resumes) first (lsnAt 4) sold [walkedTo 9, walkedTo 5]
      [stockDumps, saleDeletes] := by
  have admitted : (itemsDriver resumes).admits ⟨0, some (walkedTo 5), 5, none⟩ sold :=
    show (5 : ℤ) ≤ 5 from le_rfl
  have walked : Run (itemsDriver resumes) first (lsnAt 4) sold [walkedTo 5]
      [stockDumps] := .idles (.begins walk) stock_later_sold
  exact .returns walked resumed rfl admitted (sold_tail resumes)

end PyDBLog.Runs.Calls
