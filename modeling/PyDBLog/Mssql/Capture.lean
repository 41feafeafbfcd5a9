import PyDBLog.Mssql.Connector
import Mathlib.Data.Set.Basic

/-! # The watermark barrier over SQL Server

`_capture_passed` reads one row of the capture job's session log. What the log tells of the
transactions the job has processed is stated row by row (`Accounts`), as the scans that made it have
it (`accounts_record`): a session that has ended has processed what was committed before it started,
consecutive empty scans what was committed by their end, and a session that is still running
nothing. The row that is read is the one that ended last, and where no session has ended it is one
that is still running. `capture_passed_sound_iff` says exactly when the answer is right. -/

namespace PyDBLog.Mssql.Capture

open PyDBLog.Model.Python PyDBLog.Model.Frame
open PyDBLog.Mssql.Connector

/-! ### The session log -/

/-- A row of `sys.dm_cdc_log_scan_sessions`: one session, or consecutive empty scans, which share
the row of the first with the end of the last. -/
structure ScanSession where
  sessionId : ℤ
  startTime : Datetime
  endTime : Option Datetime
  emptyScanCount : ℤ
  deriving DecidableEq

/-- The rows of sessions. The row with session 0 is an aggregate. -/
def sessions (log : List ScanSession) : List ScanSession := log.filter fun row => 0 < row.sessionId

/-- What the log tells of the transactions committed and processed, each by its commit time. -/
structure Accounts (log : List ScanSession) (committed processed : Set Datetime) : Prop where
  ended : ∀ row ∈ sessions log, row.endTime ≠ none → ∀ x ∈ committed, x < row.startTime → x ∈ processed
  caught_up : ∀ row ∈ sessions log, 0 < row.emptyScanCount → ∀ e ∈ row.endTime,
    ∀ x ∈ committed, x ≤ e → x ∈ processed

/-- One scan of the log by the capture job, its end null while it runs. -/
structure Scan where
  startTime : Datetime
  endTime : Option Datetime
  empty : Bool

/-- The row of a scan that shares none. -/
def Scan.row (scan : Scan) (sessionId : ℤ) : ScanSession :=
  ⟨sessionId, scan.startTime, scan.endTime, if scan.empty ∧ scan.endTime ≠ none then 1 else 0⟩

/-- The session log of a history of scans, both with the last one first: an empty scan after an
empty scan moves the end of its row. -/
def record : List Scan → List ScanSession
  | [] => []
  | scan :: earlier =>
    match record earlier with
    | [] => [scan.row 1]
    | row :: rows =>
      if scan.empty ∧ scan.endTime ≠ none ∧ 0 < row.emptyScanCount then
        { row with endTime := scan.endTime, emptyScanCount := row.emptyScanCount + 1 } :: rows
      else scan.row (row.sessionId + 1) :: row :: rows

/-- What the scans have processed: one that has ended what was committed before it started, and what
was committed by its end if it found nothing. -/
def Processes (scans : List Scan) (committed processed : Set Datetime) : Prop :=
  ∀ scan ∈ scans, ∀ e ∈ scan.endTime, (∀ x ∈ committed, x < scan.startTime → x ∈ processed) ∧
    (scan.empty = true → ∀ x ∈ committed, x ≤ e → x ∈ processed)

/-- What a row of the log tells. -/
structure RowAccounts (committed processed : Set Datetime) (row : ScanSession) : Prop where
  ended : row.endTime ≠ none → ∀ x ∈ committed, x < row.startTime → x ∈ processed
  caught_up : 0 < row.emptyScanCount → row.endTime ≠ none ∧
    ∀ e ∈ row.endTime, ∀ x ∈ committed, x ≤ e → x ∈ processed

theorem rowAccounts_row {scans : List Scan} {committed processed : Set Datetime} {scan : Scan}
    {sessionId : ℤ} (h : Processes scans committed processed) (hmem : scan ∈ scans) :
    RowAccounts committed processed (scan.row sessionId) := by
  refine ⟨fun hended => ?_, fun hcount => ?_⟩
  · obtain ⟨e, he⟩ := Option.ne_none_iff_exists'.mp hended
    exact (h scan hmem e he).1
  · by_cases hempty : scan.empty ∧ scan.endTime ≠ none
    · exact ⟨hempty.2, fun e he => (h scan hmem e he).2 hempty.1⟩
    · rw [Scan.row, if_neg hempty] at hcount
      exact absurd hcount (lt_irrefl 0)

theorem rowAccounts_record {committed processed : Set Datetime} : ∀ {scans : List Scan},
    Processes scans committed processed → ∀ row ∈ record scans, RowAccounts committed processed row
  | [], _ => by simp [record]
  | scan :: earlier, h => by
    have ih : ∀ row ∈ record earlier, RowAccounts committed processed row :=
      rowAccounts_record fun scan hscan => h scan (List.mem_cons_of_mem _ hscan)
    have hscan : ∀ sessionId, RowAccounts committed processed (scan.row sessionId) := fun _ =>
      rowAccounts_row h List.mem_cons_self
    rw [record]
    cases hrec : record earlier with
    | nil => simpa using hscan 1
    | cons row rows =>
      rw [hrec] at ih
      dsimp only
      split_ifs with hshare
      · -- the row is that of the first empty scan, and ends with this one
        obtain ⟨hempty, hended, hcount⟩ := hshare
        have hrow := ih row List.mem_cons_self
        rw [List.forall_mem_cons]
        refine ⟨⟨fun _ => hrow.ended (hrow.caught_up hcount).1, fun _ => ⟨hended, fun e he => ?_⟩⟩,
          fun row' h' => ih row' (List.mem_cons_of_mem _ h')⟩
        exact (h scan List.mem_cons_self e he).2 hempty
      · rw [List.forall_mem_cons]
        exact ⟨hscan _, ih⟩

/-- **The log of a history of scans accounts for them.** -/
theorem accounts_record {scans : List Scan} {committed processed : Set Datetime}
    (h : Processes scans committed processed) : Accounts (record scans) committed processed where
  ended row hrow := (rowAccounts_record h row (List.mem_filter.mp hrow).1).ended
  caught_up row hrow hcount := ((rowAccounts_record h row (List.mem_filter.mp hrow).1).caught_up hcount).2

/-! ### The query -/

/-- `ORDER BY end_time DESC`: a null end comes after every other. -/
def EndsBefore (row row' : ScanSession) : Prop := ∀ e ∈ row.endTime, ∃ e' ∈ row'.endTime, e ≤ e'

/-- The `CASE` of the query. No comparison with null is true. -/
def passedCase (mark : Datetime) (row : ScanSession) : ℤ :=
  if mark < row.startTime ∨ 0 < row.emptyScanCount ∧ ∃ e ∈ row.endTime, mark < e then 1 else 0

/-- What the query can answer: nothing where there is no session, and else the case of a row that no
other row ends after. -/
def Answers (log : List ScanSession) (mark : Datetime) (rows : List Row) : Prop :=
  (sessions log = [] ∧ rows = []) ∨
    ∃ row ∈ sessions log, (∀ row' ∈ sessions log, EndsBefore row' row) ∧
      rows = [[.int (passedCase mark row)]]

/-- The answer is right: whatever a connector over this log was answered, if `_capture_passed` says
True everything committed by the mark has been processed. -/
def Sound (log : List ScanSession) (mark : Datetime) : Prop :=
  ∀ {σ : Type} (conn : MSSQLConnector σ) (w w' : σ) (committed processed : Set Datetime),
    Accounts log committed processed →
    (∀ result w₁,
      conn.execute MSSQLConnector.capturePassedQuery [.datetime mark, .datetime mark] w = .ok result w₁ →
        Answers log mark result.rows) →
    conn.capturePassed mark w = .ok true w' → ∀ x ∈ committed, x ≤ mark → x ∈ processed

/-- Some session has ended, or none has started after the mark. -/
def Reliable (log : List ScanSession) (mark : Datetime) : Prop :=
  (∃ row ∈ sessions log, row.endTime ≠ none) ∨ ∀ row ∈ sessions log, row.startTime ≤ mark

/-! ### What the answer is worth -/

variable {σ : Type} {conn : MSSQLConnector σ} {log : List ScanSession} {mark : Datetime} {w w' : σ}

/-- True is the case of a row that was answered, and is the case that holds. -/
theorem capturePassed_true (h : conn.capturePassed mark w = .ok true w') : ∃ result row rest,
    conn.execute MSSQLConnector.capturePassedQuery [.datetime mark, .datetime mark] w = .ok result w' ∧
      result.rows = row :: rest ∧ row.headD .null ≠ .int 0 := by
  simp only [MSSQLConnector.capturePassed, bind_ok] at h
  obtain ⟨result, w₁, hx, h⟩ := h
  cases hrows : result.rows with
  | nil =>
    have hnone : firstCell result = .null := by rw [firstCell, hrows]; rfl
    rw [hnone] at h
    exact absurd (pure_ok.mp h).1 (by decide)
  | cons row rest =>
    have hcell : firstCell result = row.headD .null := by rw [firstCell, hrows]; rfl
    obtain ⟨htrue, rfl⟩ := pure_ok.mp h
    refine ⟨result, row, rest, hx, hrows, fun hzero => ?_⟩
    rw [hcell, hzero] at htrue
    exact absurd htrue (by decide)

theorem passedCase_ne_zero {row : ScanSession} (h : passedCase mark row ≠ 0) :
    mark < row.startTime ∨ 0 < row.emptyScanCount ∧ ∃ e ∈ row.endTime, mark < e := by
  unfold passedCase at h
  split_ifs at h with hcase
  · exact hcase
  · exact absurd rfl h

/-- A row that ended last has not ended only where none has. -/
theorem endTime_ne_none {row : ScanSession} (hmax : ∀ row' ∈ sessions log, EndsBefore row' row)
    (h : ∃ row' ∈ sessions log, row'.endTime ≠ none) : row.endTime ≠ none := by
  obtain ⟨row', hmem, hne⟩ := h
  obtain ⟨e, he⟩ := Option.ne_none_iff_exists'.mp hne
  obtain ⟨e', he', -⟩ := hmax row' hmem e he
  rw [Option.mem_def.mp he']
  simp

/-- The row of a True answer accounts for the mark, if it has ended. -/
theorem processed_of_ended {row : ScanSession} {committed processed : Set Datetime}
    (hlog : Accounts log committed processed) (hrow : row ∈ sessions log) (hended : row.endTime ≠ none)
    (hcase : mark < row.startTime ∨ 0 < row.emptyScanCount ∧ ∃ e ∈ row.endTime, mark < e) :
    ∀ x ∈ committed, x ≤ mark → x ∈ processed := by
  intro x hx hle
  rcases hcase with hstart | ⟨hempty, e, he, hlt⟩
  · exact hlog.ended row hrow hended x hx (hle.trans_lt hstart)
  · exact hlog.caught_up row hrow hempty e he x hx (hle.trans hlt.le)

theorem sound_of_reliable (h : Reliable log mark) : Sound log mark := by
  intro σ conn w w' committed processed hlog hanswers hpassed
  obtain ⟨result, row, rest, hx, hrows, hcell⟩ := capturePassed_true hpassed
  rcases hanswers result w' hx with ⟨-, hnil⟩ | ⟨session, hmem, hmax, hrow⟩
  · rw [hnil] at hrows; cases hrows
  rw [hrow] at hrows
  obtain ⟨rfl, -⟩ := List.cons.inj hrows
  have hcase := passedCase_ne_zero fun h => hcell (congrArg Cell.int h)
  rcases h with hended | hstarted
  · exact processed_of_ended hlog hmem (endTime_ne_none hmax hended) hcase
  · -- no session has started after the mark, so an empty scan has ended after it
    rcases hcase with hstart | ⟨hempty, e, he, hlt⟩
    · exact absurd (hstarted session hmem) (not_le.mpr hstart)
    · refine processed_of_ended hlog hmem ?_ (Or.inr ⟨hempty, e, he, hlt⟩)
      rw [Option.mem_def.mp he]
      simp

/-- A driver that answers the case of one row. -/
def answering (row : ScanSession) : MSSQLConnector Unit := serverOf fun _ params =>
  match params with
  | [.datetime mark, _] => return answer [[.int (passedCase mark row)]]
  | _ => return answer []

/-- Where only running sessions are left, one that started after the mark is answered for what it
may not have read. -/
theorem not_sound_of_running {row : ScanSession} (hrow : row ∈ sessions log) (hstart : mark < row.startTime)
    (hnone : ∀ row' ∈ sessions log, row'.endTime = none) : ¬ Sound log mark := by
  intro h
  have hlog : Accounts log {mark} ∅ := by
    refine ⟨fun row' hrow' hne => absurd (hnone row' hrow') hne, fun row' hrow' _ e he => ?_⟩
    rw [hnone row' hrow'] at he
    cases he
  have hcase : passedCase mark row = 1 := if_pos (Or.inl hstart)
  refine h (answering row) () () {mark} ∅ hlog (fun result w₁ hx => ?_) ?_ mark rfl le_rfl
  · obtain ⟨rfl, -⟩ := pure_ok.mp hx
    refine Or.inr ⟨row, hrow, fun row' hrow' e he => ?_, rfl⟩
    rw [hnone row' hrow'] at he
    cases he
  · simp only [MSSQLConnector.capturePassed, bind_ok]
    refine ⟨answer [[.int (passedCase mark row)]], (), rfl, pure_ok.mpr ⟨?_, rfl⟩⟩
    rw [hcase]
    rfl

/-- **The barrier is right exactly where some session has ended or none has started after the
mark.** -/
theorem capture_passed_sound_iff (log : List ScanSession) (mark : Datetime) :
    Sound log mark ↔ Reliable log mark := by
  refine ⟨fun h => ?_, sound_of_reliable⟩
  by_contra hnot
  simp only [Reliable, not_or, not_exists, not_and, not_not, not_forall, not_le] at hnot
  obtain ⟨hnone, row, hrow, hstart⟩ := hnot
  exact not_sound_of_running hrow hstart hnone h

/-- **After a restart** the first scan is running, and started after the mark. -/
theorem capture_passed_running : ¬ Sound (record [⟨10, none, false⟩]) 5 := by
  have hrow : (⟨1, 10, none, 0⟩ : ScanSession) ∈ sessions (record [⟨10, none, false⟩]) := by decide
  exact not_sound_of_running hrow (by decide) (by decide)

/-! ### The barrier -/

theorem awaitLoop_true {deadline : ℤ} : ∀ {polls : ℕ} {w w' : σ},
    conn.awaitLoop mark deadline polls w = .ok true w' →
      ∃ w₁, conn.capturePassed mark w₁ = .ok true w'
  | 0, _, _, h => absurd (pure_ok.mp h).1 (by decide)
  | polls + 1, w, w', h => by
    rw [MSSQLConnector.awaitLoop, bind_ok] at h
    obtain ⟨time, w₁, -, h⟩ := h
    split_ifs at h
    · obtain ⟨passed, w₂, hpassed, h⟩ := bind_ok.mp h
      cases passed with
      | true =>
        obtain ⟨-, rfl⟩ := pure_ok.mp h
        exact ⟨w₁, hpassed⟩
      | false =>
        obtain ⟨_, w₃, -, h⟩ := bind_ok.mp h
        exact awaitLoop_true h
    · exact absurd (pure_ok.mp h).1 (by decide)

/-- A barrier that returns has been answered True, last of all. -/
theorem awaitWatermark_ok (h : conn.awaitWatermark mark w = .ok () w') :
    ∃ w₁, conn.capturePassed mark w₁ = .ok true w' := by
  simp only [MSSQLConnector.awaitWatermark, bind_ok] at h
  obtain ⟨started, w₁, -, passed, w₂, hloop, h⟩ := h
  cases passed with
  | true =>
    obtain ⟨-, rfl⟩ := pure_ok.mp h
    exact awaitLoop_true hloop
  | false => exact absurd h (by simp [throw_ok])

/-- **Where every log it can see is reliable the barrier holds**: when it returns, the capture job
had processed everything committed by the mark at the instant of the last answer. -/
theorem awaitWatermark_sound {log : σ → List ScanSession} {committed processed : σ → Set Datetime}
    (hlog : ∀ w, Accounts (log w) (committed w) (processed w))
    (hanswers : ∀ w result w₁,
      conn.execute MSSQLConnector.capturePassedQuery [.datetime mark, .datetime mark] w = .ok result w₁ →
        Answers (log w) mark result.rows)
    (hreliable : ∀ w, Reliable (log w) mark) (h : conn.awaitWatermark mark w = .ok () w') :
    ∃ w₁, ∀ x ∈ committed w₁, x ≤ mark → x ∈ processed w₁ := by
  obtain ⟨w₁, hpassed⟩ := awaitWatermark_ok h
  exact ⟨w₁, sound_of_reliable (hreliable w₁) conn w₁ w' _ _ (hlog w₁) (hanswers w₁) hpassed⟩

end PyDBLog.Mssql.Capture
