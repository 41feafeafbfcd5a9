import PyDBLog.Model.Returns
import PyDBLog.Mssql.Connector

/-! # Waiting for the capture job

`await_watermark()` asks whether the capture job has passed the mark, sleeps and asks again, until
the process clock reaches its deadline. The loop is `Polls`, as it stands in the source; where the
clock goes on and a sleep lasts, `maxPolls` is no bound of its own (`awaitLoop_polls`). So a wait
ends, after a bounded number of questions: it returns when one asked before the deadline is answered
yes, and gives up no earlier than the deadline (`await_polls`). -/

namespace PyDBLog.Mssql.Polling

open PyDBLog.Model.Python PyDBLog.Model.Connector PyDBLog.Model.Returns
open PyDBLog.Mssql.Connector PyDBLog.Mssql.Connector.MSSQLConnector

variable {σ : Type} {conn : MSSQLConnector σ} {now : σ → ℤ} {mark : Datetime} {deadline : ℤ} {w w' : σ}

/-- The process clock: what is read lies between the call and its return, asking the server does not
turn it back, and a sleep lasts at least as long as it was asked to. -/
structure Ticks (now : σ → ℤ) (conn : MSSQLConnector σ) : Prop where
  monotonic {w w' time} : conn.monotonic w = .ok time w' → now w ≤ time ∧ time ≤ now w'
  execute {text params w w' result} : conn.execute text params w = .ok result w' → now w ≤ now w'
  sleep {time w w'} : conn.sleep time w = .ok () w' → now w + time ≤ now w'

/-- **The loop of the source**: how often it asked, from which world, and how it ended. -/
inductive Polls (conn : MSSQLConnector σ) (mark : Datetime) (deadline : ℤ) :
    ℕ → σ → EStateM.Result PyError σ Bool → Prop
  | unclocked {w e w'} (raised : conn.monotonic w = .error e w') :
      Polls conn mark deadline 0 w (.error e w')
  | late {w time w'} (read : conn.monotonic w = .ok time w') (past : deadline ≤ time) :
      Polls conn mark deadline 0 w (.ok false w')
  | raises {w time w₁ e w'} (read : conn.monotonic w = .ok time w₁) (early : time < deadline)
      (raised : conn.capturePassed mark w₁ = .error e w') : Polls conn mark deadline 1 w (.error e w')
  | passes {w time w₁ w'} (read : conn.monotonic w = .ok time w₁) (early : time < deadline)
      (answered : conn.capturePassed mark w₁ = .ok true w') : Polls conn mark deadline 1 w (.ok true w')
  | woken {w time w₁ w₂ e w'} (read : conn.monotonic w = .ok time w₁) (early : time < deadline)
      (answered : conn.capturePassed mark w₁ = .ok false w₂)
        (raised : conn.sleep conn.watermarkPoll w₂ = .error e w') :
      Polls conn mark deadline 1 w (.error e w')
  | again {w time w₁ w₂ w₃ n r} (read : conn.monotonic w = .ok time w₁) (early : time < deadline)
      (answered : conn.capturePassed mark w₁ = .ok false w₂)
        (slept : conn.sleep conn.watermarkPoll w₂ = .ok () w₃)
      (rest : Polls conn mark deadline n w₃ r) : Polls conn mark deadline (n + 1) w r

theorem Ticks.capturePassed (h : Ticks now conn) {passed : Bool}
    (hp : conn.capturePassed mark w = .ok passed w') : now w ≤ now w' := by
  simp only [MSSQLConnector.capturePassed, bind_ok] at hp
  obtain ⟨result, w₁, hx, hp⟩ := hp
  obtain ⟨-, rfl⟩ := pure_ok.mp hp
  exact h.execute hx

/-- From one reading of the clock to the next question lies a sleep. -/
theorem Ticks.round (h : Ticks now conn) {time : ℤ} {w₁ w₂ w₃ : σ}
    (read : conn.monotonic w = .ok time w₁) (answered : conn.capturePassed mark w₁ = .ok false w₂)
    (slept : conn.sleep conn.watermarkPoll w₂ = .ok () w₃) : time + conn.watermarkPoll ≤ now w₃ :=
  calc time + conn.watermarkPoll ≤ now w₁ + conn.watermarkPoll := by linarith [(h.monotonic read).2]
    _ ≤ now w₂ + conn.watermarkPoll := by linarith [h.capturePassed answered]
    _ ≤ now w₃ := h.sleep slept

section bind

variable {α β : Type} {x : Call σ α} {f : α → Call σ β}

theorem bind_of_ok {a : α} (hx : x w = .ok a w') : (x >>= f) w = f a w' := by
  show EStateM.bind x f w = _
  rw [EStateM.bind, hx]

theorem bind_of_error {e : PyError} (hx : x w = .error e w') : (x >>= f) w = .error e w' := by
  show EStateM.bind x f w = _
  rw [EStateM.bind, hx]

end bind

/-- One round of the loop, and the rest of it where the round comes to that. -/
theorem awaitLoop_round {rounds : ℕ} (rest : ∀ time w₁ w₂ w₃, conn.monotonic w = .ok time w₁ →
    time < deadline →
      conn.capturePassed mark w₁ = .ok false w₂ → conn.sleep conn.watermarkPoll w₂ = .ok () w₃ →
        ∃ n, Polls conn mark deadline n w₃ (conn.awaitLoop mark deadline rounds w₃)) :
    ∃ n, Polls conn mark deadline n w (conn.awaitLoop mark deadline (rounds + 1) w) := by
  rw [awaitLoop]
  cases read : conn.monotonic w with
  | error e w₁ => exact ⟨0, bind_of_error read ▸ .unclocked read⟩
  | ok time w₁ =>
    rw [bind_of_ok read]
    rcases lt_or_ge time deadline with early | past
    · rw [if_pos early]
      cases answered : conn.capturePassed mark w₁ with
      | error e w₂ => exact ⟨1, bind_of_error answered ▸ .raises read early answered⟩
      | ok passed w₂ =>
        rw [bind_of_ok answered]
        cases passed with
        | true => exact ⟨1, .passes read early answered⟩
        | false =>
          show ∃ n, Polls conn mark deadline n w
            ((conn.sleep conn.watermarkPoll >>= fun _ => conn.awaitLoop mark deadline rounds) w₂)
          cases slept : conn.sleep conn.watermarkPoll w₂ with
          | error e w₃ => exact ⟨1, bind_of_error slept ▸ .woken read early answered slept⟩
          | ok _ w₃ =>
            rw [bind_of_ok slept]
            obtain ⟨n, hrest⟩ := rest _ _ _ _ read early answered slept
            exact ⟨n + 1, .again read early answered slept hrest⟩
    · rw [if_neg (not_lt.mpr past)]
      exact ⟨0, .late read past⟩

/-- **With enough rounds the bounded loop is the loop.** -/
theorem awaitLoop_polls (h : Ticks now conn) (rounds : ℕ) :
    ∀ w, deadline ≤ now w + rounds * conn.watermarkPoll →
      ∃ n, Polls conn mark deadline n w (conn.awaitLoop mark deadline (rounds + 1) w) := by
  induction rounds with
  | zero =>
    intro w hdeadline
    refine awaitLoop_round fun time w₁ w₂ w₃ read early _ _ => ?_
    -- the deadline has passed when the clock is read
    have := (h.monotonic read).1
    simp only [Nat.cast_zero, zero_mul, add_zero] at hdeadline
    omega
  | succ rounds ih =>
    intro w hdeadline
    refine awaitLoop_round fun time w₁ w₂ w₃ read early answered slept => ih w₃ ?_
    have hread := (h.monotonic read).1
    have hround := h.round read answered slept
    push_cast at hdeadline
    linarith

/-! ### How a wait ends -/

variable {n : ℕ} {r : EStateM.Result PyError σ Bool}

/-- Between two questions lies a sleep, and none is asked past the deadline. -/
theorem Polls.bounded (h : Ticks now conn) (polls : Polls conn mark deadline n w r) :
    n = 0 ∨ now w + (n - 1) * conn.watermarkPoll < deadline := by
  have one : ∀ {w time w₁}, conn.monotonic w = .ok time w₁ → time < deadline →
      now w + ((1 : ℕ) - 1) * conn.watermarkPoll < deadline := by
    intro w time w₁ read early
    have := (h.monotonic read).1
    simp only [Nat.cast_one, sub_self, zero_mul, add_zero]
    omega
  induction polls with
  | unclocked raised => exact Or.inl rfl
  | late read past => exact Or.inl rfl
  | raises read early raised => exact Or.inr (one read early)
  | passes read early answered => exact Or.inr (one read early)
  | woken read early answered raised => exact Or.inr (one read early)
  | @again w time w₁ w₂ w₃ n r read early answered slept rest ih =>
    refine Or.inr ?_
    rcases ih with rfl | ih
    · exact one read early
    · have hread := (h.monotonic read).1
      have hround := h.round read answered slept
      push_cast
      linarith

/-- A loop that gives up has read a clock past the deadline. -/
theorem Polls.gives_up (h : Ticks now conn) (polls : Polls conn mark deadline n w r)
    (hr : r = .ok false w') :
    deadline ≤ now w' := by
  induction polls with
  | unclocked raised => cases hr
  | late read past =>
    cases hr
    exact past.trans (h.monotonic read).2
  | raises read early raised => cases hr
  | passes read early answered => cases hr
  | woken read early answered raised => cases hr
  | again read early answered slept rest ih => exact ih hr

/-- The wait is long enough for the loop. -/
def Enough (conn : MSSQLConnector σ) : Prop :=
  ∃ rounds : ℕ, conn.maxPolls = rounds + 1 ∧ conn.watermarkTimeout ≤ rounds * conn.watermarkPoll

/-- **A wait ends as the loop of the source does**, with at most one question for each time the poll
interval fits in the timeout, and one more: it returns if and only if one asked in time is answered
yes, raises `TimeoutError` no earlier than the timeout if none is, and passes on what its driver
raises. -/
theorem await_polls (h : Ticks now conn) (enough : Enough conn) {started : ℤ} {w₁ : σ}
    (starts : conn.monotonic w = .ok started w₁) :
    ∃ n r, Polls conn mark (started + conn.watermarkTimeout) n w₁ r ∧
      (n = 0 ∨ (n - 1) * conn.watermarkPoll < conn.watermarkTimeout) ∧
      (∀ w', conn.awaitWatermark mark w = .ok () w' ↔ r = .ok true w') ∧
      (∀ w', r = .ok false w' →
        (∃ message, conn.awaitWatermark mark w = .error (.timeoutError message) w') ∧
        started + conn.watermarkTimeout ≤ now w') ∧
      ∀ e w', r = .error e w' → conn.awaitWatermark mark w = .error e w' := by
  obtain ⟨rounds, hrounds, hlong⟩ := enough
  have hstarted := (h.monotonic starts).2
  have hloop : ∃ n, Polls conn mark (started + conn.watermarkTimeout) n w₁ _ :=
    awaitLoop_polls h rounds w₁ (by linarith)
  rw [← hrounds] at hloop
  obtain ⟨n, polls⟩ := hloop
  obtain ⟨message, hawait⟩ : ∃ message, conn.awaitWatermark mark w =
      (conn.awaitLoop mark (started + conn.watermarkTimeout) conn.maxPolls >>= fun passed =>
        if passed then pure () else throw (.timeoutError message)) w₁ :=
    ⟨_, bind_of_ok starts⟩
  refine ⟨n, _, polls, ?_, fun w' => ?_, fun w' hr => ?_, fun e w' hr => ?_⟩
  · refine (polls.bounded h).imp id fun hlt => ?_
    linarith
  · rw [hawait]
    constructor
    · intro hreturns
      obtain ⟨passed, w₂, hpassed, hrest⟩ := bind_ok.mp hreturns
      cases passed with
      | true =>
        obtain ⟨-, rfl⟩ := pure_ok.mp hrest
        exact hpassed
      | false => exact absurd hrest (by simp [throw_ok])
    · exact fun hr => bind_of_ok hr
  · exact ⟨⟨message, hawait.trans (bind_of_ok hr)⟩, polls.gives_up h hr⟩
  · exact hawait.trans (bind_of_error hr)

/-! ### A capture job that passes the mark at 2 -/

/-- The world is the process clock. -/
def passingAtTwo : MSSQLConnector ℤ :=
  { serverOf (fun _ _ time => .ok (answer [[.int (if 2 ≤ time then 1 else 0)]]) time) with
    monotonic := fun time => .ok time time
    sleep := fun duration time => .ok () (time + duration)
    watermarkTimeout := 3
    watermarkPoll := 1
    maxPolls := 4 }

theorem passingAtTwo_ticks : Ticks id passingAtTwo where
  monotonic hread := by
    obtain ⟨rfl, rfl⟩ := EStateM.Result.ok.inj hread
    exact ⟨le_rfl, le_rfl⟩
  execute hx := (EStateM.Result.ok.inj hx).2.le
  sleep hslept := (EStateM.Result.ok.inj hslept).2.le

/-- Asked at 0, at 1 and at 2. -/
theorem await_polls_passingAtTwo : ∃ n r, Polls passingAtTwo 0 (0 + 3) n 0 r ∧
    (n = 0 ∨ ((n : ℤ) - 1) * 1 < 3) ∧
    (∀ w', passingAtTwo.awaitWatermark 0 0 = .ok () w' ↔ r = .ok true w') ∧
    (∀ w', r = .ok false w' →
      (∃ message, passingAtTwo.awaitWatermark 0 0 = .error (.timeoutError message) w') ∧
      0 + 3 ≤ w') ∧
    ∀ e w', r = .error e w' → passingAtTwo.awaitWatermark 0 0 = .error e w' :=
  await_polls passingAtTwo_ticks ⟨3, rfl, by decide⟩ rfl

example : passingAtTwo.awaitWatermark 0 0 = .ok () 2 := rfl

end PyDBLog.Mssql.Polling
