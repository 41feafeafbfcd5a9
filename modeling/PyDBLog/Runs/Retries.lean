import PyDBLog.Model.Raises
import PyDBLog.Mssql.Driver
import PyDBLog.Runs.Recovery

/-! # The loop does not spin

The loop of the README goes on with no state when it catches a refusal, without having written or
saved anything, and that ends because the refusals it catches are refusals of a state: a call that
was given none raises neither of them (`caught_state`). So between two that it catches the loop has
received a batch or been started anew (`refusals_are_few`). -/

namespace PyDBLog.Runs.Retries

open PyDBLog.Model.Python PyDBLog.Model.Frame PyDBLog.Model.Types PyDBLog.Model.Connector
open PyDBLog.Model.DBLog PyDBLog.Model.Raises
open PyDBLog.Mssql.Connector PyDBLog.Mssql.Driver
open PyDBLog.Runs.Calls PyDBLog.Runs.Reconstructs PyDBLog.Runs.Recovery

variable {σ : Type}

/-- Not one the loop catches. -/
abbrev Uncaught (e : PyError) : Prop := caught e = false

theorem keyAfter_uncaught (rows : DataFrame) (spec : TableSpec) :
    OnlyPure Uncaught (keyAfter rows spec) := by
  unfold keyAfter
  refine OnlyPure.bind ?_ fun leading => OnlyPure.bind ?_ fun keys => .ite (.error rfl) ?_
  · cases spec.pkColumns.head? with
    | none => exact .error rfl
    | some leading => exact .ok _
  · unfold DataFrame.column
    exact .ite (.ok _) (.error rfl)
  · split
    · exact .error rfl
    · exact .ok _
    · exact .error rfl

theorem supersede_uncaught (chunk : DataFrame) (window : Option DataFrame) (spec : TableSpec) :
    OnlyPure Uncaught (supersede chunk window spec) := by
  have hselect : ∀ (df : DataFrame) names, OnlyPure Uncaught (df.select names) := fun df names => by
    unfold DataFrame.select
    exact .ite (.error rfl) (.ite (.error rfl) (.ok _))
  have hsemi : ∀ (left right : DataFrame) on, OnlyPure Uncaught (left.semiJoin right on) :=
    fun left right on => by
      unfold DataFrame.semiJoin
      exact .ite (.error rfl) (.ok _)
  have hanti : ∀ (left right : DataFrame) on, OnlyPure Uncaught (left.antiJoin right on) :=
    fun left right on => by
      unfold DataFrame.antiJoin
      exact .ite (.error rfl) (.ok _)
  unfold supersede
  split
  · exact .ok _
  · refine .ite (.ok _) ((hselect _ _).bind fun selected => (hselect _ _).bind fun keys => ?_)
    exact (hsemi _ _ _).bind fun overlap => .ite (.ok _) (hanti _ _ _)

/-- **What the loop catches is a refusal of the state it passed.** -/
theorem caught_state {schema table : String} {chunkSize : ℤ} {state : Option RunState} {e : PyError}
    (refusal : Refusal schema table chunkSize state e) (handled : caught e = true) :
    ∃ st, state = some st := by
  have no : ∀ {x : PyError}, caught x = false → caught x = true → ∃ st, state = some st :=
    fun hx hx' => absurd hx' (by rw [hx]; simp)
  cases refusal with
  | size small => exact no rfl handled
  | table given other => exact ⟨_, given⟩
  | uncaptured none => exact no rfl handled
  | drifted given moved => exact ⟨_, given⟩
  | expired given carried below => exact ⟨_, given⟩
  | page something refused => exact no (keyAfter_uncaught _ _ _ refused) handled
  | join refused => exact no (supersede_uncaught _ _ _ _ refused) handled
  | stack other => exact no rfl handled

/-- Executions of the loop from `c₀`: how often the process was started, how many batches came back
and how many refusals were caught, on the way to a configuration. -/
inductive Execution (d : Driver σ) (c₀ : Config σ) : ℕ → ℕ → ℕ → Config σ → Prop
  | begins : Execution d c₀ 0 0 0 c₀
  | starts {k n r c} (execution : Execution d c₀ k n r c) (phase : c.phase = .down) :
      Execution d c₀ (k + 1) n r { c with phase := .looping c.saved }
  | receives {k n r c c' o b} (execution : Execution d c₀ k n r c) (step : Step d c c')
      (asked : ∃ held, c.phase = .looping held) (answered : c'.phase = .received o b) :
      Execution d c₀ k (n + 1) r c'
  | catches {k n r c held req e w'} (execution : Execution d c₀ k n r c)
      (phase : c.phase = .looping held) (given : req.state = held.map Prod.snd)
        (raised : d.call req c.world = .error e w')
      (handled : caught e = true) :
      Execution d c₀ k n (r + 1) { c with world := w', phase := .looping none }
  | moves {k n r c w'} (execution : Execution d c₀ k n r c) (moved : d.moves c.world w') :
      Execution d c₀ k n r { c with world := w' }
  | consumes {k n r c c' o b} (execution : Execution d c₀ k n r c) (step : Step d c c')
      (batch : c.phase = .received o b ∨ c.phase = .written o b ∨ c.phase = .stored o b) :
      Execution d c₀ k n r c'
  | stops {k n r c c'} (execution : Execution d c₀ k n r c) (step : Step d c c')
      (down : c'.phase = .down) : Execution d c₀ k n r c'

section

variable {d : Driver σ} {c₀ c : Config σ} {k n r : ℕ}

/-- Every reachable configuration is at the end of one. -/
theorem Reachable.execution (h : Reachable d c) : ∃ w k n r, Execution d (Config.start w) k n r c := by
  induction h with
  | start w => exact ⟨w, 0, 0, 0, .begins⟩
  | step _ step ih =>
    obtain ⟨w, k, n, r, execution⟩ := ih
    have whole := step
    cases step with
    | env moved => exact ⟨w, k, n, r, execution.moves moved⟩
    | loads phase => exact ⟨w, k + 1, n, r, execution.starts phase⟩
    | seeds phase => exact ⟨w, k, n + 1, r, execution.receives whole ⟨_, phase⟩ rfl⟩
    | continues phase => exact ⟨w, k, n + 1, r, execution.receives whole ⟨_, phase⟩ rfl⟩
    | recovers phase given raised handled =>
      exact ⟨w, k, n, r + 1, execution.catches phase given raised handled⟩
    | fails phase => exact ⟨w, k, n, r, execution.stops whole rfl⟩
    | writes phase => exact ⟨w, k, n, r, execution.consumes whole (Or.inl phase)⟩
    | saves phase => exact ⟨w, k, n, r, execution.consumes whole (Or.inr (Or.inl phase))⟩
    | goesOn phase => exact ⟨w, k, n, r, execution.consumes whole (Or.inr (Or.inr phase))⟩
    | breaks phase => exact ⟨w, k, n, r, execution.stops whole rfl⟩
    | crashes => exact ⟨w, k, n, r, execution.stops whole rfl⟩

/-- The refusals still to come: one where the loop has a state, or a batch to take one from. -/
def carried : Phase → ℕ
  | .down => 0
  | .looping none => 0
  | .looping (some _) => 1
  | .received _ _ => 1
  | .written _ _ => 1
  | .stored _ _ => 1

theorem carried_le : ∀ phase, carried phase ≤ 1
  | .down => zero_le_one
  | .looping none => zero_le_one
  | .looping (some _) => le_rfl
  | .received _ _ => le_rfl
  | .written _ _ => le_rfl
  | .stored _ _ => le_rfl

/-- Taking a batch in hand to its end leaves at most the one refusal to come. -/
theorem carried_batch {o b}
    (h : c.phase = .received o b ∨ c.phase = .written o b ∨ c.phase = .stored o b) :
    carried c.phase = 1 := by
  rcases h with h | h | h <;> rw [h] <;> rfl

/-- What an execution has caught and may still catch, from what it could catch when it began. -/
theorem Execution.bounded (hsource : ∀ e, FromSource d.connector e → Uncaught e)
    (execution : Execution d c₀ k n r c) : r + carried c.phase ≤ n + k + carried c₀.phase := by
  induction execution with
  | begins => omega
  | @starts k n r c execution phase ih =>
    have := carried_le (.looping c.saved)
    show r + carried (.looping c.saved) ≤ n + (k + 1) + carried c₀.phase
    omega
  | @receives k n r c c' o b execution step asked answered ih =>
    have := carried_le c'.phase
    omega
  | @catches k n r c held req e w' execution phase given raised handled ih =>
    have hstate : ∃ st, req.state = some st := by
      rcases dblog_raises raised with h | h
      · exact absurd handled (by rw [hsource e h]; simp)
      · exact caught_state h handled
    obtain ⟨st, hst⟩ := hstate
    have hheld : carried c.phase = 1 := by
      cases held with
      | none => rw [given] at hst; cases hst
      | some held => rw [phase]; rfl
    show r + 1 + 0 ≤ n + k + carried c₀.phase
    omega
  | moves execution moved ih => exact ih
  | @consumes k n r c c' o b execution step batch ih =>
    have := carried_batch batch
    have := carried_le c'.phase
    omega
  | @stops k n r c c' execution step down ih =>
    have : carried c'.phase = 0 := by rw [down]; rfl
    omega

/-- **The loop does not spin.** Where a source raises neither of the two exceptions the loop
catches, an execution from any configuration has caught at most one refusal more than it has
received batches and been started: so never two without either between them. From a process that is
not running it has caught no more than those. -/
theorem refusals_are_few (hsource : ∀ e, FromSource d.connector e → Uncaught e)
    (execution : Execution d c₀ k n r c) : r ≤ n + k + 1 ∧ (c₀.phase = .down → r ≤ n + k) := by
  have h := Execution.bounded hsource execution
  refine ⟨?_, fun down => ?_⟩
  · have := carried_le c₀.phase
    omega
  · have : carried c₀.phase = 0 := by rw [down]; rfl
    omega

/-- The connector raises neither of the two, as long as its driver does not. -/
theorem source_uncaught {conn : MSSQLConnector σ}
    (hexecute : ∀ text params, Only Uncaught (conn.execute text params))
    (hmonotonic : Only Uncaught conn.monotonic) (hsleep : ∀ time, Only Uncaught (conn.sleep time)) :
    ∀ e, FromSource conn.source e → Uncaught e := by
  have hown : ∀ e, Own e → Uncaught e := by
    intro e h
    cases h <;> rfl
  exact fun e h => DriverRaises.only_source ⟨hown, hexecute, hmonotonic, hsleep⟩ h

end

/-! ### Retention passes a run on the items -/

open PyDBLog.World.InMemory PyDBLog.World.Log PyDBLog.World.Log.Source

theorem memory_uncaught {t : Target} {range : Set ℤ} {e : PyError}
    (h : FromSource (Memory.connector t range) e) : Uncaught e := by
  have hask : ∀ {α : Type} {f : Memory t range → Except PyError α} {m m' : Memory t range},
      (∀ m, OnlyPure Uncaught (f m)) → Memory.ask f m = .error e m' → Uncaught e := by
    intro α f m m' hf h
    unfold Memory.ask at h
    cases hm : f m with
    | ok a => rw [hm] at h; cases h
    | error e' => rw [hm] at h; cases h; exact hf m _ hm
  have hown : ∀ e, Own e → Uncaught e := by
    intro e h
    cases h <;> rfl
  cases h with
  | getMaxLsn raised => exact hask (fun _ => .ok _) raised
  | getMinLsn raised => exact hask (fun _ => .ok _) raised
  | watermark raised => exact hask (fun _ => .ok _) raised
  | awaitWatermark raised => exact hask (fun _ => .ite (.ok _) (.error rfl)) raised
  | inspect raised => exact hask (fun _ => .ite (.ok _) (.error rfl)) raised
  | readEventLog raised => exact hask (fun _ => .ite (.ok _) (.error rfl)) raised
  | toEvents raised => exact hask (fun _ => only_toEvents hown _ _ _) raised
  | readTable raised => exact hask (fun _ => .ok _) raised
  | incrementLsn raised => exact hask (fun _ => only_incrementLsn hown _) raised

/-- The stock, once the log has been cleaned up to position 6. -/
def cleaned : Items := { stock with floor := lsnAt 6 }

theorem stock_later_cleaned : Later stock.source cleaned.source where
  mark_le := le_rfl
  clock_le := le_rfl
  floor_le _ := by
    show lsnAt 1 ≤ lsnAt 6
    decide
  appended := List.prefix_rfl
  above_mark c hc := by cases (show c ∈ ([] : List Change) from hc)
  above_floor c hc := by cases (show c ∈ ([] : List Change) from hc)

/-- The process is started, reads the stock, saves, and is refused the state it has saved. -/
theorem cleaned_execution : Execution (itemsDriver threads) (Config.start stock) 1 1 1
    ⟨cleaned, .looping none, some (⟨lsnAt 4, emptyMap⟩, walkedTo 5), unsaved.map⟩ := by
  have started : Execution (itemsDriver threads) (Config.start stock) 0 0 0 _ := .begins
  have received := (started.starts rfl).receives
    (.seeds rfl rfl (stock_opens threads) (stock_walk threads)) ⟨_, rfl⟩ rfl
  have written := received.consumes (.writes rfl) (Or.inl rfl)
  have saved := written.consumes (.saves rfl) (Or.inr (Or.inl rfl))
  have looping := saved.consumes (.goesOn rfl rfl) (Or.inr (Or.inr rfl))
  have moved := looping.moves stock_later_cleaned
  have raised : (itemsDriver threads).call ⟨0, some (walkedTo 5), 5, none⟩ cleaned =
      .error (expired (walkedTo 5) (lsnAt 6)) cleaned := rfl
  have phase : Phase.looping (some (⟨lsnAt 4, emptyMap⟩, walkedTo 5)) =
      .looping (some (⟨lsnAt 4, emptyMap⟩, walkedTo 5)) := rfl
  exact moved.catches phase rfl raised rfl

theorem refusals_are_few_cleaned :
    (1 ≤ 1 + 1 + 1 ∧ ((Config.start stock).phase = .down → 1 ≤ 1 + 1)) ∧
      ∃ c, Execution (itemsDriver threads) (Config.start stock) 1 1 1 c :=
  ⟨refusals_are_few (fun _ => memory_uncaught) cleaned_execution, _, cleaned_execution⟩

end PyDBLog.Runs.Retries
