import PyDBLog.Runs.Reconstructs

/-! # The consumer loop

The loop of the README as a machine: load the saved state, call `dblog()`, write the frame, save the
state; on `CdcRetentionExpiredError` and `SchemaChangedError` go on with no state; a crash at any
point, any other exception and the end of the loop leave what was written and what was saved.
Nothing takes rows out of the map but the delete events of the log, so a run that opens over a map
that is not empty leaves a key alone that is absent from the table and does not change:
`recovery_converges` says that this is the only way the map can differ from the table. -/

namespace PyDBLog.Runs.Recovery

open PyDBLog.Model.Python PyDBLog.Model.Frame PyDBLog.Model.Types PyDBLog.Model.Connector
open PyDBLog.Model.DBLog PyDBLog.Model.Returns PyDBLog.Model.Worlds
open PyDBLog.Replay.Basic PyDBLog.Replay.Cut PyDBLog.Replay.Dump
open PyDBLog.World.Log PyDBLog.World.Log.Source PyDBLog.World.Promises
open PyDBLog.Runs.Window PyDBLog.Runs.Calls PyDBLog.Runs.Page PyDBLog.Runs.Consumer
open PyDBLog.Runs.Reconstructs

/-- A state, with the position its run opened at and what the map held at that moment. Only the
state is the program's. -/
abbrev Held := Origin LSN ℤ Image × RunState

/-- Where the loop is. -/
inductive Phase
  /-- The process is not running. -/
  | down
  /-- `state` is what the next call is given. -/
  | looping (state : Option Held)
  /-- A batch came back, its frame is not written. -/
  | received (origin : Origin LSN ℤ Image) (batch : BatchResult)
  /-- The frame is written, the state is not saved. -/
  | written (origin : Origin LSN ℤ Image) (batch : BatchResult)
  /-- The state is saved. -/
  | stored (origin : Origin LSN ℤ Image) (batch : BatchResult)

structure Config (σ : Type) where
  world : σ
  phase : Phase
  saved : Option Held
  map : Table ℤ Image

variable {σ : Type}

/-- Before the loop ever ran. -/
def Config.start (w : σ) : Config σ := ⟨w, .down, none, emptyMap⟩

/-- The exceptions the loop catches. -/
def caught : PyError → Bool
  | .cdcRetentionExpiredError _ => true
  | .schemaChangedError _ => true
  | _ => false

/-- **One step of the loop**, or of the world around it. -/
inductive Step (d : Driver σ) : Config σ → Config σ → Prop
  | env {c w'} (moved : d.moves c.world w') : Step d c { c with world := w' }
  | loads {c} (phase : c.phase = .down) : Step d c { c with phase := .looping c.saved }
  | seeds {c req opened w₁ b w'} (phase : c.phase = .looping none) (given : req.state = none)
      (opens : d.opens req c.world = .ok opened w₁) (returned : d.call req c.world = .ok b w') :
      Step d c { c with world := w', phase := .received ⟨opened.lastLsn, c.map⟩ b }
  | continues {c o state req b w'} (phase : c.phase = .looping (some (o, state)))
      (given : req.state = some state) (returned : d.call req c.world = .ok b w') :
      Step d c { c with world := w', phase := .received o b }
  | recovers {c held req e w'} (phase : c.phase = .looping held)
      (given : req.state = held.map Prod.snd) (raised : d.call req c.world = .error e w')
      (handled : caught e = true) : Step d c { c with world := w', phase := .looping none }
  | fails {c held req e w'} (phase : c.phase = .looping held)
      (given : req.state = held.map Prod.snd) (raised : d.call req c.world = .error e w')
      (unhandled : caught e = false) : Step d c { c with world := w', phase := .down }
  | writes {c o b} (phase : c.phase = .received o b) :
      Step d c { c with phase := .written o b, map := applyFrame d.target c.map b.frame }
  | saves {c o b} (phase : c.phase = .written o b) :
      Step d c { c with phase := .stored o b, saved := some (o, b.state) }
  | goesOn {c o b} (phase : c.phase = .stored o b) (more : b.frame.isSome = true) :
      Step d c { c with phase := .looping (some (o, b.state)) }
  | breaks {c o b} (phase : c.phase = .stored o b) (done : b.frame = none) :
      Step d c { c with phase := .down }
  | crashes {c} : Step d c { c with phase := .down }

/-- The configurations the loop can reach. -/
inductive Reachable (d : Driver σ) : Config σ → Prop
  | start (w : σ) : Reachable d (.start w)
  | step {c c'} (reachable : Reachable d c) (step : Step d c c') : Reachable d c'

/-- What a batch that came back will do to the map, or has done. -/
def PhaseInv (view : σ → Source) (init : Table ℤ Image) (d : Driver σ) (c : Config σ)
    (held : List Held) : Prop :=
  match c.phase with
  | .down => True
  | .looping state => ∀ x ∈ state, x ∈ held
  | .received o b => ∃ top, Ledger view init d.target c.world (applyFrame d.target c.map b.frame)
      ((o, b.state) :: held) top ∧
      Holds view init d.target c.world (applyFrame d.target c.map b.frame) o b.state
  | .written o b => (o, b.state) ∈ held ∧ Holds view init d.target c.world c.map o b.state
  | .stored o b => (o, b.state) ∈ held ∧ Holds view init d.target c.world c.map o b.state

/-- **The invariant of the loop**: the map is tracked for the saved state and for the current
one. -/
def Inv (view : σ → Source) (init : Table ℤ Image) (d : Driver σ) (c : Config σ) : Prop :=
  ∃ held top, Ledger view init d.target c.world c.map held top ∧ (∀ x ∈ c.saved, x ∈ held) ∧
    PhaseInv view init d c held

section

variable {view : σ → Source} {init : Table ℤ Image} {d : Driver σ}

/-- The world moving on changes nothing. -/
theorem Inv.later {c : Config σ} {w' : σ} (h : Inv view init d c)
    (hw : Later (view c.world) (view w')) : Inv view init d { c with world := w' } := by
  obtain ⟨held, top, hl, hsaved, hphase⟩ := h
  refine ⟨held, top, hl.later hw, hsaved, ?_⟩
  unfold PhaseInv at hphase ⊢
  dsimp only
  cases hp : c.phase with
  | down => trivial
  | looping state => rw [hp] at hphase; exact hphase
  | received o b =>
    rw [hp] at hphase
    obtain ⟨top', hl', hh⟩ := hphase
    exact ⟨top', hl'.later hw, hh.later hw⟩
  | written o b => rw [hp] at hphase; exact ⟨hphase.1, hphase.2.later hw⟩
  | stored o b => rw [hp] at hphase; exact ⟨hphase.1, hphase.2.later hw⟩

/-- Where the loop starts over, nothing but the saved state and the map count. -/
theorem Inv.restart {c : Config σ} (h : Inv view init d c) {phase : Phase}
    (hphase : phase = .down ∨ phase = .looping none ∨ phase = .looping c.saved) :
    Inv view init d { c with phase := phase } := by
  obtain ⟨held, top, hl, hsaved, -⟩ := h
  refine ⟨held, top, hl, hsaved, ?_⟩
  rcases hphase with rfl | rfl | rfl
  · trivial
  · simp [PhaseInv]
  · exact hsaved

theorem Step.inv (hC : Laws d.connector view init d.target)
    (hinspect : ∀ {w spec w'}, d.connector.inspect d.target.schema d.target.table w = .ok spec w' →
      d.target.Describes spec)
    (hmoves : ∀ w w', d.moves w w' → Later (view w) (view w')) {c c' : Config σ}
    (step : Step d c c') (h : Inv view init d c) : Inv view init d c' := by
  cases step with
  | env moved => exact h.later (hmoves _ _ moved)
  | loads phase => exact h.restart (Or.inr (Or.inr rfl))
  | recovers phase given raised handled =>
    have hm := Driver.raised_moves hC.later raised
    exact (h.later hm).restart (Or.inr (Or.inl rfl))
  | fails phase given raised unhandled =>
    have hm := Driver.raised_moves hC.later raised
    exact (h.later hm).restart (Or.inl rfl)
  | breaks phase done => exact h.restart (Or.inl rfl)
  | crashes => exact h.restart (Or.inl rfl)
  | seeds phase given opens returned =>
    obtain ⟨held, top, hl, hsaved, -⟩ := h
    obtain ⟨hc, opened', rows, high, window, hr⟩ := Driver.call_ok.mp returned
    obtain rfl := Driver.Reads.opened_eq hr opens
    rw [Driver.opens, given] at opens
    have hd : d.target.Describes opened'.spec := by
      obtain ⟨spec, _, _, _, _, _, hi, -, -, -, rfl⟩ := seed_ok.mp opens
      exact hinspect hi
    rw [Driver.Reads, given] at hr
    obtain ⟨top', hl', hh⟩ := hl.seeds hC hd hc hr
    have hm := Driver.returned_moves hC.later returned
    exact ⟨held, top, hl.later hm, hsaved, top', hl', hh⟩
  | continues phase given returned =>
    obtain ⟨held, top, hl, hsaved, hphase⟩ := h
    rw [PhaseInv, phase] at hphase
    have hmem := hphase _ rfl
    obtain ⟨top', hl', hh⟩ := hl.continues hC hmem given returned
    have hm := Driver.returned_moves hC.later returned
    exact ⟨held, top, hl.later hm, hsaved, top', hl', hh⟩
  | writes phase =>
    obtain ⟨held, top, hl, hsaved, hphase⟩ := h
    rw [PhaseInv, phase] at hphase
    obtain ⟨top', hl', hh⟩ := hphase
    exact ⟨_, top', hl', fun x hx => List.mem_cons_of_mem _ (hsaved x hx), List.mem_cons_self, hh⟩
  | saves phase =>
    obtain ⟨held, top, hl, -, hphase⟩ := h
    rw [PhaseInv, phase] at hphase
    exact ⟨held, top, hl, by rintro _ ⟨⟩; exact hphase.1, hphase⟩
  | goesOn phase more =>
    obtain ⟨held, top, hl, hsaved, hphase⟩ := h
    rw [PhaseInv, phase] at hphase
    exact ⟨held, top, hl, hsaved, by rintro _ ⟨⟩; exact hphase.1⟩

theorem Reachable.inv (hC : Laws d.connector view init d.target)
    (hinspect : ∀ {w spec w'}, d.connector.inspect d.target.schema d.target.table w = .ok spec w' →
      d.target.Describes spec)
    (hmoves : ∀ w w', d.moves w w' → Later (view w) (view w')) {c : Config σ}
    (h : Reachable d c) : Inv view init d c := by
  induction h with
  | start w => exact ⟨[], [], Ledger.empty w, by simp [Config.start], trivial⟩
  | step _ step ih => exact step.inv hC hinspect hmoves ih

/-- **Recovery**: whenever the loop has written a batch that hands back a walked state, the map is
the table at its position under every key but those the table does not have there, that have not
changed since the run opened, and under which the map is still as it was then. -/
theorem recovery_converges (hC : Laws d.connector view init d.target)
    (hinspect : ∀ {w spec w'}, d.connector.inspect d.target.schema d.target.table w = .ok spec w' →
      d.target.Describes spec)
    (hmoves : ∀ w w', d.moves w w' → Later (view w) (view w')) {c : Config σ} (h : Reachable d c)
    {o : Origin LSN ℤ Image} {b : BatchResult} (hphase : c.phase = .written o b ∨ c.phase = .stored o b)
    (hdone : b.state.dumpDone = true) (k : ℤ) :
    c.map k = tableAt init ((view c.world).entries d.target) b.state.lastLsn k ∨
      tableAt init ((view c.world).entries d.target) b.state.lastLsn k = none ∧
        Quiet ((view c.world).entries d.target) k o.pos b.state.lastLsn ∧ c.map k = o.held k := by
  obtain ⟨held, top, -, -, hinv⟩ := Reachable.inv hC hinspect hmoves h
  have hholds : Holds view init d.target c.world c.map o b.state := by
    rcases hphase with hp | hp <;> rw [PhaseInv, hp] at hinv <;> exact hinv.2
  rcases hholds (view c.world) ⟨Later.refl _, hC.int_keys _⟩ k (Or.inl hdone) with h | ⟨hq, hm, hn⟩
  · exact Or.inl h
  · exact Or.inr ⟨hn, hq, hm⟩

end

/-! ### The loop on the items -/

open PyDBLog.World.InMemory

/-- The stock is walked and written, and the process dies before it saves. -/
def unsaved : Config Items where
  world := stock
  phase := .written ⟨lsnAt 4, emptyMap⟩ ⟨some stockDumps, walkedTo 5⟩
  saved := none
  map := applyFrame items emptyMap (some stockDumps)

theorem unsaved_reachable : Reachable (itemsDriver threads) unsaved := by
  have started : Reachable (itemsDriver threads) (Config.start stock) := .start stock
  have looping := started.step (.loads rfl)
  have received := looping.step (.seeds rfl rfl (stock_opens threads) (stock_walk threads))
  exact received.step (.writes rfl)

/-- The process restarts with no state once the bolt is sold and the capture job is past that, and
walks and writes the table anew. -/
def rewritten : Config Items where
  world := sold
  phase := .written ⟨lsnAt 8, unsaved.map⟩ ⟨some (itemDumps 8 [(2, "nut")]), walkedTo 9⟩
  saved := none
  map := applyFrame items unsaved.map (some (itemDumps 8 [(2, "nut")]))

theorem rewritten_reachable : Reachable (itemsDriver threads) rewritten := by
  have down := unsaved_reachable.step .crashes
  have moved : Reachable (itemsDriver threads) ⟨sold, .down, none, unsaved.map⟩ :=
    down.step (.env stock_later_sold)
  have looping := moved.step (.loads rfl)
  have opens : (itemsDriver threads).opens ⟨0, none, 5, none⟩ sold =
      .ok (openAt 8) sold := rfl
  have returned : (itemsDriver threads).call ⟨0, none, 5, none⟩ sold =
      .ok ⟨some (itemDumps 8 [(2, "nut")]), walkedTo 9⟩ sold := rfl
  have received := looping.step (.seeds rfl rfl opens returned)
  exact received.step (.writes rfl)

/-- What the loop says of the bolt and of the nut after the restart. -/
theorem recovery_converges_stock :
    (rewritten.map 1 = tableAt emptyMap (sold.source.entries items) (lsnAt 9) 1 ∨
      tableAt emptyMap (sold.source.entries items) (lsnAt 9) 1 = none ∧
        Quiet (sold.source.entries items) 1 (lsnAt 8) (lsnAt 9) ∧ rewritten.map 1 = unsaved.map 1) ∧
    (rewritten.map 2 = tableAt emptyMap (sold.source.entries items) (lsnAt 9) 2 ∨
      tableAt emptyMap (sold.source.entries items) (lsnAt 9) 2 = none ∧
        Quiet (sold.source.entries items) 2 (lsnAt 8) (lsnAt 9) ∧ rewritten.map 2 = unsaved.map 2) := by
  have h := recovery_converges (Memory.laws ⟨"id", rfl⟩)
    (fun h => (Memory.inspect_ok h).1 ▸ Memory.spec_describes items) (fun _ _ h => h) rewritten_reachable
    (Or.inl rfl) rfl
  exact ⟨h 1, h 2⟩

/-- **What the map can keep**: the run after the restart opens past the delete of the bolt, walks a
table without it, and leaves it in the map. -/
theorem recovery_keeps_sold : Laws (itemsDriver threads).connector Memory.source emptyMap items ∧
    ∃ c o b, Reachable (itemsDriver threads) c ∧ c.phase = .written o b ∧ b.state.dumpDone = true ∧
      ∃ k, c.map k ≠ tableAt emptyMap (c.world.source.entries items) b.state.lastLsn k := by
  refine ⟨Memory.laws ⟨"id", rfl⟩, rewritten, _, _, rewritten_reachable, rfl, rfl, 1, ?_⟩
  decide

end PyDBLog.Runs.Recovery
