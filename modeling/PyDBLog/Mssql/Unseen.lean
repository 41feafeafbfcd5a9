import PyDBLog.Mssql.Handles

/-! # Handles that do not show

Over a process whose handles leave the server alone (`Transparent`), the connector with its
connection and its cursors does what the connector over the bare statements does
(`session_simulates`): it returns and raises the same, but for the errors opening and closing
handles raise. -/

namespace PyDBLog.Mssql.Unseen

open PyDBLog.Model.Python PyDBLog.Model.Frame PyDBLog.Model.Types PyDBLog.Model.Connector
open PyDBLog.Model.Worlds PyDBLog.Model.Raises PyDBLog.Model.Links PyDBLog.Mssql.Connector
open PyDBLog.Mssql.Connector.MSSQLConnector PyDBLog.Mssql.Driver PyDBLog.Mssql.Handles
open PyDBLog.Mssql.Handles.SessionConnector

variable {ρ σ α β Connection Cursor : Type}

/-- The worlds of a process and of the server, with a cursor that is open on it, or none. -/
def linkOf (leeway : Leeway σ) (server : ρ → σ) (live : ρ → Cursor → Prop) (held : Option Cursor) :
    Link ρ σ :=
  { leeway with related := fun w v => server w = v ∧ ∀ cur ∈ held, live w cur }

/-- The same with the session of a connector. -/
def sessionLink (leeway : Leeway σ) (server : ρ → σ) (live : ρ → Cursor → Prop) (held : Option Cursor) :
    Link (Session ρ Connection) σ :=
  { leeway with related := fun s v => server s.world = v ∧ ∀ cur ∈ held, live s.world cur }

/-- What opens or closes a handle from a world: the server stays as it is, and an error is one of
the process. -/
structure Aside (own : PyError → Prop) (server : ρ → σ) (x : Call ρ α) (w : ρ) : Prop where
  stays : server (leaves (x w)) = server w
  raises : ∀ {e w'}, x w = .error e w' → own e

/-- **Handles that do not show**: opening and closing one leaves the server alone, and a cursor that
was handed out answers what the server answers, until it is closed. -/
structure Transparent (leeway : Leeway σ) (server : ρ → σ) (live : ρ → Cursor → Prop)
    (connector : SessionConnector ρ Connection Cursor) (plain : MSSQLConnector σ) : Prop where
  settings : plain = connector.settings.over plain.execute plain.monotonic plain.sleep
  moves : DriverMoves (fun _ => True) leeway.moves plain
  connect : ∀ connStr w, Aside leeway.own server (connector.process.connect connStr) w
  cursor : ∀ conn w, Aside leeway.own server (connector.process.cursor conn) w
  closeCursor : ∀ {cur w}, live w cur → Aside leeway.own server (connector.process.closeCursor cur) w
  opened : ∀ {conn w cur w'}, connector.process.cursor conn w = .ok cur w' → live w' cur
  execute : ∀ cur text params, Follows (linkOf leeway server live (some cur))
    (connector.process.execute cur text params) (plain.execute text params)
  monotonic : ∀ held,
    Follows (linkOf leeway server live held) connector.process.monotonic plain.monotonic
  sleep : ∀ held time,
    Follows (linkOf leeway server live held) (connector.process.sleep time) (plain.sleep time)

variable {leeway : Leeway σ} {server : ρ → σ} {live : ρ → Cursor → Prop} {held : Option Cursor}

/-! ### What comes after a call -/

section after

variable {x : Call ρ α} {done : Call ρ Unit} {w w' : ρ} {e : PyError}

theorem finally_ok {a : α} (h : tryFinally x done w = .ok a w') :
    ∃ w₁, x w = .ok a w₁ ∧ done w₁ = .ok () w' := by
  have hmap : EStateM.map Prod.fst (tryFinally' x fun _ => done) w = .ok a w' := h
  unfold EStateM.map at hmap
  simp only [tryFinally'] at hmap
  cases hx : x w with
  | ok b w₁ =>
    cases hdone : done w₁ with
    | ok _ w₂ =>
      simp only [hx, hdone] at hmap
      cases hmap
      exact ⟨w₁, rfl, hdone⟩
    | error e w₂ => simp [hx, hdone] at hmap
  | error e w₁ => cases hdone : done w₁ <;> simp [hx, hdone] at hmap

/-- An exception is one of what comes after, or the call's own. -/
theorem finally_error (h : tryFinally x done w = .error e w') :
    done (leaves (x w)) = .error e w' ∨ ∃ w₁, x w = .error e w₁ ∧ done w₁ = .ok () w' := by
  have hmap : EStateM.map Prod.fst (tryFinally' x fun _ => done) w = .error e w' := h
  unfold EStateM.map at hmap
  simp only [tryFinally'] at hmap
  cases hx : x w with
  | ok b w₁ =>
    cases hdone : done w₁ with
    | ok _ w₂ => simp [hx, hdone] at hmap
    | error e w₂ =>
      simp only [hx, hdone] at hmap
      cases hmap
      exact Or.inl hdone
  | error e₁ w₁ =>
    cases hdone : done w₁ with
    | ok _ w₂ =>
      simp only [hx, hdone] at hmap
      cases hmap
      exact Or.inr ⟨w₁, rfl, hdone⟩
    | error e w₂ =>
      simp only [hx, hdone] at hmap
      cases hmap
      exact Or.inl hdone

end after

/-! ### From a session -/

section world

variable {x : Call ρ α} {s s' : Session ρ Connection}

theorem onWorld_ok {a : α} : onWorld x s = .ok a s' ↔ x s.world = .ok a s'.world ∧ s'.conn = s.conn := by
  obtain ⟨world', conn'⟩ := s'
  unfold onWorld
  cases x s.world <;> simp [eq_comm, and_assoc]

theorem onWorld_error {e : PyError} :
    onWorld x s = .error e s' ↔ x s.world = .error e s'.world ∧ s'.conn = s.conn := by
  obtain ⟨world', conn'⟩ := s'
  unfold onWorld
  cases x s.world <;> simp [eq_comm, and_assoc]

/-- A call of the process does from a session what it does from the world. -/
theorem onWorld_follows {y : Call σ α} (h : Follows (linkOf leeway server live held) x y) :
    Follows (sessionLink leeway server live held) (onWorld x : Call (Session ρ Connection) α) y where
  moves := h.moves
  returns hrel hx := h.returns hrel (onWorld_ok.mp hx).1
  raises hrel hx := h.raises hrel (onWorld_error.mp hx).1

end world

section connector

variable {connector : SessionConnector ρ Connection Cursor} {plain : MSSQLConnector σ}
  {s s' : Session ρ Connection} {cur : Cursor} {e : PyError}

theorem Aside.ok {x : Call ρ α} {w w' : ρ} {a : α} (h : Aside leeway.own server x w)
    (hx : x w = .ok a w') :
    server w' = server w := by
  have := h.stays
  rwa [hx] at this

theorem Aside.error {x : Call ρ α} {w w' : ρ} (h : Aside leeway.own server x w)
    (hx : x w = .error e w') :
    server w' = server w ∧ leeway.own e := by
  have := h.stays
  rw [hx] at this
  exact ⟨this, h.raises hx⟩

theorem connect_ok (h : Transparent leeway server live connector plain)
    (hx : connector.connect s = .ok () s') :
    server s'.world = server s.world := by
  obtain ⟨world, conn⟩ := s
  cases conn with
  | some conn =>
    cases hx
    rfl
  | none =>
    have hopens : (onWorld (connector.process.connect connector.settings.connStr) >>= fun conn =>
        modify fun s => { s with conn := some conn }) ⟨world, none⟩ = .ok () s' := hx
    obtain ⟨conn, s₁, hconnect, hkeeps⟩ := bind_ok.mp hopens
    cases hkeeps
    exact (h.connect _ _).ok (onWorld_ok.mp hconnect).1

/-- A cursor that is handed out is open, with the server as it was. -/
theorem cursor_returns (h : Transparent leeway server live connector plain)
    (hx : connector.cursor s = .ok cur s') :
    server s'.world = server s.world ∧ live s'.world cur := by
  obtain ⟨_, s₁, hconnect, -⟩ := bind_ok.mp hx
  obtain ⟨conn, -, heq⟩ := cursor_eq hconnect
  rw [heq] at hx
  have hopens := (onWorld_ok.mp hx).1
  exact ⟨((h.cursor conn _).ok hopens).trans (connect_ok h hconnect), h.opened hopens⟩

theorem cursor_raises (h : Transparent leeway server live connector plain)
    (hx : connector.cursor s = .error e s') :
    server s'.world = server s.world ∧ leeway.own e := by
  cases hconnect : connector.connect s with
  | error e₁ s₁ =>
    have hfails : connector.cursor s = .error e₁ s₁ := bind_error.mpr (Or.inl hconnect)
    cases hfails.symm.trans hx
    exact (h.connect _ _).error (connect_raises hconnect).2
  | ok _ s₁ =>
    obtain ⟨conn, -, heq⟩ := cursor_eq hconnect
    rw [heq] at hx
    obtain ⟨hstays, hown⟩ := (h.cursor conn _).error (onWorld_error.mp hx).1
    exact ⟨hstays.trans (connect_ok h hconnect), hown⟩

/-- **What is done on a cursor** that is opened for it and closed after it. -/
theorem openCursor_follows (h : Transparent leeway server live connector plain)
    {body : Cursor → Call (Session ρ Connection) α} {y : Call σ α} (hmoves : Moves leeway.moves y)
    (hbody : ∀ cur, Follows (sessionLink leeway server live (some cur)) (body cur) y) :
    Follows (sessionLink leeway server live none) (connector.openCursor body) y where
  moves := hmoves
  returns := by
    rintro s v a s' ⟨hserver, -⟩ hx
    obtain ⟨cur, s₁, hcursor, hfinally⟩ := bind_ok.mp hx
    obtain ⟨s₂, hbody₂, hclose⟩ := finally_ok hfinally
    obtain ⟨hstays, hlive⟩ := cursor_returns h hcursor
    obtain ⟨v', hy, hserver', hlive'⟩ := (hbody cur).returns
      ⟨hstays.trans hserver, fun _ hcur => Option.mem_some.mp hcur ▸ hlive⟩ hbody₂
    have hclosed := (h.closeCursor (hlive' cur rfl)).ok (onWorld_ok.mp hclose).1
    exact ⟨v', hy, hclosed.trans hserver', by simp⟩
  raises := by
    rintro s v e s' ⟨hserver, -⟩ hx
    rcases bind_error.mp hx with hcursor | ⟨cur, s₁, hcursor, hfinally⟩
    · obtain ⟨hstays, hown⟩ := cursor_raises h hcursor
      exact ⟨v, Or.inr ⟨hown, leeway.refl v⟩, hstays.trans hserver, by simp⟩
    · obtain ⟨hstays, hlive⟩ := cursor_returns h hcursor
      have hrel : (sessionLink leeway server live (some cur)).related s₁ v :=
        ⟨hstays.trans hserver, fun _ hcur => Option.mem_some.mp hcur ▸ hlive⟩
      rcases finally_error hfinally with hclose | ⟨s₂, hbody₂, hclose⟩
      · -- closing the cursor raises, whatever the body has done
        obtain ⟨v', hmoved, hserver', hlive'⟩ := (hbody cur).goes hrel
        obtain ⟨hstays', hown⟩ := (h.closeCursor (hlive' cur rfl)).error (onWorld_error.mp hclose).1
        exact ⟨v', Or.inr ⟨hown, hmoved⟩, hstays'.trans hserver', by simp⟩
      · obtain ⟨v', hy, hserver', hlive'⟩ := (hbody cur).raises hrel hbody₂
        have hclosed := (h.closeCursor (hlive' cur rfl)).ok (onWorld_ok.mp hclose).1
        exact ⟨v', hy, hclosed.trans hserver', by simp⟩

/-! ### The connector over its process -/

/-- The methods of the same settings over a driver that does what the other's does. -/
theorem over_follows {link : Link (Session ρ Connection) σ}
    {execute : String → List Cell → Call (Session ρ Connection) ResultSet}
    {monotonic : Call (Session ρ Connection) ℤ} {sleep : ℤ → Call (Session ρ Connection) Unit}
    {settings : Settings} (hsettings : plain = settings.over plain.execute plain.monotonic plain.sleep)
    (hexecute : ∀ text params, Follows link (execute text params) (plain.execute text params))
    (hmonotonic : Follows link monotonic plain.monotonic)
    (hsleep : ∀ time, Follows link (sleep time) (plain.sleep time)) :
    DriverFollows link (settings.over execute monotonic sleep) plain where
  execute := hexecute
  monotonic := hmonotonic
  sleep := hsleep
  lib := by rw [hsettings]; rfl
  pagination := by rw [hsettings]; rfl
  watermarkTimeout := by rw [hsettings]; rfl
  watermarkPoll := by rw [hsettings]; rfl
  maxPolls := by rw [hsettings]; rfl
  isoformat := by rw [hsettings]; rfl
  seconds := by rw [hsettings]; rfl

/-- The methods on an open cursor. -/
theorem onCursor_follows (h : Transparent leeway server live connector plain) (cur : Cursor) :
    DriverFollows (sessionLink leeway server live (some cur)) (connector.onCursor cur) plain :=
  over_follows h.settings (fun text params => onWorld_follows (h.execute cur text params))
    (onWorld_follows (h.monotonic _)) fun time => onWorld_follows (h.sleep _ time)

/-- The methods that open a cursor for one statement. -/
theorem statements_follows (h : Transparent leeway server live connector plain) :
    DriverFollows (sessionLink leeway server live none) connector.statements plain :=
  over_follows h.settings
    (fun text params => openCursor_follows h (h.moves.execute trivial) fun cur =>
      onWorld_follows (h.execute cur text params))
    (onWorld_follows (h.monotonic _)) fun time => onWorld_follows (h.sleep _ time)

theorem inspect_follows (h : Transparent leeway server live connector plain)
    (schema table captureSchema : String) :
    Follows (sessionLink leeway server live none) (connector.inspect schema table captureSchema)
      (plain.inspect schema table captureSchema) := by
  have hread : Follows (sessionLink leeway server live none)
      (connector.openCursor fun cur => (connector.onCursor cur).readCatalogue s!"{schema}.{table}" captureSchema)
      (plain.readCatalogue s!"{schema}.{table}" captureSchema) :=
    openCursor_follows h (h.moves.readCatalogue trivial trivial trivial fun _ _ => trivial) fun cur =>
      (onCursor_follows h cur).readCatalogue _ _
  unfold MSSQLConnector.inspect
  rw [← (statements_follows h).lib]
  exact hread.bind fun _ => .ofExcept _

theorem awaitWatermark_follows (h : Transparent leeway server live connector plain) (mark : Datetime) :
    Follows (sessionLink leeway server live none) (connector.awaitWatermark mark)
      (plain.awaitWatermark mark) := by
  have hst := statements_follows h
  unfold MSSQLConnector.awaitWatermark
  rw [← hst.watermarkTimeout, ← hst.maxPolls, ← hst.isoformat, ← hst.seconds]
  exact hst.monotonic.bind fun started =>
    (openCursor_follows h (h.moves.awaitLoop trivial _ _) fun cur =>
      (onCursor_follows h cur).awaitLoop mark _ _).bind
      fun passed => (Follows.pure _).ite (.throw _)

/-- **The connector does over its process what it does over the statements.** -/
theorem session_simulates (h : Transparent leeway server live connector plain) :
    Simulates (sessionLink leeway server live none) connector.source plain.source :=
  { (statements_follows h).simulates_source with
    inspect := fun schema table => inspect_follows h schema table "cdc"
    awaitWatermark := awaitWatermark_follows h }

end connector

/-! ### Over a process with a table of cursors -/

def openOn (w : σ × Desk) (cur : ℕ) : Prop := cur ∈ w.2.cursors

theorem beside_follows {x : Call σ α} (hmoves : Moves leeway.moves x) (held : Option ℕ) :
    Follows (linkOf leeway Prod.fst openOn held) (beside x) x where
  moves := hmoves
  returns := by
    rintro ⟨w, cursors⟩ _ a w' ⟨rfl, hlive⟩ h
    unfold beside at h
    cases hx : x w <;> simp only [hx] at h <;> cases h
    exact ⟨_, rfl, rfl, hlive⟩
  raises := by
    rintro ⟨w, cursors⟩ _ e w' ⟨rfl, hlive⟩ h
    unfold beside at h
    cases hx : x w <;> simp only [hx] at h <;> cases h
    exact ⟨_, Or.inl rfl, rfl, hlive⟩

theorem tabled_transparent {plain : MSSQLConnector σ}
    (hmoves : DriverMoves (fun _ => True) leeway.moves plain) (hown : leeway.own (.driverError "no cursor")) :
    Transparent leeway Prod.fst openOn (tabledConnector plain) plain where
  settings := rfl
  moves := hmoves
  connect _ _ := ⟨rfl, fun h => by cases h⟩
  cursor _ := by
    rintro ⟨w, cursors, refusals⟩
    cases refusals with
    | zero => exact ⟨rfl, fun h => by cases h⟩
    | succ refusals => exact ⟨rfl, fun h => by cases h; exact hown⟩
  closeCursor {cur w} hlive := by
    have hclose : (tabled plain).closeCursor cur w =
        .ok () (w.1, { w.2 with cursors := w.2.cursors.erase cur }) := if_pos hlive
    refine ⟨congrArg (fun r => (leaves r).1) hclose, fun h => ?_⟩
    cases hclose.symm.trans h
  opened {conn w cur w'} h := by
    obtain ⟨w, cursors, refusals⟩ := w
    cases refusals with
    | zero =>
      cases h
      exact List.mem_cons_self
    | succ refusals => cases h
  execute cur text params :=
    { moves := hmoves.execute trivial
      returns := fun {w v a w'} hrel h => by
        have hlive : cur ∈ w.2.cursors := hrel.2 cur rfl
        exact (beside_follows (hmoves.execute trivial) (some cur)).returns hrel
          ((if_pos hlive).symm.trans h)
      raises := fun {w v e w'} hrel h => by
        have hlive : cur ∈ w.2.cursors := hrel.2 cur rfl
        exact (beside_follows (hmoves.execute trivial) (some cur)).raises hrel
          ((if_pos hlive).symm.trans h) }
  monotonic := beside_follows hmoves.monotonic
  sleep held time := beside_follows (hmoves.sleep time) held

end PyDBLog.Mssql.Unseen
