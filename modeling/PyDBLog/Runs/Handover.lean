import PyDBLog.Runs.OnServer

/-! # States that were lost

A state is lost and its position was written down elsewhere: `state_at_lsn()` builds another at that
position, with the table walked, as it was, or still to walk. The other state is as good as the one
that was lost (`Ledger.adopts`), so a run over SQL Server that loses its states as often as it may,
is tried again and falls back to older ones still reconstructs the table (`relay_reconstructs`). -/

namespace PyDBLog.Runs.Handover

open PyDBLog.Model.Python PyDBLog.Model.Frame PyDBLog.Model.Types PyDBLog.Model.Connector
open PyDBLog.Model.DBLog PyDBLog.Model.Returns PyDBLog.Model.Worlds PyDBLog.Model.Guarded
open PyDBLog.Mssql.Connector PyDBLog.Mssql.Server
open PyDBLog.Replay.Basic PyDBLog.Replay.Cut PyDBLog.Replay.Dump
open PyDBLog.World.Log PyDBLog.World.Log.Source PyDBLog.World.Promises
open PyDBLog.Runs.Calls PyDBLog.Runs.Page PyDBLog.Runs.Refines PyDBLog.Runs.Consumer
open PyDBLog.Runs.Reconstructs PyDBLog.Runs.OnServer

variable {σ V : Type}

/-- The driver builds a state at a position. -/
def builds (d : Driver σ) (now : ℤ) (fromLsn : LSN) (dumpDone : Bool) : Call σ RunState :=
  stateAtLsn d.connector now d.target.schema d.target.table fromLsn dumpDone

/-- **A run that loses its states**: the position it opened at, the world, the state of the last
batch, the states it can be given, and the frames. A state it can be given is rebuilt from its
position, as walked only if it was. -/
inductive Relay (d : Driver σ) : LSN → σ → RunState → List RunState → List DataFrame → Prop
  | begins {req w opened w₁ b w'} (fresh : req.state = none) (opens : d.opens req w = .ok opened w₁)
      (returned : d.call req w = .ok b w') : Relay d opened.lastLsn w' b.state [b.state] b.frame.toList
  | idles {L w last known frames w'} (relay : Relay d L w last known frames) (moved : d.moves w w') :
      Relay d L w' last known frames
  | raises {L w last known frames req st e w'} (relay : Relay d L w last known frames)
      (resumed : st ∈ known) (given : req.state = some st) (raised : d.call req w = .error e w') :
        Relay d L w' last known frames
  | returns {L w last known frames req st b w'} (relay : Relay d L w last known frames)
      (resumed : st ∈ known) (given : req.state = some st) (returned : d.call req w = .ok b w') :
      Relay d L w' b.state (b.state :: known) (frames ++ b.frame.toList)
  | refused {L w last known frames now fromLsn dumpDone e w'} (relay : Relay d L w last known frames)
      (raised : builds d now fromLsn dumpDone w = .error e w') : Relay d L w' last known frames
  | hands {L w last known frames now st dumpDone built w'} (relay : Relay d L w last known frames)
      (lost : st ∈ known) (walked : dumpDone = true → st.dumpDone = true)
      (returned : builds d now st.lastLsn dumpDone w = .ok built w') :
      Relay d L w' last (built :: known) frames

/-! ### A rebuilt state -/

section ledger

variable {view : σ → Source} {init : Table ℤ Image} {t : Target} {w : σ} {m : Table ℤ Image}
  {held : List (Origin LSN ℤ Image × RunState)} {top : LSN} {o : Origin LSN ℤ Image} {st st' : RunState}

/-- Fewer keys passed are as well tracked. -/
theorem Tracks.shrinks {log : List (Entry LSN ℤ Image)} {c c' : Cursor LSN ℤ}
    (h : Tracks init log m top o c) (hpos : c'.pos = c.pos) (hcovers : c'.covers ⊆ c.covers) :
    Tracks init log m top o c' where
  opened := hpos ▸ h.opened
  behind := hpos ▸ h.behind
  agrees k hk := by
    rcases h.agrees k (hpos ▸ hk) with heq | ⟨hquiet, hheld, hnone⟩
    · exact Or.inl heq
    · exact Or.inr ⟨hquiet, hheld, fun hk => hnone (hcovers hk)⟩

/-- **Another state at the position of one that is held** is as good, if it has passed no other
keys. -/
theorem Ledger.adopts (h : Ledger view init t w m held top) (hst : (o, st) ∈ held)
    (hd : t.Describes st'.spec) (hpos : st'.lastLsn = st.lastLsn) (hcovers : covers st' ⊆ covers st) :
    Ledger view init t w m ((o, st') :: held) top where
  beyond := h.beyond
  describes := by
    rintro x hx
    rcases List.mem_cons.mp hx with rfl | hx
    · exact hd
    · exact h.describes x hx
  tracks := by
    rintro x hx s hs
    rcases List.mem_cons.mp hx with rfl | hx
    · exact Tracks.shrinks (h.tracks _ hst s hs) hpos hcovers
    · exact h.tracks x hx s hs

end ledger

/-! ### A run over the connector -/

variable [LinearOrder V] {db : Database σ V} {conn : MSSQLConnector σ} {d : Driver σ} {L : LSN}
  {w w' : σ} {known : List RunState} {frames : List DataFrame} {last : RunState}

/-- What is built is right about the table, at the position asked for. -/
theorem builds_right (h : Serves db conn) (hconn : d.connector = conn.source)
    (htarget : d.target = db.target) {now : ℤ} {fromLsn : LSN} {dumpDone : Bool} {built : RunState}
    (returned : builds d now fromLsn dumpDone w = .ok built w') :
    db.Right built.spec ∧ built.lastLsn = fromLsn ∧ built.chunkKey = none ∧
      built.dumpDone = dumpDone := by
  rw [builds, hconn, htarget] at returned
  obtain ⟨spec, ci, w₁, floor, hi, hci, -, -, rfl⟩ := stateAtLsn_ok.mp returned
  exact ⟨h.inspect_right hi (by rw [hci]; simp), rfl, rfl, rfl⟩

/-- What a run that loses its states holds, and what it wrote. -/
structure Carries (db : Database σ V) (d : Driver σ) (L : LSN) (w : σ) (last : RunState)
    (known : List RunState) (frames : List DataFrame) : Prop where
  right : ∀ st ∈ known, db.Right st.spec
  ledger : ∃ top, Ledger db.view db.init d.target w (applyFrames d.target emptyMap frames)
    (heldFrom L known) top
  holds : Holds db.view db.init d.target w (applyFrames d.target emptyMap frames) ⟨L, emptyMap⟩ last

theorem Carries.later (h : Carries db d L w last known frames) (hw : Later (db.view w) (db.view w')) :
    Carries db d L w' last known frames where
  right := h.right
  ledger := h.ledger.imp fun _ hl => hl.later hw
  holds := h.holds.later hw

theorem Relay.carries (h : Serves db conn) (hconn : d.connector = conn.source)
    (htarget : d.target = db.target) (hmoves : ∀ w w', d.moves w w' → Later (db.view w) (db.view w'))
    (relay : Relay d L w last known frames) : Carries db d L w last known frames := by
  have hopens := opens_right h hconn htarget
  have hlaws : Laws (under db.Right d).connector db.view db.init d.target := by
    rw [htarget, under, hconn]
    exact laws_guarded h
  have hlater : Moving (fun w w' => Later (db.view w) (db.view w')) d.connector := by
    rw [hconn]
    exact h.later.moving_source
  induction relay with
  | @begins req w opened w₁ b w' fresh opens returned =>
    have hstate := given_none (P := db.Right) fresh
    have hright := hopens _ _ _ _ hstate opens
    have returned' := (call_under hopens hstate).trans returned
    obtain ⟨hc, opened', rows, high, window, hr⟩ := Driver.call_ok.mp returned'
    obtain rfl := Driver.Reads.opened_eq hr opens
    rw [Driver.Reads, fresh] at hr
    obtain ⟨top, hl, hh⟩ := (Ledger.empty w).seeds hlaws (htarget ▸ hright.describes) hc hr
    obtain ⟨opened'', w₁', opens', hspec⟩ := call_spec hconn returned
    refine ⟨?_, ?_, ?_⟩
    · rintro st hst
      rw [List.mem_singleton.mp hst, hspec]
      exact hopens _ _ _ _ hstate opens'
    · rw [← List.nil_append b.frame.toList, applyFrames_append_toList]
      exact ⟨top, hl⟩
    · rw [← List.nil_append b.frame.toList, applyFrames_append_toList]
      exact hh
  | idles relay moved ih => exact ih.later (hmoves _ _ moved)
  | raises relay resumed given raised ih =>
    have hw := Driver.raised_moves hlater raised
    exact ih.later hw
  | refused relay raised ih => exact ih.later ((hlater.stateAtLsn _ _ _ _ _).error raised)
  | @returns L w last known frames req st b w' relay resumed given returned ih =>
    have hstate := given_some given (ih.right _ resumed)
    obtain ⟨top, hl⟩ := ih.ledger
    have returned' := (call_under hopens hstate).trans returned
    obtain ⟨top', hl', hh⟩ := hl.continues (d := under db.Right d) hlaws (mem_heldFrom resumed)
      given returned'
    obtain ⟨opened, w₁, opens, hspec⟩ := call_spec hconn returned
    refine ⟨?_, ?_, ?_⟩
    · rw [List.forall_mem_cons, hspec]
      exact ⟨hopens _ _ _ _ hstate opens, ih.right⟩
    · rw [applyFrames_append_toList]
      exact ⟨top', hl'⟩
    · rw [applyFrames_append_toList]
      exact hh
  | @hands L w last known frames now st dumpDone built w' relay lost walked returned ih =>
    have hw : Later (db.view w) (db.view w') := (hlater.stateAtLsn _ _ _ _ _).ok returned
    obtain ⟨hright, hpos, hkey, hdone⟩ := builds_right h hconn htarget returned
    obtain ⟨top, hl⟩ := (ih.later hw).ledger
    have hcovers : covers built ⊆ covers st := by
      rintro k (hk | ⟨c, hc, -⟩)
      · exact Or.inl (walked (hdone ▸ hk))
      · rw [hkey] at hc
        cases hc
    refine ⟨?_, ⟨top, ?_⟩, (ih.later hw).holds⟩
    · rw [List.forall_mem_cons]
      exact ⟨hright, ih.right⟩
    · exact Ledger.adopts hl (mem_heldFrom lost) (htarget ▸ hright.describes) hpos hcovers

/-- **A run that loses its states reconstructs the table**: after every batch the frames are the
table at its position, under every key the walk of its state has passed. -/
theorem relay_reconstructs (h : Serves db conn) (hconn : d.connector = conn.source)
    (htarget : d.target = db.target) (hmoves : ∀ w w', d.moves w w' → Later (db.view w) (db.view w'))
    (relay : Relay d L w last known frames) (k : ℤ)
    (hcov : last.dumpDone = true ∨ ∃ c, last.chunkKey = some c ∧ k < c) :
    applyFrames db.target emptyMap frames k =
      tableAt db.init ((db.view w).entries db.target) last.lastLsn k := by
  have hholds := (Relay.carries h hconn htarget hmoves relay).holds
  rw [htarget] at hholds
  exact reconstructed hholds hcov

/-! ### A state of the items that was lost -/

open PyDBLog.World.InMemory PyDBLog.Mssql.InMemory

/-- The state that is built where the walk of the stock ended. -/
def rebuilt : RunState := ⟨itemsSpec, lsnAt 5, .utc 0, none, true⟩

set_option maxRecDepth 100000 in
/-- The stock is walked, the state is lost and built again, and the log read on from there. -/
theorem rebuilt_relay : Relay serverDriver (lsnAt 4) (tick^[19] stock) rebuilt
    [rebuilt, rebuilt, ⟨itemsSpec, lsnAt 5, .utc 0, some 3, true⟩] [served] := by
  have built : builds serverDriver 0 (lsnAt 5) true (tick^[12] stock) =
      .ok rebuilt (tick^[17] stock) := rfl
  have tail : serverDriver.call ⟨0, some rebuilt, 5, none⟩ (tick^[17] stock) =
      .ok ⟨none, rebuilt⟩ (tick^[19] stock) := rfl
  have walked := Relay.begins rfl OnServer.stock_opens OnServer.stock_returned
  have handed := walked.hands List.mem_cons_self (fun _ => rfl) built
  exact handed.returns List.mem_cons_self rfl tail

theorem relay_reconstructs_stock : applyFrames items emptyMap [served] 1 =
    tableAt (fun _ => none) ((tick^[19] stock).source.entries items) (lsnAt 5) 1 :=
  relay_reconstructs serves (d := serverDriver) rfl rfl (fun _ _ h => h) rebuilt_relay 1 (Or.inl rfl)

end PyDBLog.Runs.Handover
