import PyDBLog.Replay.Basic
import Mathlib.Order.Basic
import Mathlib.Data.List.Pairwise

/-! # A log cut at its positions

Entries of a log carry positions of a linear order; the table at a position `p` is the initial
content with every entry below `p` replayed (`tableAt`). The entries between two positions lead from
the one table to the other (`tableAt_eq_replay`), a key without an entry between them has the same
image at both (`tableAt_quiet`), and the table read off any prefix of the log is the table at `p`
under every key whose entries the prefix cuts at `p` (`replay_prefix`). -/

namespace PyDBLog.Replay.Cut

open PyDBLog.Replay.Basic

universe u v w

variable {P : Type w} {K : Type u} {V : Type v}

/-- An entry of a log: a write at a position. -/
structure Entry (P : Type w) (K : Type u) (V : Type v) extends Write K V where
  pos : P
  deriving DecidableEq

variable [LinearOrder P]

/-- The entries below a position. -/
def below (log : List (Entry P K V)) (p : P) : List (Entry P K V) := log.filter fun a => a.pos < p

/-- The entries from `p` on and below `q`. -/
def between (log : List (Entry P K V)) (p q : P) : List (Entry P K V) :=
  log.filter fun a => p ≤ a.pos ∧ a.pos < q

/-- The writes of a list of entries. -/
abbrev writes (es : List (Entry P K V)) : List (Write K V) := es.map Entry.toWrite

/-- No entry from `p` on and below `q` is under the key. -/
def Quiet (log : List (Entry P K V)) (k : K) (p q : P) : Prop :=
  ∀ a ∈ log, p ≤ a.pos → a.pos < q → a.key ≠ k

/-- The log is in the order of its positions. -/
abbrev Ordered (log : List (Entry P K V)) : Prop := log.Pairwise fun a b => a.pos ≤ b.pos

variable {log : List (Entry P K V)} {k : K} {p q r : P}

theorem mem_between {a : Entry P K V} : a ∈ between log p q ↔ a ∈ log ∧ p ≤ a.pos ∧ a.pos < q := by
  simp [between]

theorem quiet_iff_untouched : Quiet log k p q ↔ Untouched k (writes (between log p q)) := by
  constructor
  · rintro h _ he
    obtain ⟨a, ha, rfl⟩ := List.mem_map.mp he
    obtain ⟨hl, h1, h2⟩ := mem_between.mp ha
    exact h a hl h1 h2
  · intro h a ha h1 h2
    exact h a.toWrite (List.mem_map_of_mem (mem_between.mpr ⟨ha, h1, h2⟩))

theorem Quiet.mono (h : Quiet log k p r) {p' r' : P} (hp : p ≤ p') (hr : r' ≤ r) :
    Quiet log k p' r' :=
  fun a ha h1 h2 => h a ha (hp.trans h1) (h2.trans_le hr)

theorem Quiet.trans (h1 : Quiet log k p q) (h2 : Quiet log k q r) : Quiet log k p r := by
  intro a ha hp hr
  rcases lt_or_ge a.pos q with hq | hq
  · exact h1 a ha hp hq
  · exact h2 a ha hq hr

section cut

variable {α : Type v} (pos : α → P)

/-- Nothing of an ordered list is lost or repeated when it is cut at `p`. -/
theorem filter_lt_append (hp : p ≤ q) : ∀ {xs : List α}, (xs.Pairwise fun a b => pos a ≤ pos b) →
    xs.filter (fun a => pos a < q) =
      xs.filter (fun a => pos a < p) ++ xs.filter fun a => p ≤ pos a ∧ pos a < q
  | [], _ => rfl
  | a :: xs, h => by
    obtain ⟨ha, hl⟩ := List.pairwise_cons.mp h
    have ih := filter_lt_append hp hl
    rcases lt_or_ge (pos a) p with hap | hap
    · rw [List.filter_cons_of_pos (by simpa using hap.trans_le hp),
        List.filter_cons_of_pos (by simpa using hap),
        List.filter_cons_of_neg (by simp [hap]), ih, List.cons_append]
    · have hnone : (a :: xs).filter (fun b => pos b < p) = [] := by
        simp only [List.filter_eq_nil_iff, List.mem_cons, decide_eq_true_eq, not_lt]
        rintro b (rfl | hb)
        · exact hap
        · exact hap.trans (ha b hb)
      rw [hnone, List.nil_append]
      refine List.filter_congr fun b hb => ?_
      have hpb : p ≤ pos b := by
        rcases List.mem_cons.mp hb with rfl | hb
        · exact hap
        · exact hap.trans (ha b hb)
      simp [hpb]

/-- **Windows that meet tile.** -/
theorem filter_between_append (hpq : p ≤ q) (hqr : q ≤ r) {xs : List α}
    (h : xs.Pairwise fun a b => pos a ≤ pos b) :
    (xs.filter fun a => p ≤ pos a ∧ pos a < r) =
      (xs.filter fun a => p ≤ pos a ∧ pos a < q) ++ xs.filter fun a => q ≤ pos a ∧ pos a < r := by
  have h1 := filter_lt_append pos (hpq.trans hqr) h
  rw [filter_lt_append pos hqr h, filter_lt_append pos hpq h, List.append_assoc] at h1
  exact (List.append_cancel_left h1).symm

end cut

/-- The entries below `q` are those below `p` and those between. -/
theorem below_append_between (hp : p ≤ q) (h : Ordered log) :
    below log q = below log p ++ between log p q := filter_lt_append Entry.pos hp h

/-- A position above every entry cuts nothing off. -/
theorem below_of_forall_lt (h : ∀ a ∈ log, a.pos < p) : below log p = log :=
  List.filter_eq_self.mpr fun a ha => decide_eq_true (h a ha)

section table

variable [DecidableEq K] {init : Table K V}

/-- **The table at a position.** -/
def tableAt (init : Table K V) (log : List (Entry P K V)) (p : P) : Table K V :=
  replay init (writes (below log p))

theorem tableAt_eq_replay (hp : p ≤ q) (h : Ordered log) :
    tableAt init log q = replay (tableAt init log p) (writes (between log p q)) := by
  rw [tableAt, below_append_between hp h, writes, List.map_append, replay_append]
  rfl

/-- The entries of a window take the table to its close under every key they touch. -/
theorem replay_window (hp : p ≤ q) (h : Ordered log) (hk : ¬ Quiet log k p q) (m : Table K V) :
    replay m (writes (between log p q)) k = tableAt init log q k := by
  rw [tableAt_eq_replay hp h]
  exact replay_of_touched _ _ (mt quiet_iff_untouched.mpr hk)

theorem tableAt_quiet (hp : p ≤ q) (h : Ordered log) (hk : Quiet log k p q) :
    tableAt init log q k = tableAt init log p k := by
  rw [tableAt_eq_replay hp h, replay_of_untouched _ (quiet_iff_untouched.mp hk)]

omit [LinearOrder P] in
/-- The writes of a key are found by filtering the entries. -/
theorem filter_writes (es : List (Entry P K V)) :
    (writes es).filter (fun e => e.key = k) = writes (es.filter fun a => a.key = k) := by
  rw [writes, List.filter_map]
  rfl

/-- **A prefix read at an instant** gives the table at `p` under a key, as soon as the entries of
the key in the prefix are those below `p`. -/
theorem replay_prefix {pre post : List (Entry P K V)} (hlog : log = pre ++ post)
    (hpre : ∀ a ∈ pre, a.key = k → a.pos < p) (hpost : ∀ a ∈ post, a.key = k → p ≤ a.pos) :
    replay init (writes pre) k = tableAt init log p k := by
  have hfilter : pre.filter (fun a => a.key = k) = (below log p).filter fun a => a.key = k := by
    have h2 : (post.filter fun a => a.pos < p).filter (fun a => a.key = k) = [] := by
      rw [List.filter_filter, List.filter_eq_nil_iff]
      intro a ha
      by_cases hk : a.key = k
      · simp [hk, not_lt.mpr (hpost a ha hk)]
      · simp [hk]
    rw [below, hlog, List.filter_append, List.filter_append, h2, List.append_nil, List.filter_filter]
    refine List.filter_congr fun a ha => ?_
    by_cases hk : a.key = k
    · simp [hk, hpre a ha hk]
    · simp [hk]
  rw [tableAt, ← replay_filter (writes pre), filter_writes, hfilter, ← filter_writes, replay_filter]

end table

end PyDBLog.Replay.Cut
