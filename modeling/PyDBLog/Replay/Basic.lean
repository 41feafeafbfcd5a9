import Mathlib.Logic.Function.Basic
import Mathlib.Data.List.Basic
import Mathlib.Tactic

/-! # Replaying writes over a keyed table

A write puts an image under a key, or removes the key (`none`). Replaying a list of writes is the
left fold. Under one key only the writes of that key matter (`replay_filter`): one of them decides
(`replay_mem`), and without any the table is unchanged there (`replay_of_untouched`). -/

namespace PyDBLog.Replay.Basic

universe u v

variable {K : Type u} {V : Type v}

/-- A keyed table: the image under each key, `none` where the key is absent. -/
abbrev Table (K : Type u) (V : Type v) := K → Option V

/-- One write: the key takes the image, `none` deletes it. -/
structure Write (K : Type u) (V : Type v) where
  key : K
  image : Option V
  deriving DecidableEq

/-- No write of the list is under the key. -/
def Untouched (k : K) (es : List (Write K V)) : Prop := ∀ e ∈ es, e.key ≠ k

@[simp] theorem untouched_nil (k : K) : Untouched k ([] : List (Write K V)) := by
  simp [Untouched]

theorem untouched_cons {k : K} {e : Write K V} {es : List (Write K V)} :
    Untouched k (e :: es) ↔ e.key ≠ k ∧ Untouched k es := by
  simp [Untouched]

theorem untouched_append {k : K} {es fs : List (Write K V)} :
    Untouched k (es ++ fs) ↔ Untouched k es ∧ Untouched k fs := by
  simp only [Untouched, List.mem_append]
  exact ⟨fun h => ⟨fun e he => h e (Or.inl he), fun e he => h e (Or.inr he)⟩,
    fun h e he => he.elim (h.1 e) (h.2 e)⟩

theorem not_untouched {k : K} {es : List (Write K V)} :
    ¬ Untouched k es ↔ ∃ e ∈ es, e.key = k := by
  simp [Untouched]

variable [DecidableEq K]

/-- The table after one write. -/
def put (m : Table K V) (e : Write K V) : Table K V := Function.update m e.key e.image

/-- The table after a list of writes. -/
def replay (m : Table K V) (es : List (Write K V)) : Table K V := es.foldl put m

@[simp] theorem put_same (m : Table K V) (e : Write K V) : put m e e.key = e.image := by
  simp [put]

theorem put_other (m : Table K V) {e : Write K V} {k : K} (h : e.key ≠ k) : put m e k = m k := by
  simp [put, Function.update_of_ne h.symm]

@[simp] theorem replay_cons (m : Table K V) (e : Write K V) (es : List (Write K V)) :
    replay m (e :: es) = replay (put m e) es := rfl

theorem replay_append (m : Table K V) (es fs : List (Write K V)) :
    replay m (es ++ fs) = replay (replay m es) fs := by
  simp [replay, List.foldl_append]

theorem replay_of_untouched {k : K} : ∀ {es : List (Write K V)} (m : Table K V),
    Untouched k es → replay m es k = m k
  | [], _, _ => rfl
  | e :: es, m, h => by
    rw [untouched_cons] at h
    rw [replay_cons, replay_of_untouched (put m e) h.2, put_other m h.1]

/-- Under one key the tables agree after the writes if they did before. -/
theorem replay_congr {k : K} : ∀ (es : List (Write K V)) {m m' : Table K V},
    m k = m' k → replay m es k = replay m' es k
  | [], _, _, h => h
  | e :: es, m, m', h => by
    refine replay_congr es ?_
    by_cases he : e.key = k
    · subst he; simp
    · rw [put_other m he, put_other m' he, h]

/-- A key that is written takes the value the writes give it, whatever it held before. -/
theorem replay_of_touched {k : K} : ∀ {es : List (Write K V)} (m m' : Table K V),
    ¬ Untouched k es → replay m es k = replay m' es k
  | [], _, _, h => absurd (untouched_nil k) h
  | e :: es, m, m', h => by
    by_cases he : e.key = k
    · refine replay_congr es ?_
      subst he; simp
    · rw [untouched_cons, not_and] at h
      rw [replay_cons, replay_cons]
      exact replay_of_touched _ _ (h he)

/-- What is under a key was there before, or one of the writes put it there. -/
theorem replay_mem {k : K} : ∀ (es : List (Write K V)) (m : Table K V),
    replay m es k = m k ∨ ∃ e ∈ es, e.key = k ∧ replay m es k = e.image
  | [], _ => Or.inl rfl
  | e :: es, m => by
    rw [replay_cons]
    rcases replay_mem es (put m e) with h | ⟨f, hf, hk, h⟩
    · by_cases he : e.key = k
      · exact Or.inr ⟨e, by simp, he, by rw [h, ← he, put_same]⟩
      · exact Or.inl (h.trans (put_other m he))
    · exact Or.inr ⟨f, by simp [hf], hk, h⟩

/-- Only the writes of a key matter under it. -/
theorem replay_filter {k : K} : ∀ (es : List (Write K V)) (m : Table K V),
    replay m (es.filter fun e => e.key = k) k = replay m es k
  | [], _ => rfl
  | e :: es, m => by
    by_cases he : e.key = k
    · rw [List.filter_cons_of_pos (by simpa using he), replay_cons, replay_cons, replay_filter es]
    · rw [List.filter_cons_of_neg (by simpa using he), replay_filter es, replay_cons]
      exact replay_congr es (put_other m he).symm

/-- A replay whose writes of the key all carry one image leaves that image. -/
theorem replay_of_constant {k : K} {v : Option V} : ∀ {es : List (Write K V)} (m : Table K V),
    (∀ e ∈ es, e.key = k → e.image = v) → ¬ Untouched k es → replay m es k = v
  | [], _, _, h => absurd (untouched_nil k) h
  | e :: es, m, hv, h => by
    rw [replay_cons]
    by_cases hes : Untouched k es
    · rw [replay_of_untouched _ hes]
      have he : e.key = k := by
        by_contra hne
        exact h (untouched_cons.mpr ⟨hne, hes⟩)
      rw [← hv e (by simp) he, ← he, put_same]
    · exact replay_of_constant _ (fun f hf => hv f (by simp [hf])) hes

end PyDBLog.Replay.Basic
