import PhraseTape.Proofs.Run.Moments

/-!
# What an observer is asked

A run asks its observer once about every instruction that it carries out, and once more about the
instruction at which it stops, if this one is refused or fails. To see the questions it is enough to
note them: an observer that notes every question and answers like another one changes nothing in the
run of the other one.

## Main definitions

* `Observer.recording` : an observer that notes what it is asked.
* `Session.questions` : the moments about which a run asks its observer, in order.

## Main results

* `Session.execute_recording` : noting the questions does not change the run.
* `Session.exists_questions_eq` : the questions are the moments that the run passes, and the one at
  which it rests.
* `Session.moment?_execute_of_questions` : a question is about the session as the instructions
  before it leave it.
-/

namespace PhraseTape

variable {σ : Type}

/-- The observer that notes every moment it is asked about, and answers like `observe`. -/
def Observer.recording (observe : Observer σ) : Observer (Array Moment × σ) :=
  (Observer.noting id).also observe

namespace Session

/-- The moments about which a run asks its observer, in order. -/
def questions (observe : Observer σ) (fuel : Nat) (a : σ) (s : Session) : Array Moment :=
  (s.execute observe.recording fuel (#[], a)).notes.1

/-- The moment at the counter, unless the program is at its end. -/
def moment? (s : Session) : Option Moment :=
  s.machine.current?.map s.machine.moment

variable {observe : Observer σ} {s t : Session} {a b : σ} {ms : List Moment}

theorem moment?_eq_some_iff {m : Moment} : s.moment? = some m ↔
    ∃ i, s.machine.current? = some i ∧ s.machine.moment i = m :=
  Option.map_eq_some_iff

theorem recording_eq {v : Verdict} {m : Moment} (h : observe m a = (v, b)) (xs : Array Moment) :
    observe.recording m (xs, a) = (v, (xs.push m, b)) := by
  simp only [Observer.recording, Observer.also, Observer.noting, id, h]

/-! ### Noting the questions -/

/-- The moments that a run passes are noted behind the ones that were noted before. -/
theorem Passes.recording (h : Passes observe ms a s b t) (xs : Array Moment) :
    Passes observe.recording ms (xs, a) s (xs ++ ms, b) t := by
  induction h generalizing xs with
  | refl a s =>
    rw [Array.appendList_nil]
    exact .refl _ s
  | @step ms a b c s t u i hi ho hs _ ih =>
    have hxs : xs ++ (s.machine.moment i :: ms) = xs.push (s.machine.moment i) ++ ms := by simp
    rw [hxs]
    exact .step hi (recording_eq ho xs) hs (ih _)

/-- The moment at which a run rests is noted if the observer is still asked about it. -/
theorem Rests.recording {n : Nat} {r : Report σ} (h : Rests observe a s n r) (xs : Array Moment) :
    Rests observe.recording (xs, a) s n
      ⟨r.status, (xs ++ if n = 0 then [] else s.moment?.toList, r.notes), r.session⟩ := by
  cases h with
  | running hi =>
    rw [if_pos rfl, Array.appendList_nil]
    exact .running hi
  | finish hi n =>
    have hnone : (if n = 0 then [] else s.moment?.toList) = [] := by simp [moment?, hi]
    have hfinish : Report.mk (s.finish a).status (xs, (s.finish a).notes) (s.finish a).session =
        s.finish (xs, a) := by
      rw [finish_eq_flushed, finish_eq_flushed]
    rw [hnone, Array.appendList_nil, hfinish]
    exact .finish hi n
  | abort hi ho n =>
    have h := Rests.abort hi (recording_eq ho xs) n
    simpa [moment?, hi] using h
  | fault hi ho hs n =>
    have h := Rests.fault hi (recording_eq ho xs) hs n
    simpa [moment?, hi] using h

/-- A run that is noted is the run that is not, and the questions of it are the moments that it
passes and the moment at which it rests, if the observer is still asked about it. -/
theorem exists_execute_recording_eq (observe : Observer σ) (fuel : Nat) (a : σ) (s : Session) :
    ∃ (ms : List Moment) (n : Nat) (b : σ) (t : Session), fuel = ms.length + n ∧
      Passes observe ms a s b t ∧ Rests observe b t n (s.execute observe fuel a) ∧
      s.execute observe.recording fuel (#[], a) =
        ⟨(s.execute observe fuel a).status,
          ((ms ++ if n = 0 then [] else t.moment?.toList).toArray,
            (s.execute observe fuel a).notes),
          (s.execute observe fuel a).session⟩ := by
  obtain ⟨ms, n, b, t, hn, hpasses, hrests⟩ := exists_passes_rests observe fuel a s
  refine ⟨ms, n, b, t, hn, hpasses, hrests, ?_⟩
  rw [hn, (hpasses.recording #[]).leads.execute, ← hn, (hrests.recording _).execute_eq]
  simp

/-- Noting the questions of a run does not change it. -/
theorem execute_recording (observe : Observer σ) (fuel : Nat) (a : σ) (s : Session) :
    s.execute observe.recording fuel (#[], a) =
      ⟨(s.execute observe fuel a).status,
        (s.questions observe fuel a, (s.execute observe fuel a).notes),
        (s.execute observe fuel a).session⟩ := by
  obtain ⟨_, _, _, _, -, -, -, h⟩ := exists_execute_recording_eq observe fuel a s
  rw [questions, h]

/-- **The questions of a run** are the moments that it passes, and the moment at which it rests if
the observer is still asked about it. -/
theorem exists_questions_eq (observe : Observer σ) (fuel : Nat) (a : σ) (s : Session) :
    ∃ (ms : List Moment) (n : Nat) (b : σ) (t : Session), fuel = ms.length + n ∧
      Passes observe ms a s b t ∧ Rests observe b t n (s.execute observe fuel a) ∧
      (s.questions observe fuel a).toList = ms ++ if n = 0 then [] else t.moment?.toList := by
  obtain ⟨ms, n, b, t, hn, hpasses, hrests, h⟩ := exists_execute_recording_eq observe fuel a s
  exact ⟨ms, n, b, t, hn, hpasses, hrests, by rw [questions, h]⟩

/-! ### What the questions are about -/

/-- A moment that a run passes is that of a session to which it comes by the moments before. -/
theorem Passes.exists_moment {k : Nat} {m : Moment} (h : Passes observe ms a s b t)
    (hm : ms[k]? = some m) :
    ∃ c u, Passes observe (ms.take k) a s c u ∧ u.moment? = some m := by
  induction h generalizing k with
  | refl a s => cases hm
  | step hi ho hs _ ih =>
    cases k with
    | zero =>
      obtain rfl := Option.some.inj hm
      exact ⟨_, _, .refl .., moment?_eq_some_iff.2 ⟨_, hi, rfl⟩⟩
    | succ k =>
      obtain ⟨c, u, hpasses, hu⟩ := ih hm
      exact ⟨c, u, .step hi ho hs hpasses, hu⟩

/-- A question is about a session to which the run comes by as many instructions as there are
questions before it. -/
theorem exists_passes_of_questions {fuel k : Nat} {m : Moment}
    (hm : (s.questions observe fuel a)[k]? = some m) :
    ∃ ms b t, ms.length = k ∧ Passes observe ms a s b t ∧ t.moment? = some m := by
  obtain ⟨ms, n, b, t, -, hpasses, -, hquestions⟩ := exists_questions_eq observe fuel a s
  rw [← Array.getElem?_toList, hquestions] at hm
  by_cases hk : k < ms.length
  · rw [List.getElem?_append_left hk] at hm
    obtain ⟨c, u, hpasses, hu⟩ := hpasses.exists_moment hm
    exact ⟨ms.take k, c, u, List.length_take_of_le (Nat.le_of_lt hk), hpasses, hu⟩
  · rw [List.getElem?_append_right (by omega)] at hm
    split at hm
    next => cases hm
    next =>
      -- The last question is the only one that is not about a moment passed.
      cases ht : t.moment? with
      | none => simp [ht] at hm
      | some m' =>
        rw [ht, Option.toList_some, List.getElem?_singleton] at hm
        split at hm
        next hzero => exact ⟨ms, b, t, by omega, hpasses, ht.trans hm⟩
        next => cases hm

/-- **A question is about the session as it is** when the instructions before it are carried out. -/
theorem moment?_execute_of_questions {fuel k : Nat} {m : Moment}
    (hm : (s.questions observe fuel a)[k]? = some m) :
    (s.execute observe k a).session.moment? = some m := by
  obtain ⟨ms, b, t, rfl, hpasses, ht⟩ := exists_passes_of_questions hm
  obtain ⟨i, hi, -⟩ := moment?_eq_some_iff.1 ht
  have h := hpasses.leads.execute 0
  rw [execute_zero hi, Nat.add_zero] at h
  rwa [h]

end Session

end PhraseTape
