import PhraseTape.CommandLine.Launch
import PhraseTape.Proofs.Run.Calls
import PhraseTape.Proofs.Run.Parts

/-!
# Limited runs

A limit is an observer that counts. Below the limit it answers like the observer that counts in the
same way and stops no run; as soon as the limit is reached it stops the run, before the instruction
that would exceed it. So a run that asks its observer at most as often as the limit allows does not
notice the limit, and any other run is cut off behind that many instructions. It makes no difference
whether an observer counts before it compares or compares before it counts.

## Main definitions

* `Observer.Counts` : an observer that counts what it is asked, and stops no run.
* `Observer.Limits` : an observer that limits a run, and the one without the limit.
* `Session.counted` : a run without a limit.

## Main results

* `Observer.limits_exceeding`, `Observer.limits_upTo`, `CommandLine.limits_observer` : three ways to
  limit a run.
* `Session.execute_of_count_le` : a run that stops needs no more instructions than it was asked
  about.
* `Session.execute_of_limits_of_stopped`, `Session.execute_of_limits_of_running` : a limited run is
  the run without the limit, or is cut off.
* `Session.execute_limited` : limits are exact.
-/

namespace PhraseTape

variable {σ τ : Type}

namespace Observer

/-- The observer lets every instruction through, and counts it in its notes. -/
structure Counts (count : σ → Nat) (observe : Observer σ) : Prop where
  proceed : ∀ m a, (observe m a).1 = .proceed
  count : ∀ m a, count (observe m a).2 = count a + 1

/-- The observer `observe` counts like `free` until the limit is reached, and stops the run then. -/
structure Limits (limit : Nat) (count : σ → Nat) (free observe : Observer σ) : Prop where
  counts : Counts count free
  below : ∀ m a, count a < limit → observe m a = free m a
  reached : ∀ m a, count a = limit → (observe m a).1 = .abort

variable {limit : Nat} {count : σ → Nat} {free observe : Observer σ}

/-! ### Three ways to limit a run -/

theorem counts_exceeding_none : Counts id (exceeding none) :=
  ⟨fun _ _ => rfl, fun _ _ => rfl⟩

theorem exceeding_self (m : Moment) (limit : Nat) :
    exceeding (some limit) m limit = (.abort, limit + 1) := by
  simp [exceeding]

theorem upTo_self (m : Moment) (limit : Nat) : upTo limit none m limit = (.abort, limit) := by
  simp [upTo]

/-- Counting first, and comparing then. -/
theorem limits_exceeding (limit : Nat) :
    Limits limit id (exceeding none) (exceeding (some limit)) where
  counts := counts_exceeding_none
  below m a ha := by
    have ha' : ¬ limit < a + 1 := Nat.not_lt.2 ha
    simp only [exceeding, Option.any_some, Option.any_none, ha', decide_false]
  reached m a ha := by
    obtain rfl : a = limit := ha
    rw [exceeding_self]

/-- Comparing first, and counting then. -/
theorem limits_upTo (limit : Nat) : Limits limit id (exceeding none) (upTo limit none) where
  counts := counts_exceeding_none
  below m a ha := by
    have ha' : a ≠ limit := Nat.ne_of_lt ha
    simp [upTo, exceeding, ha']
  reached m a ha := by
    obtain rfl : a = limit := ha
    rw [upTo_self]

/-- The second of two observers decides if the first stops no run. -/
theorem also_of_proceed {first : Observer τ} (h : ∀ m a, (first m a).1 = .proceed)
    (second : Observer σ) (m : Moment) (a : τ) (b : σ) :
    first.also second m (a, b) = ((second m b).1, ((first m a).2, (second m b).2)) := by
  have ha : first m a = (.proceed, (first m a).2) := Prod.ext (h m a) rfl
  rw [Observer.also, ha]

/-- An observer that stops no run can be asked before the limit. -/
theorem Limits.also {first : Observer τ} (hfirst : ∀ m a, (first m a).1 = .proceed)
    (h : Limits limit count free observe) :
    Limits limit (fun notes : τ × σ => count notes.2) (first.also free) (first.also observe) := by
  refine ⟨⟨fun m (a, b) => ?_, fun m (a, b) => ?_⟩, fun m (a, b) hb => ?_, fun m (a, b) hb => ?_⟩
  · rw [also_of_proceed hfirst]
    exact h.counts.proceed m b
  · rw [also_of_proceed hfirst]
    exact h.counts.count m b
  · rw [also_of_proceed hfirst, also_of_proceed hfirst, h.below m b hb]
  · rw [also_of_proceed hfirst]
    exact h.reached m b hb

end Observer

namespace CommandLine

theorem proceed_of_trace (o : Options) (m : Moment) (lines : Array String) :
    ((if o.trace then Observer.noting Moment.dump else fun _ notes => (.proceed, notes)) m
      lines).1 = .proceed := by
  cases o.trace <;> rfl

/-- The limit of the command line, also if the run is traced. -/
theorem limits_observer (o : Options) (limit : Nat) :
    Observer.Limits limit Prod.snd (observer { o with maxSteps := none })
      (observer { o with maxSteps := some limit }) :=
  (Observer.limits_exceeding limit).also (proceed_of_trace o)

/-- The instruction that the limit refuses is counted too. -/
theorem observer_self (o : Options) (m : Moment) (lines : Array String) (limit : Nat) :
    ∃ trace, observer { o with maxSteps := some limit } m (lines, limit) =
      (.abort, (trace, limit + 1)) := by
  have h : observer { o with maxSteps := some limit } m (lines, limit) = _ :=
    Observer.also_of_proceed (proceed_of_trace o) (Observer.exceeding (some limit)) m lines limit
  rw [Observer.exceeding_self] at h
  exact ⟨_, h⟩

end CommandLine

namespace Session

/-- A run without a limit. The notes are the number of times that the observer was asked. -/
def counted (fuel : Nat) (s : Session) : Report Nat :=
  s.execute (Observer.exceeding none) fuel 0

variable {limit : Nat} {count : σ → Nat} {free observe : Observer σ} {s t : Session} {a b : σ}

/-! ### Runs that are counted -/

theorem count_of_passes (h : free.Counts count) {ms : List Moment}
    (hp : Passes free ms a s b t) : count b = count a + ms.length := by
  induction hp with
  | refl a s => rfl
  | @step ms a b c s t u i _ ho _ _ ih =>
    have hb := h.count (s.machine.moment i) a
    rw [ho] at hb
    rw [ih, hb, List.length_cons]
    omega

/-- A run that somebody counts is counted alike, whatever else is noted. -/
theorem counted_eq_of_counts (h : free.Counts count) (ha : count a = 0) (fuel : Nat)
    (s : Session) : s.counted fuel = (s.execute free fuel a).mapNotes count := by
  rw [counted, ← ha]
  exact execute_mapNotes (fun m a => by rw [h.proceed, h.count]; rfl) fuel a s

/-- Counting does not change a run. -/
theorem execute_silent_eq_counted (fuel : Nat) (s : Session) :
    s.execute Observer.silent fuel () = (s.counted fuel).mapNotes fun _ => () := by
  have h : ∀ m a, Observer.silent m () = ((Observer.exceeding none m a).1, ()) := fun _ _ => rfl
  exact execute_mapNotes (f := fun _ => ()) h fuel 0 s

/-- A run asks its observer at most once for each instruction that is allowed to it. -/
theorem count_execute_le (h : free.Counts count) (n : Nat) (a : σ) (s : Session) :
    count (s.execute free n a).notes ≤ count a + n := by
  obtain ⟨ms, j, c, u, hn, hpasses, hrests⟩ := exists_passes_rests free n a s
  have hc := count_of_passes h hpasses
  generalize s.execute free n a = q at hrests ⊢
  cases hrests with
  | running hi =>
    show count c ≤ _
    omega
  | finish hi =>
    rw [finish_eq_flushed]
    show count c ≤ _
    omega
  | @abort b i hi ho j | @fault b v i f hi ho hs j =>
    have hb : count b = count c + 1 := by rw [← h.count (u.machine.moment i) c, ho]
    show count b ≤ _
    omega

/-- A run that stops needs no more instructions than it was asked about. -/
theorem execute_of_count_le (h : free.Counts count) {n k : Nat} {r : Except Fault Unit}
    (hn : s.execute free n a = ⟨.stopped r, b, t⟩) (hk : count b ≤ count a + k) :
    s.execute free k a = ⟨.stopped r, b, t⟩ := by
  obtain ⟨ms, j, c, u, -, hpasses, hrests⟩ := exists_passes_rests free n a s
  have hc := count_of_passes h hpasses
  rw [hn] at hrests
  -- The run rests in the same way with as many instructions as are still allowed by `k`.
  have hrest : ms.length ≤ k ∧ Rests free c u (k - ms.length) ⟨.stopped r, b, t⟩ := by
    generalize hq : Report.mk (.stopped r) b t = q at hrests ⊢
    have hb : b = q.notes := congrArg Report.notes hq
    cases hrests with
    | running hi => cases hq
    | finish hi =>
      rw [finish_eq_flushed] at hb
      obtain rfl : b = c := hb
      exact ⟨by omega, .finish hi _⟩
    | @abort d i hi ho =>
      have hproceed := h.proceed (u.machine.moment i) c
      rw [ho] at hproceed
      cases hproceed
    | @fault d v i f hi ho hs =>
      obtain rfl : b = d := hb
      have hd : count b = count c + 1 := by rw [← h.count (u.machine.moment i) c, ho]
      obtain ⟨m, hm⟩ : ∃ m, k - ms.length = m + 1 := ⟨k - ms.length - 1, by omega⟩
      exact ⟨by omega, hm ▸ .fault hi ho hs m⟩
  have hexecute := hpasses.leads.execute (k - ms.length)
  rwa [Nat.add_sub_cancel' hrest.1, hrest.2.execute_eq] at hexecute

/-- A run that used up its instructions has carried them out, and is not at the end of its
program. -/
theorem exists_passes_of_running {n : Nat} (h : s.execute observe n a = ⟨.running, b, t⟩) :
    ∃ (ms : List Moment) (i : Instruction), ms.length = n ∧ Passes observe ms a s b t ∧
      t.machine.current? = some i := by
  obtain ⟨ms, k, c, u, rfl, hpasses, hrests⟩ := exists_passes_rests observe n a s
  rw [h] at hrests
  obtain ⟨rfl, i, hi⟩ := hrests.of_running rfl
  have hreport := hrests.execute_eq
  rw [execute_zero hi] at hreport
  obtain ⟨-, rfl, rfl⟩ := Report.mk.inj hreport
  exact ⟨ms, i, rfl, hpasses, hi⟩

/-- A run that asks its observer more than `limit` times if it stops at all has not stopped after
`limit` instructions. -/
theorem exists_counted_eq_running (h : ∀ (n m : Nat) (r : Except Fault Unit) (t : Session),
    s.counted n = ⟨.stopped r, m, t⟩ → limit < m) :
    ∃ t, s.counted limit = ⟨.running, limit, t⟩ := by
  have hle := count_execute_le Observer.counts_exceeding_none limit 0 s
  rcases hcounted : s.counted limit with ⟨_ | r, m, t⟩
  · obtain ⟨ms, _, hlength, hpasses, -⟩ := exists_passes_of_running hcounted
    have hm := count_of_passes Observer.counts_exceeding_none hpasses
    rw [hlength, id, id, Nat.zero_add] at hm
    exact ⟨t, by rw [hm]⟩
  · have hlt := h limit m r t hcounted
    rw [← counted, hcounted] at hle
    replace hle : m ≤ 0 + limit := hle
    omega

/-- What was printed when the instructions were used up is a beginning of what is printed with more
of them. -/
theorem output_isPrefix_of_running {n fuel : Nat} (h : s.execute observe n a = ⟨.running, b, t⟩)
    (hn : n ≤ fuel) :
    t.console.output <+: (s.execute observe fuel a).session.console.output := by
  obtain ⟨k, rfl⟩ := Nat.exists_eq_add_of_le hn
  rw [execute_add, h]
  exact output_isPrefix_execute observe k b t

/-! ### Limited runs -/

/-- Up to the limit the limited run is the run without the limit. -/
theorem execute_of_limits (h : Observer.Limits limit count free observe) {n : Nat}
    (hn : count a + n ≤ limit) : s.execute observe n a = s.execute free n a := by
  induction n generalizing a s with
  | zero =>
    cases hi : s.machine.current? with
    | none => rw [execute_of_finished hi, execute_of_finished hi]
    | some i => rw [execute_zero hi, execute_zero hi]
  | succ n ih =>
    cases hi : s.machine.current? with
    | none => rw [execute_of_finished hi, execute_of_finished hi]
    | some i =>
      have ho := Observer.eq_proceed h.counts.proceed (s.machine.moment i) a
      have hcount := h.counts.count (s.machine.moment i) a
      have ho' := (h.below (s.machine.moment i) a (by omega)).trans ho
      cases hs : s.step with
      | ok _ t =>
        rw [execute_of_step hi ho' hs, execute_of_step hi ho hs]
        exact ih (by omega)
      | error f t => rw [execute_of_fault hi ho' hs, execute_of_fault hi ho hs]

/-- A run that asks its observer no more often than the limit allows does not notice the limit. -/
theorem execute_of_limits_of_stopped (h : Observer.Limits limit count free observe)
    (ha : count a = 0) {n fuel : Nat} {r : Except Fault Unit}
    (hn : s.execute free n a = ⟨.stopped r, b, t⟩) (hb : count b ≤ limit) (hfuel : limit < fuel) :
    s.execute observe fuel a = ⟨.stopped r, b, t⟩ := by
  obtain ⟨k, rfl⟩ := Nat.exists_eq_add_of_lt hfuel
  have hlimit : s.execute observe limit a = ⟨.stopped r, b, t⟩ :=
    (execute_of_limits h (by omega)).trans (execute_of_count_le h.counts hn (by omega))
  rw [Nat.add_assoc, execute_add, hlimit]

/-- A run that would go on is stopped by the limit, in front of the next instruction. -/
theorem execute_of_limits_of_running (h : Observer.Limits limit count free observe)
    (ha : count a = 0) {fuel : Nat} (hn : s.execute free limit a = ⟨.running, b, t⟩)
    (hfuel : limit < fuel) :
    ∃ i, t.machine.current? = some i ∧ s.execute observe fuel a =
      ⟨.stopped (.error .aborted), (observe (t.machine.moment i) b).2, t⟩ := by
  obtain ⟨k, rfl⟩ := Nat.exists_eq_add_of_lt hfuel
  obtain ⟨ms, i, hlength, hpasses, hi⟩ := exists_passes_of_running hn
  have hb : count b = limit := by rw [count_of_passes h.counts hpasses, ha, hlength, Nat.zero_add]
  have ho : observe (t.machine.moment i) b = (.abort, (observe (t.machine.moment i) b).2) :=
    Prod.ext (h.reached _ _ hb) rfl
  refine ⟨i, hi, ?_⟩
  rw [Nat.add_assoc, execute_add, execute_of_limits h (by omega), hn]
  exact execute_of_abort hi ho k

/-- The run from the command line without a limit is the counted run, with what it traces. -/
theorem exists_execute_observer_eq (o : Options) {n m : Nat} {status : Status}
    (h : s.counted n = ⟨status, m, t⟩) : ∃ trace,
      s.execute (CommandLine.observer { o with maxSteps := none }) n (#[], 0) =
        ⟨status, (trace, m), t⟩ := by
  have hcounts := (CommandLine.limits_observer o 0).counts
  rw [counted_eq_of_counts hcounts (a := (#[], 0)) rfl] at h
  generalize s.execute _ n (#[], 0) = q at h ⊢
  obtain ⟨_, ⟨trace, _⟩, _⟩ := q
  cases h
  exact ⟨trace, rfl⟩

/-- **Limits are exact.** Counting does not change a run. If a run without a limit stops, and has
asked its observer at most `limit` times, then the three ways to limit it leave everything as it is:
the result, the count, the session with its output and its calls, and what is traced. Otherwise the
run without a limit has not stopped after `limit` instructions, and the limited runs are stopped
there, by the same instruction in all three ways: `limit` instructions were carried out, the session
is that of the run without a limit, every flush belongs to an input among these instructions, and
what was printed is a beginning of what is printed without the limit or with a larger one. -/
theorem execute_limited (limit : Nat) (s : Session) :
    (∀ fuel, s.execute Observer.silent fuel () = (s.counted fuel).mapNotes fun _ => ()) ∧
    (∀ (n m : Nat) (r : Except Fault Unit) (t : Session), s.counted n = ⟨.stopped r, m, t⟩ →
      m ≤ limit → ∀ fuel > limit,
        s.execute (Observer.exceeding (some limit)) fuel 0 = ⟨.stopped r, m, t⟩ ∧
        s.execute (Observer.upTo limit none) fuel 0 = ⟨.stopped r, m, t⟩ ∧
        ∀ o : Options, ∃ trace,
          s.execute (CommandLine.observer { o with maxSteps := none }) n (#[], 0) =
            ⟨.stopped r, (trace, m), t⟩ ∧
          s.execute (CommandLine.observer { o with maxSteps := some limit }) fuel (#[], 0) =
            ⟨.stopped r, (trace, m), t⟩) ∧
    ((∀ (n m : Nat) (r : Except Fault Unit) (t : Session), s.counted n = ⟨.stopped r, m, t⟩ →
      limit < m) →
      ∃ (ms : List Moment) (t : Session), ms.length = limit ∧
        Passes Observer.silent ms () s () t ∧ t.machine.isFinished = false ∧
        s.counted limit = ⟨.running, limit, t⟩ ∧
        (∀ fuel > limit,
          s.execute (Observer.exceeding (some limit)) fuel 0 =
            ⟨.stopped (.error .aborted), limit + 1, t⟩ ∧
          s.execute (Observer.upTo limit none) fuel 0 = ⟨.stopped (.error .aborted), limit, t⟩ ∧
          ∀ o : Options, ∃ trace,
            s.execute (CommandLine.observer { o with maxSteps := some limit }) fuel (#[], 0) =
              ⟨.stopped (.error .aborted), (trace, limit + 1), t⟩) ∧
        t.console.transcript.flushes =
          s.console.transcript.flushes + ms.countP (·.instruction == .read) ∧
        (∀ n ≥ limit, t.console.output <+: (s.counted n).session.console.output) ∧
        ∀ limit' ≥ limit, ∀ fuel > limit', t.console.output <+:
          (s.execute (Observer.exceeding (some limit')) fuel 0).session.console.output) := by
  refine ⟨fun fuel => execute_silent_eq_counted fuel s, fun n m r t hn hm fuel hfuel => ?_,
    fun hlong => ?_⟩
  · refine ⟨execute_of_limits_of_stopped (Observer.limits_exceeding limit) rfl hn hm hfuel,
      execute_of_limits_of_stopped (Observer.limits_upTo limit) rfl hn hm hfuel, fun o => ?_⟩
    obtain ⟨trace, htrace⟩ := exists_execute_observer_eq o hn
    exact ⟨trace, htrace, execute_of_limits_of_stopped (CommandLine.limits_observer o limit) rfl
      htrace hm hfuel⟩
  · obtain ⟨t, hcounted⟩ := exists_counted_eq_running hlong
    have hsilent := execute_silent_eq_counted limit s
    rw [hcounted] at hsilent
    obtain ⟨ms, i, hms, hpasses, hi⟩ := exists_passes_of_running hsilent
    refine ⟨ms, t, hms, hpasses, ?_, hcounted, fun fuel hfuel => ⟨?_, ?_, fun o => ?_⟩,
      hpasses.flushes_transcript, fun n hn => output_isPrefix_of_running hcounted hn,
      fun limit' hlimit' fuel hfuel => ?_⟩
    · rw [Bool.eq_false_iff, ne_eq, ← Machine.current?_eq_none_iff, hi]
      exact Option.some_ne_none i
    · obtain ⟨j, -, h⟩ :=
        execute_of_limits_of_running (Observer.limits_exceeding limit) rfl hcounted hfuel
      rw [h, Observer.exceeding_self]
    · obtain ⟨j, -, h⟩ :=
        execute_of_limits_of_running (Observer.limits_upTo limit) rfl hcounted hfuel
      rw [h, Observer.upTo_self]
    · obtain ⟨trace, htrace⟩ := exists_execute_observer_eq o hcounted
      obtain ⟨j, -, h⟩ :=
        execute_of_limits_of_running (CommandLine.limits_observer o limit) rfl htrace hfuel
      obtain ⟨trace', ho⟩ := CommandLine.observer_self o (t.machine.moment j) trace limit
      exact ⟨trace', by rw [h, ho]⟩
    · have hlimited := execute_of_limits (s := s) (a := 0) (n := limit)
        (Observer.limits_exceeding limit') (by simpa using hlimit')
      exact output_isPrefix_of_running (hlimited.trans hcounted) (by omega)

/-- Prints two cells. -/
def printsTwice : Session where
  machine := { program := #[.print, .print], tape := (Tape.new 1 .error).put 0 65 }
  console := {}

/-- With the limit 2 the run comes to its end and flushes; the limit 1 cuts it off behind the first
output, and nothing is flushed. -/
theorem execute_limited_printsTwice :
    (printsTwice.counted 2 = ⟨.stopped (.ok ()), 2, (printsTwice.counted 2).session⟩ ∧
      printsTwice.execute (Observer.exceeding (some 2)) 3 0 = printsTwice.counted 2 ∧
      (printsTwice.counted 2).session.console.output = [65, 65]) ∧
    ∃ t, printsTwice.execute (Observer.exceeding (some 1)) 2 0 =
        ⟨.stopped (.error .aborted), 2, t⟩ ∧
      t.console.output = [65] ∧ t.console.transcript.flushes = 0 := by
  have hcounted : printsTwice.counted 2 =
      ⟨.stopped (.ok ()), 2, (printsTwice.counted 2).session⟩ := rfl
  have hrunning : (printsTwice.counted 1).status = .running := rfl
  obtain ⟨-, hshort, -⟩ := execute_limited 2 printsTwice
  obtain ⟨-, -, hlong⟩ := execute_limited 1 printsTwice
  refine ⟨⟨hcounted, ?_, rfl⟩, ?_⟩
  · rw [(hshort 2 2 _ _ hcounted (Nat.le_refl 2) 3 (by omega)).1, ← hcounted]
  · obtain ⟨ms, t, -, -, -, ht, hlimited, hflushes, -, -⟩ := hlong fun n m r t hn => by
      refine Nat.not_le.1 fun hm => ?_
      have h : printsTwice.counted 1 = ⟨.stopped r, m, t⟩ :=
        execute_of_count_le Observer.counts_exceeding_none hn (by simpa using hm)
      rw [h] at hrunning
      cases hrunning
    obtain rfl : (printsTwice.counted 1).session = t := by rw [ht]
    exact ⟨_, (hlimited 2 (by omega)).1, rfl, rfl⟩

end Session

end PhraseTape
