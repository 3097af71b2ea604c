import PhraseTape.Proofs.Run.Course
import PhraseTape.Proofs.Structured.Evaluation

/-!
# Structured programs are run by jumps

The program of a structured program is run as the structured program is evaluated. The invariant
is that the items still to come are laid down in the program from the counter on, where the counter
of a run inside a loop may also be at the loop end: both loop instructions make the same test, and
either way the run goes on at the body or behind the loop. One instruction of the run is then one
step of the evaluation.

## Main definitions

* `Program.Holds` : a list of instructions is laid down at an index.
* `Program.Pending` : the items that a run at an index has still to carry out.

## Main results

* `Program.Holds.land_loop`, `Program.Pending.loop_inv` : where the two tests of a loop lead, and
  what is pending there.
* `Continues.ends`, `continues_of_ends` : one step of the evaluation is one instruction of the run.
* `execute_flatten_iff_evaluates` : runs of structured programs and their evaluations.
-/

namespace PhraseTape

namespace Program

/-- The instructions are laid down in the program from the index on. -/
def Holds (p : Program) : Nat → List Instruction → Prop
  | _, [] => True
  | n, i :: code => p[n]? = some i ∧ p.Holds (n + 1) code

variable {p : Program} {m n : Nat} {code code' : List Instruction}

theorem holds_append : p.Holds n (code ++ code') ↔
    p.Holds n code ∧ p.Holds (n + code.length) code' := by
  induction code generalizing n with
  | nil => simp [Holds]
  | cons i code ih =>
    rw [List.cons_append, Holds, Holds, ih, List.length_cons, and_assoc, Nat.add_assoc,
      Nat.add_comm 1]

/-- Every instruction of a stretch of code is one of those laid down there. -/
theorem Holds.exists_mem (h : p.Holds n code) {k : Nat} (hnk : n ≤ k)
    (hk : k < n + code.length) : ∃ i ∈ code, p[k]? = some i := by
  induction code generalizing n with
  | nil => exact absurd hk (Nat.not_lt.2 hnk)
  | cons i code ih =>
    obtain ⟨hi, hcode⟩ := h
    rw [List.length_cons] at hk
    rcases Nat.eq_or_lt_of_le hnk with rfl | hlt
    · exact ⟨i, List.mem_cons_self, hi⟩
    · obtain ⟨j, hj, hk⟩ := ih hcode hlt (by omega)
      exact ⟨j, List.mem_cons_of_mem i hj, hk⟩

/-- The code behind other code is laid down behind it. -/
theorem holds_toArray (front code : List Instruction) :
    Holds (front ++ code).toArray front.length code := by
  induction code generalizing front with
  | nil => trivial
  | cons i code ih =>
    have h := ih (front ++ [i])
    rw [List.append_assoc, List.singleton_append, List.length_append] at h
    refine ⟨?_, h⟩
    rw [List.getElem?_toArray, List.getElem?_append_right (Nat.le_refl _), Nat.sub_self]
    rfl

/-! ### Loops -/

variable {body : List PlainInstruction}

theorem Holds.loop (h : p.Holds m (Item.code (.loop body))) :
    p[m]? = some .loopStart ∧ p.Holds (m + 1) (body.map Subtype.val) ∧
      p[m + body.length + 1]? = some .loopEnd := by
  obtain ⟨hstart, h⟩ := h
  obtain ⟨hbody, hend, -⟩ := holds_append.1 h
  rw [List.length_map, Nat.add_right_comm] at hend
  exact ⟨hstart, hbody, hend⟩

/-- Inside the body of a loop there is no loop instruction. -/
theorem Holds.plain (h : p.Holds n (body.map Subtype.val)) {k : Nat} (hnk : n ≤ k)
    (hk : k < n + body.length) : p[k]? ≠ some .loopStart ∧ p[k]? ≠ some .loopEnd := by
  obtain ⟨i, hi, hk⟩ := h.exists_mem hnk (by rwa [List.length_map])
  obtain ⟨j, -, rfl⟩ := List.mem_map.1 hi
  rw [hk, ne_eq, ne_eq, Option.some.injEq, Option.some.injEq]
  exact j.2

/-- The jump over a loop leads to its end. -/
theorem Holds.loopEndFrom (h : p.Holds m (Item.code (.loop body))) :
    p.loopEndFrom m = m + body.length + 1 := by
  obtain ⟨hstart, hbody, hend⟩ := h.loop
  refine loopEndFrom_eq (by omega) hend fun k hmk hk => ?_
  rcases Nat.eq_or_lt_of_le hmk with rfl | hlt
  · rw [hstart]
    simp
  · exact (hbody.plain hlt (by omega)).2

/-- The jump back from the end of a loop leads to its start. -/
theorem Holds.loopStartTo (h : p.Holds m (Item.code (.loop body))) :
    p.loopStartTo (m + body.length + 1) = m := by
  obtain ⟨hstart, hbody, hend⟩ := h.loop
  refine loopStartTo_eq (by omega) hstart fun k hmk hk => ?_
  rcases Nat.eq_or_lt_of_le hk with rfl | hlt
  · rw [hend]
    simp
  · exact (hbody.plain hmk (by omega)).1

/-- **The two tests of a loop.** At its start and at its end a loop makes the same test: on a zero
the run goes on behind the loop, and on any other value at the body. -/
theorem Holds.land_loop (h : p.Holds m (Item.code (.loop body)))
    (hn : n = m ∨ n = m + body.length + 1) : ∃ i, p[n]? = some i ∧
      (i = .loopStart ∨ i = .loopEnd) ∧ ∀ (s : Store) (v : Cell), s.cell = .ok v →
        s.land p i n + 1 = if v = 0 then m + body.length + 2 else m + 1 := by
  rcases hn with rfl | rfl
  · refine ⟨.loopStart, h.loop.1, .inl rfl, fun s v hv => ?_⟩
    simp only [Store.land, Store.jumps, Store.cellIs, hv, target, h.loopEndFrom, beq_true,
      Cell.isZero_iff]
    split <;> rfl
  · refine ⟨.loopEnd, h.loop.2.2, .inr rfl, fun s v hv => ?_⟩
    simp only [Store.land, Store.jumps, Store.cellIs, hv, target, h.loopStartTo, beq_false,
      Bool.not_eq_true', Bool.eq_false_iff, ne_eq, Cell.isZero_iff]
    split <;> simp_all

/-! ### The items still to come -/

/-- A run at the index has still to carry out the items, and then to finish. -/
inductive Pending (p : Program) : Nat → List Item → Prop
  | finish {n : Nat} (h : p.size ≤ n) : Pending p n []
  | single {n : Nat} {i : PlainInstruction} {items : List Item} (h : p[n]? = some i.1)
      (hrest : Pending p (n + 1) items) : Pending p n (.single i :: items)
  | loop {m n : Nat} {body : List PlainInstruction} {items : List Item}
      (h : p.Holds m (Item.code (.loop body))) (hn : n = m ∨ n = m + body.length + 1)
      (hrest : Pending p (m + body.length + 2) items) : Pending p n (.loop body :: items)

/-- The items laid down to the end of a program are pending. -/
theorem pending_of_holds {items : List Item} (h : p.Holds n (items.flatMap Item.code))
    (hn : n + (items.flatMap Item.code).length = p.size) : p.Pending n items := by
  induction items generalizing n with
  | nil => exact .finish (Nat.le_of_eq hn.symm)
  | cons item items ih =>
    rw [List.flatMap_cons] at h hn
    obtain ⟨hitem, hrest⟩ := holds_append.1 h
    rw [List.length_append, ← Nat.add_assoc] at hn
    have hrest := ih hrest hn
    cases item with
    | single i => exact .single hitem.1 hrest
    | loop body =>
      refine .loop hitem (.inl rfl) ?_
      simpa [Item.code, Nat.add_assoc] using hrest

theorem pending_flatten (items : List Item) : (flatten items).Pending 0 items :=
  pending_of_holds (holds_toArray [] _) (by simp [flatten])

/-- A body laid down in front of pending items is pending with them. -/
theorem pending_body_append {items : List Item} (h : p.Holds n (body.map Subtype.val))
    (hrest : p.Pending (n + body.length) items) :
    p.Pending n (body.map .single ++ items) := by
  induction body generalizing n with
  | nil => exact hrest
  | cons i body ih =>
    refine .single h.1 (ih h.2 ?_)
    rwa [Nat.add_assoc, Nat.add_comm 1]

/-! ### One instruction -/

namespace Pending

variable {i : Instruction} {items : List Item} {s : Store} {t : Session}

theorem lt_size {item : Item} (h : p.Pending n (item :: items)) : n < p.size := by
  cases h with
  | single hi _ => exact lt_size_of_getElem? hi
  | loop hcode hn _ =>
    obtain ⟨i, hi, -⟩ := hcode.land_loop hn
    exact lt_size_of_getElem? hi

theorem size_le (h : p.Pending n []) : p.size ≤ n := by
  obtain ⟨hn⟩ := h
  exact hn

/-- Behind a single instruction the other items are pending. -/
theorem single_inv {j : PlainInstruction} (h : p.Pending n (.single j :: items)) :
    p[n]? = some j.1 ∧ p.Pending (n + 1) items := by
  obtain - | ⟨hi, hrest⟩ := h
  exact ⟨hi, hrest⟩

/-- Where a loop is pending one of its two tests is made. Behind the place to which the test leads
the other items are pending if the loop is left, and the body in front of the loop if it is
entered. -/
theorem loop_inv (h : p.Pending n (.loop body :: items)) :
    ∃ i, p[n]? = some i ∧ (i = .loopStart ∨ i = .loopEnd) ∧
      ∀ (s : Store) (v : Cell), s.cell = .ok v →
        (v = 0 → p.Pending (s.land p i n + 1) items) ∧
        (v ≠ 0 → p.Pending (s.land p i n + 1) (body.map .single ++ .loop body :: items)) := by
  obtain - | - | ⟨hcode, hn, hrest⟩ := h
  obtain ⟨i, hi, hloop, hland⟩ := hcode.land_loop hn
  refine ⟨i, hi, hloop, fun s v hs => ?_⟩
  rw [hland s v hs]
  refine ⟨fun hv => ?_, fun hv => ?_⟩
  · rwa [if_pos hv]
  · rw [if_neg hv]
    exact pending_body_append hcode.loop.2.1 (.loop hcode (.inr (by omega)) hrest)

/-- An instruction that fails is a fault of the evaluation. -/
theorem continues_of_carryOut_error {f : Fault} {u : Store} (h : p.Pending n items)
    (hi : p[n]? = some i) (hs : s.carryOut i = .error f u) : Continues items s (.error f) u := by
  match items, h with
  | [], h => exact absurd (lt_size_of_getElem? hi) (Nat.not_lt.2 h.size_le)
  | .single j :: items, h =>
    obtain rfl := Option.some.inj (hi.symm.trans h.single_inv.1)
    exact .fault hs
  | .loop body :: items, h =>
    obtain ⟨j, hj, hloop, -⟩ := h.loop_inv
    obtain rfl := Option.some.inj (hi.symm.trans hj)
    cases hcell : s.cell with
    | ok v =>
      rw [Store.carryOut_loop_of_ok hcell hloop] at hs
      cases hs
    | error e =>
      rw [Store.carryOut_loop_of_error hcell hloop] at hs
      cases hs
      exact .unreadable hcell

/-- An instruction that succeeds is a step of the evaluation. -/
theorem continues_of_carryOut_ok {u : Store} (h : p.Pending n items) (hi : p[n]? = some i)
    (hs : s.carryOut i = .ok () u) :
    ∃ items', p.Pending (s.land p i n + 1) items' ∧
      ∀ r w, Continues items' u r w → Continues items s r w := by
  match items, h with
  | [], h => exact absurd (lt_size_of_getElem? hi) (Nat.not_lt.2 h.size_le)
  | .single j :: items, h =>
    obtain ⟨hj, hrest⟩ := h.single_inv
    obtain rfl := Option.some.inj (hi.symm.trans hj)
    rw [Store.land_plain]
    exact ⟨items, hrest, fun r w hw => .single hs hw⟩
  | .loop body :: items, h =>
    obtain ⟨j, hj, hloop, hgo⟩ := h.loop_inv
    obtain rfl := Option.some.inj (hi.symm.trans hj)
    cases hcell : s.cell with
    | error e =>
      rw [Store.carryOut_loop_of_error hcell hloop] at hs
      cases hs
    | ok v =>
      rw [Store.carryOut_loop_of_ok hcell hloop] at hs
      cases hs
      obtain ⟨hleave, henter⟩ := hgo s v hcell
      by_cases hv : v = 0
      · subst hv
        exact ⟨items, hleave rfl, fun r w hw => .leave hcell hw⟩
      · exact ⟨_, henter hv, fun r w hw => .enter hcell hv hw⟩

end Pending

end Program

/-! ### Runs and evaluations -/

section Simulation

open Session

variable {σ : Type} {observe : Observer σ} (hobserve : ∀ m a, (observe m a).1 = .proceed)

include hobserve

/-- A run goes on behind an instruction that succeeds. -/
theorem Store.ends_of_carryOut_ok {p : Program} {n : Nat} {i : Instruction} {s t u : Store}
    {r : Except Fault Unit} (hi : p[n]? = some i) (hs : s.carryOut i = .ok () t)
    (h : ∀ a, ∃ b c, Ends observe a (t.within p (s.land p i n + 1)) r b (u.within p c)) (a : σ) :
    ∃ b c, Ends observe a (s.within p n) r b (u.within p c) := by
  obtain ⟨b, c, h⟩ := h (observe ((s.within p n).machine.moment i) a).2
  exact ⟨b, c, .step hi (Observer.eq_proceed hobserve ..) (by rw [step_within hi, hs]) h⟩

/-- A run ends with an instruction that fails. -/
theorem Store.ends_of_carryOut_error {p : Program} {n : Nat} {i : Instruction} {s t : Store}
    {f : Fault} (hi : p[n]? = some i) (hs : s.carryOut i = .error f t) (a : σ) :
    ∃ b c, Ends observe a (s.within p n) (.error f) b (t.within p c) :=
  ⟨_, n, .fault hi (Observer.eq_proceed hobserve ..) (by rw [step_within hi, hs])⟩

/-- An evaluation is followed by the run of every program in which its items are pending. -/
theorem Continues.ends {items : List Item} {s u : Store} {r : Except Fault Unit}
    (h : Continues items s r u) {p : Program} {n : Nat} (hp : p.Pending n items) (a : σ) :
    ∃ b c, Ends observe a (s.within p n) r b (u.within p c) := by
  induction h generalizing n a with
  | finish s =>
    refine ⟨a, n, .finish ?_ (s.finish_within a p n)⟩
    rw [Store.current?_within, Array.getElem?_eq_none hp.size_le]
  | @single i items s t u r hs _ ih =>
    obtain ⟨hi, hrest⟩ := hp.single_inv
    refine Store.ends_of_carryOut_ok hobserve hi hs ?_ a
    rw [Store.land_plain]
    exact ih hrest
  | fault hs => exact Store.ends_of_carryOut_error hobserve hp.single_inv.1 hs a
  | unreadable hs =>
    obtain ⟨i, hi, hloop, -⟩ := hp.loop_inv
    exact Store.ends_of_carryOut_error hobserve hi (Store.carryOut_loop_of_error hs hloop) a
  | leave hs _ ih =>
    obtain ⟨i, hi, hloop, hgo⟩ := hp.loop_inv
    have hstep := Store.carryOut_loop_of_ok hs hloop
    exact Store.ends_of_carryOut_ok hobserve hi hstep (ih ((hgo _ _ hs).1 rfl)) a
  | enter hs hv _ ih =>
    obtain ⟨i, hi, hloop, hgo⟩ := hp.loop_inv
    have hstep := Store.carryOut_loop_of_ok hs hloop
    exact Store.ends_of_carryOut_ok hobserve hi hstep (ih ((hgo _ _ hs).2 hv)) a

/-- A run of a program in which items are pending follows their evaluation. -/
theorem continues_of_ends {a b : σ} {s t : Session} {r : Except Fault Unit}
    (h : Ends observe a s r b t) {items : List Item}
    (hp : s.machine.program.Pending s.machine.counter items) :
    Continues items s.store r t.store := by
  induction h generalizing items with
  | @finish a s t r hi hs =>
    cases items with
    | nil =>
      cases (s.store.finish_within a s.machine.program s.machine.counter).symm.trans hs
      exact .finish s.store
    | cons item items =>
      have hge := (Machine.isFinished_iff _).1 ((Machine.current?_eq_none_iff _).1 hi)
      exact absurd hp.lt_size (Nat.not_lt.2 hge)
  | @abort a b s i hi ho =>
    rw [Observer.eq_proceed hobserve] at ho
    cases ho
  | @fault a b s t i f hi ho hs =>
    obtain ⟨u, hc, rfl⟩ := Store.carryOut_of_step_error (s := s.store) hi hs
    exact hp.continues_of_carryOut_error hi hc
  | @step a b c s t u i r hi ho hs _ ih =>
    obtain ⟨w, hc, rfl⟩ := Store.carryOut_of_step_ok (s := s.store) hi hs
    obtain ⟨items', hp', hcont⟩ := hp.continues_of_carryOut_ok hi hc
    exact hcont r u.store (ih hp')

end Simulation

/-- **Structured programs are run by jumps.** Let the observer never stop a run. The program of
the items, run from its first instruction on any store, ends with a result and a store exactly
when the evaluation of the items does: with the same tape and pointer, the same reader and writer,
and the same calls made to them. -/
theorem execute_flatten_iff_evaluates {σ : Type} {observe : Observer σ}
    (hobserve : ∀ m a, (observe m a).1 = .proceed) (notes : σ) (items : List Item) (s t : Store)
    (r : Except Fault Unit) :
    (∃ fuel notes' u, (s.within (flatten items) 0).execute observe fuel notes =
      ⟨.stopped r, notes', u⟩ ∧ u.store = t) ↔ Evaluates items s r t := by
  rw [evaluates_iff_continues]
  constructor
  · rintro ⟨fuel, notes', u, h, rfl⟩
    exact continues_of_ends hobserve (Session.ends_of_execute h) (Program.pending_flatten items)
  · intro h
    obtain ⟨b, c, h⟩ := h.ends hobserve (Program.pending_flatten items) notes
    obtain ⟨fuel, h⟩ := h.execute
    exact ⟨fuel, b, _, h, rfl⟩

/-- Counts a cell up once, and down again in a loop. -/
def countdown : List Item :=
  [.single ⟨.change .plus "이구우욱", by decide⟩, .loop [⟨.change .minus "이구구국", by decide⟩]]

theorem evaluates_countdown :
    (∀ m a, (Observer.silent m a).1 = .proceed) ∧
      Evaluates countdown ⟨Tape.new 1 .error, 0, .utf8, {}⟩ (.ok ())
        ⟨Tape.new 1 .error, 0, .utf8, { transcript := #[.flushed none] }⟩ := by
  have hsilent : ∀ m a, (Observer.silent m a).1 = .proceed := fun _ _ => rfl
  refine ⟨hsilent, (execute_flatten_iff_evaluates hsilent () _ _ _ _).1 ⟨4, (), ?_, ?_, ?_⟩⟩
  · exact Store.within ⟨Tape.new 1 .error, 0, .utf8, { transcript := #[.flushed none] }⟩
      (flatten countdown) 4
  · rfl
  · rfl

end PhraseTape
