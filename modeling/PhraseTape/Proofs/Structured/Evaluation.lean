import PhraseTape.Proofs.Run.Store

/-!
# Structured programs

A structured program is a list of items: single instructions, and loops with a body of single
instructions. Its evaluation has no counter and no jumps. A loop is carried out as long as the cell
under the pointer is not zero when it is looked at, before the first round and after every round;
the first fault ends the evaluation; and an evaluation without a fault is closed by one flush.

The evaluation is given item by item. `Continues` follows it instruction by instruction, with the
items that are still to come, and agrees with it.

## Main definitions

* `PlainInstruction`, `Item` : the instructions that are no loop instructions, and the items.
* `flatten` : the program in which loops are written with their loop instructions.
* `Loops`, `Item.Yields`, `Yields` : what a loop, an item and a list of items make of a store.
* `Evaluates` : an evaluation with its end.
* `Continues` : the evaluation, one instruction at a time.

## Main results

* `evaluates_iff_continues` : the two ways of following an evaluation agree.
-/

namespace PhraseTape

/-- An instruction that is no loop instruction. -/
abbrev PlainInstruction := { i : Instruction // i ≠ .loopStart ∧ i ≠ .loopEnd }

/-- An item of a structured program. -/
inductive Item where
  /-- A single instruction. -/
  | single (i : PlainInstruction)
  /-- A loop with its body. -/
  | loop (body : List PlainInstruction)

/-- The instructions of an item: a loop is written between a loop start and a loop end. -/
def Item.code : Item → List Instruction
  | .single i => [i.1]
  | .loop body => .loopStart :: (body.map Subtype.val ++ [.loopEnd])

/-- The program of a list of items. -/
def flatten (items : List Item) : Program :=
  (items.flatMap Item.code).toArray

theorem Store.land_plain (i : PlainInstruction) (s : Store) (p : Program) (n : Nat) :
    s.land p i.1 n = n := by
  rw [Store.land, Store.jumps_of_not_loop i.2.1 i.2.2, if_neg Bool.false_ne_true]

/-! ### Evaluation -/

/-- The instructions one after another, up to the first fault. -/
def Store.carryOutAll : List PlainInstruction → Store → EStateM.Result Fault Store Unit
  | [], s => .ok () s
  | i :: body, s =>
    match s.carryOut i.1 with
    | .ok () t => carryOutAll body t
    | .error f t => .error f t

/-- While the cell under the pointer is not zero, the body is carried out. -/
inductive Loops (body : List PlainInstruction) : Store → EStateM.Result Fault Store Unit → Prop
  | unreadable {s : Store} {e : AddressError} (h : s.cell = .error e) :
      Loops body s (.error (.address e) s)
  | done {s : Store} (h : s.cell = .ok 0) : Loops body s (.ok () s)
  | fault {s t : Store} {v : Cell} {f : Fault} (h : s.cell = .ok v) (hv : v ≠ 0)
      (hb : s.carryOutAll body = .error f t) : Loops body s (.error f t)
  | again {s t : Store} {v : Cell} {o : EStateM.Result Fault Store Unit} (h : s.cell = .ok v)
      (hv : v ≠ 0) (hb : s.carryOutAll body = .ok () t) (ht : Loops body t o) : Loops body s o

/-- What an item makes of a store. -/
def Item.Yields : Item → Store → EStateM.Result Fault Store Unit → Prop
  | .single i, s, o => s.carryOut i.1 = o
  | .loop body, s, o => Loops body s o

/-- What the items make of a store, one after another, up to the first fault. -/
inductive Yields : List Item → Store → EStateM.Result Fault Store Unit → Prop
  | nil (s : Store) : Yields [] s (.ok () s)
  | cons {item : Item} {items : List Item} {s t : Store} {o : EStateM.Result Fault Store Unit}
      (h : item.Yields s (.ok () t)) (ht : Yields items t o) : Yields (item :: items) s o
  | fault {item : Item} {items : List Item} {s t : Store} {f : Fault}
      (h : item.Yields s (.error f t)) : Yields (item :: items) s (.error f t)

/-- An evaluation ends with a fault of its items, or with a flush behind the last of them. -/
inductive Evaluates (items : List Item) (s : Store) : Except Fault Unit → Store → Prop
  | completed {t : Store} (h : Yields items s (.ok () t)) :
      Evaluates items s t.finish.1 t.finish.2
  | failed {f : Fault} {t : Store} (h : Yields items s (.error f t)) :
      Evaluates items s (.error f) t

/-! ### One instruction at a time -/

/-- The evaluation of the items that are still to come. A round of a loop puts the body in front
of the loop. -/
inductive Continues : List Item → Store → Except Fault Unit → Store → Prop
  | finish (s : Store) : Continues [] s s.finish.1 s.finish.2
  | single {i : PlainInstruction} {items : List Item} {s t u : Store} {r : Except Fault Unit}
      (h : s.carryOut i.1 = .ok () t) (ht : Continues items t r u) :
      Continues (.single i :: items) s r u
  | fault {i : PlainInstruction} {items : List Item} {s t : Store} {f : Fault}
      (h : s.carryOut i.1 = .error f t) : Continues (.single i :: items) s (.error f) t
  | unreadable {body : List PlainInstruction} {items : List Item} {s : Store} {e : AddressError}
      (h : s.cell = .error e) : Continues (.loop body :: items) s (.error (.address e)) s
  | leave {body : List PlainInstruction} {items : List Item} {s u : Store}
      {r : Except Fault Unit} (h : s.cell = .ok 0) (hs : Continues items s r u) :
      Continues (.loop body :: items) s r u
  | enter {body : List PlainInstruction} {items : List Item} {s u : Store} {v : Cell}
      {r : Except Fault Unit} (h : s.cell = .ok v) (hv : v ≠ 0)
      (hs : Continues (body.map .single ++ .loop body :: items) s r u) :
      Continues (.loop body :: items) s r u

/-! #### From items to instructions -/

/-- The evaluation of `items` begins with a part that leaves `o`, and goes on with `rest` behind
it. -/
def BeginsWith (items rest : List Item) (s : Store) (o : EStateM.Result Fault Store Unit) : Prop :=
  match o with
  | .ok () t => ∀ r u, Continues rest t r u → Continues items s r u
  | .error f t => Continues items s (.error f) t

theorem beginsWith_body (body : List PlainInstruction) (rest : List Item) (s : Store) :
    BeginsWith (body.map .single ++ rest) rest s (s.carryOutAll body) := by
  induction body generalizing s with
  | nil => exact fun r u h => h
  | cons i body ih =>
    rw [Store.carryOutAll]
    cases hi : s.carryOut i.1 with
    | error f t => exact .fault hi
    | ok _ t =>
      have ht := ih t
      simp only
      cases hb : t.carryOutAll body with
      | ok _ w =>
        rw [hb] at ht
        exact fun r u hu => .single hi (ht r u hu)
      | error f w =>
        rw [hb] at ht
        exact .single hi ht

/-- What follows a loop is reached after its rounds, unless one of them fails. -/
theorem Loops.beginsWith {body : List PlainInstruction} {s : Store}
    {o : EStateM.Result Fault Store Unit} (h : Loops body s o) (rest : List Item) :
    BeginsWith (.loop body :: rest) rest s o := by
  induction h with
  | unreadable h => exact .unreadable h
  | done h => exact fun r u hu => .leave h hu
  | @fault s t v f h hv hb =>
    have hbody := beginsWith_body body (.loop body :: rest) s
    rw [hb] at hbody
    exact .enter h hv hbody
  | @again s t v o h hv hb _ ih =>
    have hbody := beginsWith_body body (.loop body :: rest) s
    rw [hb] at hbody
    cases o with
    | ok _ w => exact fun r u hu => .enter h hv (hbody r u (ih r u hu))
    | error f w => exact .enter h hv (hbody _ _ ih)

theorem Item.Yields.beginsWith {item : Item} {s : Store} {o : EStateM.Result Fault Store Unit}
    (h : item.Yields s o) (rest : List Item) : BeginsWith (item :: rest) rest s o := by
  cases item with
  | single i =>
    cases o with
    | ok _ t => exact fun r u hu => .single h hu
    | error f t => exact .fault h
  | loop body => exact Loops.beginsWith h rest

theorem Yields.beginsWith {items : List Item} {s : Store} {o : EStateM.Result Fault Store Unit}
    (h : Yields items s o) : BeginsWith items [] s o := by
  induction h with
  | nil s => exact fun r u h => h
  | @cons item items s t o hi _ ih =>
    have hitem := Item.Yields.beginsWith hi items
    cases o with
    | ok _ u => exact fun r w hw => hitem r w (ih r w hw)
    | error f u => exact hitem _ _ ih
  | fault hi => exact Item.Yields.beginsWith hi _

/-! #### From instructions to items -/

/-- An evaluation fails in its first item, or goes on behind it. -/
theorem evaluates_cons_iff {item : Item} {items : List Item} {s u : Store}
    {r : Except Fault Unit} : Evaluates (item :: items) s r u ↔
      (∃ t, item.Yields s (.ok () t) ∧ Evaluates items t r u) ∨
        ∃ f, item.Yields s (.error f u) ∧ r = .error f := by
  constructor
  · intro h
    cases h with
    | completed h =>
      cases h with
      | cons hi h => exact .inl ⟨_, hi, .completed h⟩
    | failed h =>
      cases h with
      | cons hi h => exact .inl ⟨_, hi, .failed h⟩
      | fault hi => exact .inr ⟨_, hi, rfl⟩
  · rintro (⟨t, hi, h⟩ | ⟨f, hi, rfl⟩)
    · cases h with
      | completed h => exact .completed (.cons hi h)
      | failed h => exact .failed (.cons hi h)
    · exact .failed (.fault hi)

/-- A body in front of other items fails, or is carried out and left behind. -/
theorem Evaluates.body {body : List PlainInstruction} {items : List Item} {s u : Store}
    {r : Except Fault Unit} (h : Evaluates (body.map .single ++ items) s r u) :
    (∃ t, s.carryOutAll body = .ok () t ∧ Evaluates items t r u) ∨
      ∃ f, s.carryOutAll body = .error f u ∧ r = .error f := by
  induction body generalizing s with
  | nil => exact .inl ⟨s, rfl, h⟩
  | cons i body ih =>
    rcases evaluates_cons_iff.1 h with ⟨t, hi, h⟩ | ⟨f, hi, rfl⟩
    · have hi : s.carryOut i.1 = .ok () t := hi
      have hall : s.carryOutAll (i :: body) = t.carryOutAll body := by
        rw [Store.carryOutAll, hi]
      rw [hall]
      exact ih h
    · have hi : s.carryOut i.1 = .error f u := hi
      exact .inr ⟨f, by rw [Store.carryOutAll, hi], rfl⟩

/-- A round of a loop in front of the loop is a round of the loop. -/
theorem Evaluates.round {body : List PlainInstruction} {items : List Item} {s t u : Store}
    {v : Cell} {r : Except Fault Unit} (h : Evaluates (.loop body :: items) t r u)
    (hs : s.cell = .ok v) (hv : v ≠ 0) (hb : s.carryOutAll body = .ok () t) :
    Evaluates (.loop body :: items) s r u := by
  rcases evaluates_cons_iff.1 h with ⟨w, hi, h⟩ | ⟨f, hi, rfl⟩
  · exact evaluates_cons_iff.2 (.inl ⟨w, Loops.again hs hv hb hi, h⟩)
  · exact evaluates_cons_iff.2 (.inr ⟨f, Loops.again hs hv hb hi, rfl⟩)

theorem Continues.evaluates {items : List Item} {s u : Store} {r : Except Fault Unit}
    (h : Continues items s r u) : Evaluates items s r u := by
  induction h with
  | finish s => exact .completed (.nil s)
  | single h _ ih => exact evaluates_cons_iff.2 (.inl ⟨_, h, ih⟩)
  | fault h => exact .failed (.fault h)
  | unreadable h => exact .failed (.fault (Loops.unreadable h))
  | leave h _ ih => exact evaluates_cons_iff.2 (.inl ⟨_, Loops.done h, ih⟩)
  | enter h hv _ ih =>
    rcases ih.body with ⟨t, hb, ht⟩ | ⟨f, hb, rfl⟩
    · exact ht.round h hv hb
    · exact .failed (.fault (Loops.fault h hv hb))

/-- **The two ways of following an evaluation agree.** -/
theorem evaluates_iff_continues {items : List Item} {s u : Store} {r : Except Fault Unit} :
    Evaluates items s r u ↔ Continues items s r u := by
  refine ⟨fun h => ?_, Continues.evaluates⟩
  cases h with
  | completed h => exact h.beginsWith _ _ (.finish _)
  | failed h => exact h.beginsWith

end PhraseTape
