import Mathlib.Data.Int.ModEq
import Mathlib.Data.List.Induction
import PhraseTape.Tape

/-!
# A tape as the log of what was written to it

A fresh tape can be forgotten for the log of the writes to it. A write names a cell or is refused,
which depends on its address, the size and the policy only, and reading and testing a cell are
refused for the same addresses. What a cell holds is found by going back in the log, through the
writes that name the cell: what was added is summed up to the last value that was set, or to the
start of the log, where every cell is zero.

## Main definitions

* `Change`, `Change.worth` : what is done to a cell, and what a cell is worth after that.
* `Write`, `Tape.write`, `Tape.after` : a write through an address, and the tape left by several,
  where those that are refused leave no trace.
* `Tape.changesAt` : the part of the log that names a cell.

## Main results

* `Tape.write_eq_error_iff`, `Tape.get_eq_error_iff` : which accesses are refused.
* `Tape.cell_attempt` : one write changes one cell.
* `Tape.cell_after_new` : a cell against the log.
* `Tape.after_new_refines` : every access to a tape, told by the log.
-/

namespace PhraseTape

/-- What is done to a cell. -/
inductive Change where
  /-- The cell is given a value. -/
  | set (v : Cell)
  /-- A value is added to the cell. -/
  | add (d : Cell)
  deriving DecidableEq, Repr

namespace Change

/-- The cell after a change. -/
def apply : Change → Cell → Cell
  | .set v, _ => v
  | .add d, c => c + d

/-- What a cell that started at zero is worth after some changes, the latest of which comes first:
the last value that was set, and everything that was added since. -/
def worth : List Change → ℤ
  | [] => 0
  | .set v :: _ => v.toNat
  | .add d :: earlier => worth earlier + d.toNat

/-- One change more is applied to what the cell was worth before. -/
theorem ofInt_worth_cons (change : Change) (earlier : List Change) :
    Cell.ofInt (worth (change :: earlier)) = change.apply (Cell.ofInt (worth earlier)) := by
  cases change with
  | set v => exact Cell.ofInt_toNat v
  | add d => rw [worth, Cell.ofInt_add, Cell.ofInt_toNat, apply]

end Change

/-- A change that is made through an address. -/
structure Write where
  address : Address
  change : Change
  deriving DecidableEq, Repr

namespace Tape

/-- The tape with a write carried out. -/
def write (t : Tape) (w : Write) : Except AddressError Tape :=
  match w.change with
  | .set v => t.set w.address v
  | .add d => t.add w.address d

/-- The tape after a write was tried. -/
def attempt (t : Tape) (w : Write) : Tape :=
  match t.write w with
  | .ok u => u
  | .error _ => t

/-- The tape after some writes were tried, one after the other. -/
def after (t : Tape) (writes : List Write) : Tape :=
  writes.foldl attempt t

/-- The changes among some writes that are made to the cell of index `i`, in order. A write that is
refused is not among them, whatever the index is. -/
def changesAt (t : Tape) (i : ℕ) (writes : List Write) : List Change :=
  (writes.filter fun w => t.resolve w.address = .ok i).map Write.change

variable {t u : Tape} {w : Write} {a b : Address} {e : AddressError} {i j : ℕ}

/-! ### Which accesses are refused -/

theorem map_eq_error_iff {α β : Type} {f : α → β} {x : Except AddressError α} :
    x.map f = .error e ↔ x = .error e := by
  cases x <;> simp [Except.map]

theorem get_eq_error_iff : t.get a = .error e ↔ t.resolve a = .error e :=
  map_eq_error_iff

theorem isZeroAt_eq_error_iff : t.isZeroAt a = .error e ↔ t.resolve a = .error e :=
  map_eq_error_iff.trans get_eq_error_iff

theorem set_eq_error_iff {v : Cell} : t.set a v = .error e ↔ t.resolve a = .error e :=
  map_eq_error_iff

theorem add_eq_error_iff {d : Cell} : t.add a d = .error e ↔ t.resolve a = .error e :=
  map_eq_error_iff

/-- Whether a write is refused, and why, depends on its address only. -/
theorem write_eq_error_iff : t.write w = .error e ↔ t.resolve w.address = .error e := by
  obtain ⟨a, change⟩ := w
  cases change with
  | set v => exact set_eq_error_iff
  | add d => exact add_eq_error_iff

/-! ### One write -/

/-- A write puts a value into the cell that it names. -/
theorem write_eq (t : Tape) (w : Write) : t.write w =
    (t.resolve w.address).map fun i => t.put i (w.change.apply (t.cell i)) := by
  obtain ⟨a, change⟩ := w
  cases change with
  | set v => rfl
  | add d => simp only [write, add, bump_eq_put, Change.apply]

theorem attempt_of_error (h : t.resolve w.address = .error e) : t.attempt w = t := by
  rw [attempt, write_eq_error_iff.2 h]

theorem attempt_of_ok (h : t.resolve w.address = .ok i) :
    t.attempt w = t.put i (w.change.apply (t.cell i)) := by
  rw [attempt, write_eq, h, Except.map]

theorem attempt_of_write (h : t.write w = .ok u) : t.attempt w = u := by
  rw [attempt, h]

@[simp] theorem size_attempt (t : Tape) (w : Write) : (t.attempt w).size = t.size := by
  cases h : t.resolve w.address with
  | ok i => rw [attempt_of_ok h, size_put]
  | error e => rw [attempt_of_error h]

@[simp] theorem policy_attempt (t : Tape) (w : Write) : (t.attempt w).policy = t.policy := by
  cases h : t.resolve w.address with
  | ok i => rw [attempt_of_ok h, policy_put]
  | error e => rw [attempt_of_error h]

/-- **One write changes one cell**, the one that it names. -/
theorem cell_attempt (t : Tape) (w : Write) (i : ℕ) : (t.attempt w).cell i =
    if t.resolve w.address = .ok i then w.change.apply (t.cell i) else t.cell i := by
  cases h : t.resolve w.address with
  | error e => rw [attempt_of_error h, if_neg nofun]
  | ok j =>
    rw [attempt_of_ok h, cell_put]
    by_cases hij : j = i
    · subst hij
      rw [if_pos ⟨rfl, resolve_lt h⟩, if_pos rfl]
    · rw [if_neg fun hj => hij hj.1, if_neg fun hok => hij (Except.ok.inj hok)]

/-! ### The log -/

theorem after_append (t : Tape) (before behind : List Write) :
    t.after (before ++ behind) = (t.after before).after behind :=
  List.foldl_append

@[simp] theorem size_after (t : Tape) (writes : List Write) : (t.after writes).size = t.size := by
  induction writes generalizing t with
  | nil => rfl
  | cons w writes ih => exact (ih (t.attempt w)).trans (size_attempt t w)

@[simp] theorem policy_after (t : Tape) (writes : List Write) :
    (t.after writes).policy = t.policy := by
  induction writes generalizing t with
  | nil => rfl
  | cons w writes ih => exact (ih (t.attempt w)).trans (policy_attempt t w)

/-- No writes change which cell an address names. -/
@[simp] theorem resolve_after (t : Tape) (writes : List Write) (a : Address) :
    (t.after writes).resolve a = t.resolve a :=
  resolve_congr (size_after ..) (policy_after ..) a

/-- A write that is refused may be left out of the log. -/
theorem after_of_refused {before behind : List Write} (h : (t.after before).write w = .error e) :
    t.after (before ++ w :: behind) = t.after (before ++ behind) := by
  have hw : (t.after before).attempt w = t.after before :=
    attempt_of_error (write_eq_error_iff.1 h)
  rw [after_append, after_append]
  exact congrArg (fun u : Tape => u.after behind) hw

theorem changesAt_concat_of_ok (h : t.resolve w.address = .ok i) (writes : List Write) :
    t.changesAt i (writes ++ [w]) = t.changesAt i writes ++ [w.change] := by
  simp [changesAt, List.filter_append, h]

theorem changesAt_concat_of_ne (h : t.resolve w.address ≠ .ok i) (writes : List Write) :
    t.changesAt i (writes ++ [w]) = t.changesAt i writes := by
  simp [changesAt, List.filter_append, h]

/-- **A cell against the log.** A cell of a tape that was blank at the start holds what the changes
to it are worth. -/
theorem cell_after_new (capacity : ℕ) (policy : PointerPolicy) (writes : List Write) (i : ℕ) :
    ((new capacity policy).after writes).cell i =
      Cell.ofInt (Change.worth ((new capacity policy).changesAt i writes).reverse) := by
  induction writes using List.reverseRecOn with
  | nil => exact cell_new capacity policy i
  | append_singleton writes w ih =>
    have hone : ((new capacity policy).after (writes ++ [w])).cell i =
        (((new capacity policy).after writes).attempt w).cell i := by
      rw [after_append]
      rfl
    rw [hone, cell_attempt, resolve_after, ih]
    split
    next hw =>
      rw [changesAt_concat_of_ok hw, List.reverse_concat]
      exact (Change.ofInt_worth_cons w.change _).symm
    next hw => rw [changesAt_concat_of_ne hw]

/-! ### Two addresses -/

/-- Two addresses name the same cell of a circle if they are congruent, and the same cell of a tape
on which addresses are checked if they are equal. -/
theorem resolve_eq_resolve_iff (ha : t.resolve a = .ok i) (hb : t.resolve b = .ok j) :
    i = j ↔ match t.policy with
      | .error => a = b
      | .wrap => a.toInt ≡ b.toInt [ZMOD t.size] := by
  cases hp : t.policy with
  | wrap =>
    have ha' := (resolve_eq_ok_iff_of_wrap hp).1 ha
    have hb' := (resolve_eq_ok_iff_of_wrap hp).1 hb
    rw [Int.ModEq, ha', hb', Int.ofNat_inj]
  | error =>
    have ha' := (resolve_eq_ok_iff_of_error hp (resolve_lt ha)).1 ha
    have hb' := (resolve_eq_ok_iff_of_error hp (resolve_lt hb)).1 hb
    rw [← Int64.toInt_inj, ha', hb', Int.ofNat_inj]

/-! ### Every access -/

theorem get_of_resolve (h : t.resolve a = .ok i) : t.get a = .ok (t.cell i) := by
  rw [get, h, Except.map]

theorem isZeroAt_of_resolve (h : t.resolve a = .ok i) :
    t.isZeroAt a = .ok (t.cell i).isZero := by
  rw [isZeroAt, get_of_resolve h, Except.map]

/-- A write is not seen through an address that names another cell. -/
theorem get_of_write (h : t.write w = .ok u) (hb : t.resolve b ≠ t.resolve w.address) :
    u.get b = t.get b := by
  have hu : u = t.attempt w := (attempt_of_write h).symm
  have hresolve : u.resolve b = t.resolve b := by
    rw [hu]
    exact resolve_congr (size_attempt t w) (policy_attempt t w) b
  cases hi : t.resolve b with
  | error e => rw [get_eq_error_iff.2 hi, get_eq_error_iff.2 (hresolve.trans hi)]
  | ok i =>
    rw [get_of_resolve hi, get_of_resolve (hresolve.trans hi), hu, cell_attempt,
      if_neg fun hw => hb (hi.trans hw.symm)]

/-- **A tape is the log of what was written to it.** Let any writes be tried, one after the other,
on a blank tape of any capacity under any policy. The size stays that of the blank tape, and so does
the policy. Reading, setting, adding to and testing a cell are refused for the same addresses, with
the same error: on a circle for none, and where addresses are checked for those that are negative,
and with the other error for those that are at least the size. A write that is refused may as well
not have been tried.

An address that is not refused names a cell, by itself or by its remainder, and what is read and
tested there is what the log is worth for this cell: the last value that was set, or zero, and what
was added since, modulo `256`. A further write through one address is not seen through another one
unless both name the same cell. Two addresses do so if they are equal, where addresses are checked,
and if they are congruent, on a circle. -/
theorem after_new_refines (capacity : ℕ) (policy : PointerPolicy) (writes : List Write) :
    let blank := new capacity policy
    let t := blank.after writes
    let size := max capacity 1
    (t.size = size ∧ t.policy = policy) ∧
    (∀ (a : Address) (v d : Cell) (e : AddressError),
      let refused := policy = .error ∧
        (e = .beforeStart ∧ a.toInt < 0 ∨ e = .pastEnd ∧ (size : ℤ) ≤ a.toInt)
      (t.get a = .error e ↔ refused) ∧ (t.set a v = .error e ↔ refused) ∧
      (t.add a d = .error e ↔ refused) ∧ (t.isZeroAt a = .error e ↔ refused)) ∧
    (∀ before w behind e, writes = before ++ w :: behind →
      (blank.after before).write w = .error e → t = blank.after (before ++ behind)) ∧
    (∀ a i, blank.resolve a = .ok i →
      let worth := Change.worth (blank.changesAt i writes).reverse
      (i : ℤ) = (match policy with | .error => a.toInt | .wrap => a.toInt % size) ∧
      t.get a = .ok (Cell.ofInt worth) ∧ t.isZeroAt a = .ok (decide ((256 : ℤ) ∣ worth))) ∧
    (∀ w u, t.write w = .ok u →
      ∀ b, blank.resolve b ≠ blank.resolve w.address → u.get b = t.get b) ∧
    ∀ a b i j, blank.resolve a = .ok i → blank.resolve b = .ok j →
      (i = j ↔ match policy with
        | .error => a = b
        | .wrap => a.toInt ≡ b.toInt [ZMOD size]) := by
  intro blank t size
  have hsize : t.size = size := (size_after blank writes).trans (size_new capacity policy)
  have hpolicy : t.policy = policy := policy_after blank writes
  refine ⟨⟨hsize, hpolicy⟩, fun a v d e => ?_, fun before w behind e hsplit hw => ?_,
    fun a i hi => ?_, fun w u hu b hb => ?_, fun a b i j hi hj => ?_⟩
  · intro refused
    have hrefused : t.resolve a = .error e ↔ refused := by
      rw [resolve_eq_error_iff, hpolicy, hsize]
    exact ⟨get_eq_error_iff.trans hrefused, set_eq_error_iff.trans hrefused,
      add_eq_error_iff.trans hrefused, isZeroAt_eq_error_iff.trans hrefused⟩
  · subst hsplit
    exact after_of_refused hw
  · intro worth
    have hi' : t.resolve a = .ok i := (resolve_after blank writes a).trans hi
    have hcell : t.cell i = Cell.ofInt worth := cell_after_new capacity policy writes i
    refine ⟨?_, by rw [get_of_resolve hi', hcell], ?_⟩
    · cases policy with
      | error => exact ((resolve_eq_ok_iff_of_error hpolicy (resolve_lt hi')).1 hi').symm
      | wrap => exact (((resolve_eq_ok_iff_of_wrap hpolicy).1 hi').symm.trans (by rw [hsize]))
    · have hzero : (Cell.ofInt worth).isZero = decide ((256 : ℤ) ∣ worth) :=
        Bool.eq_iff_iff.2 ((Cell.isZero_ofInt_iff worth).trans decide_eq_true_iff.symm)
      rw [isZeroAt_of_resolve hi', hcell, hzero]
  · refine get_of_write hu ?_
    rwa [resolve_after, resolve_after]
  · have h := resolve_eq_resolve_iff hi hj
    rwa [policy_new, size_new] at h

/-- Three writes, of which the first is in front of the tape. On a circle of four cells it is to the
cell of the second one. -/
def threeWrites : List Write :=
  [⟨-1, .set 7⟩, ⟨3, .add 250⟩, ⟨5, .add 1⟩]

/-- On a circle a cell is worth both writes to it; where the first one is refused, only the other. -/
theorem after_new_refines_threeWrites :
    ((new 4 .wrap).after threeWrites).get 7 = .ok 1 ∧
      ((new 4 .error).after threeWrites).get 3 = .ok 250 ∧
      ((new 4 .error).after threeWrites).set (-1) 7 = .error .beforeStart ∧
      (new 4 .error).after threeWrites = (new 4 .error).after threeWrites.tail ∧
      ((3 : ℕ) = 3 ↔ (-1 : Address).toInt ≡ (7 : Address).toInt [ZMOD 4]) := by
  obtain ⟨-, -, -, hwrapped, -, halias⟩ := after_new_refines 4 .wrap threeWrites
  obtain ⟨-, hrefused, hleft, hchecked, -⟩ := after_new_refines 4 .error threeWrites
  exact ⟨(hwrapped 7 3 rfl).2.1, (hchecked 3 3 rfl).2.1,
    (hrefused (-1) 7 0 .beforeStart).2.1.2 ⟨rfl, .inl ⟨rfl, by decide⟩⟩,
    hleft [] _ _ .beforeStart rfl rfl, halias (-1) 7 3 3 rfl rfl⟩

end Tape

end PhraseTape
