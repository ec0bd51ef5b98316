/-
**The submission queue by its counters: `get_sqe` under wrap-around.**

The counters of the queue are 32-bit words of which the code reads the difference and the low bits.
`getSqe` runs over the results of the calls of `io_uring_submit` still to come; a successful one
hands over all that is pending. `Reservation` is the law of a peek: the entries it makes room for
are free, follow each other and are taken without a further submit, whatever is written to them.
-/

import Mathlib.Data.Nat.ModEq
import Mathlib.Data.List.Nodup
import Mathlib.Data.Nat.Bitwise
import Fuseuring.Ring.System

namespace Fuseuring

/-! ### The queue -/

/-- What a call of `io_uring_submit` comes to: success, `EBUSY` or another error. -/
inductive SubmitRc
  | done
  | busy
  | failed
deriving DecidableEq, Repr

/-- `io_uring_sq`, with `2 ^ power` entries; `submitted` are the entries that
the kernel has been given, and `submitCalls` counts the calls. -/
structure Sq (Entry : Type) where
  power : Nat
  power_lt : power < 32
  khead : BitVec 32
  sqeTail : BitVec 32
  sqes : Nat → Entry
  submitted : List Entry
  submitCalls : Nat
  ringSubmit : Bool

namespace Sq

variable {Entry : Type}

/-- `*kring_entries`. -/
def kringEntries (sq : Sq Entry) : BitVec 32 := BitVec.ofNat 32 (2 ^ sq.power)

/-- `*kring_mask`. -/
def kringMask (sq : Sq Entry) : BitVec 32 := BitVec.ofNat 32 (2 ^ sq.power - 1)

/-- The slot of a counter. -/
def slot (sq : Sq Entry) (counter : BitVec 32) : Nat := (counter &&& sq.kringMask).toNat

/-- The number of entries between the counters. -/
def pending (sq : Sq Entry) : Nat := (sq.sqeTail - sq.khead).toNat

/-- **The ring invariant.** -/
def Valid (sq : Sq Entry) : Prop := sq.pending ≤ 2 ^ sq.power

/-- The slots of the pending entries, in their order. -/
def pendingSlots (sq : Sq Entry) : List Nat :=
  (List.range sq.pending).map fun place => sq.slot (sq.khead + BitVec.ofNat 32 place)

/-- A call of `io_uring_submit`. -/
def submit (sq : Sq Entry) : SubmitRc → Sq Entry
  | .done =>
    { sq with
      khead := sq.sqeTail
      submitted := sq.submitted ++ sq.pendingSlots.map sq.sqes
      submitCalls := sq.submitCalls + 1 }
  | _ => { sq with submitCalls := sq.submitCalls + 1 }

/-- The entry at the tail is taken. -/
def advance (sq : Sq Entry) : Sq Entry := { sq with sqeTail := sq.sqeTail + 1 }

/-- What is written to an entry: what `io_uring_prep_*` does, the flags and `user_data`. -/
def edit (sq : Sq Entry) (place : Nat) (change : Entry → Entry) : Sq Entry :=
  { sq with sqes := Function.update sq.sqes place (change (sq.sqes place)) }

/-- `io_uring_get_sqe`. -/
def ioUringGetSqe (sq : Sq Entry) : Option (Nat × Sq Entry) :=
  if sq.sqeTail - sq.khead < sq.kringEntries then some (sq.slot sq.sqeTail, sq.advance) else none

/-- `get_sqe` with `peek > 1`; it does not return before the kernel has answered. -/
def getSqePeek (peek : BitVec 32) : List SubmitRc → Sq Entry →
    Option (Option Nat × Sq Entry × List SubmitRc)
  | results, sq =>
    if sq.sqeTail - sq.khead < sq.kringEntries ∧
      peek ≤ sq.kringEntries - (sq.sqeTail - sq.khead) then
      some (some (sq.slot sq.sqeTail), sq.advance, results)
    else
      match results with
      | [] => none
      | .failed :: results => some (none, sq.submit .failed, results)
      | .busy :: results => getSqePeek peek results (sq.submit .busy)
      | .done :: results => getSqePeek peek results (sq.submit .done)

/-- `get_sqe`; where no entry is left for the last part after a submit, it polls for one. -/
def getSqe (peek : BitVec 32) (results : List SubmitRc) (sq : Sq Entry) :
    Option (Option Nat × Sq Entry × List SubmitRc) :=
  if 1 < peek then getSqePeek peek results sq
  else
    let sq := { sq with ringSubmit := true }
    match sq.ioUringGetSqe with
    | some (place, sq) => some (some place, sq, results)
    | none =>
      match results with
      | [] => none
      | .done :: results =>
        (sq.submit .done).ioUringGetSqe.map fun found => (some found.1, found.2, results)
      | rc :: results => some (none, sq.submit rc, results)

/-- What a coroutine does between the first entry of a chain and `complete`. -/
inductive ChainOp (Entry : Type)
  | getSqe
  | edit (place : Nat) (change : Entry → Entry)

/-- The further entries that a chain takes. -/
def ChainOp.taken : List (ChainOp Entry) → Nat
  | [] => 0
  | .getSqe :: ops => taken ops + 1
  | .edit _ _ :: ops => taken ops

/-- The rest of a chain: its entries, unless one of the calls is answered with
null or not at all. -/
def runChain : List (ChainOp Entry) → List SubmitRc → Sq Entry →
    Option (List Nat × Sq Entry × List SubmitRc)
  | [], results, sq => some ([], sq, results)
  | .edit place change :: ops, results, sq => runChain ops results (sq.edit place change)
  | .getSqe :: ops, results, sq =>
    match sq.getSqe 1 results with
    | some (some place, sq, results) =>
      (runChain ops results sq).map fun found => (place :: found.1, found.2.1, found.2.2)
    | _ => none

/-! ### The law -/

/-- Consecutive slots, modulo the number of entries. -/
def consecutive (power first count : Nat) : List Nat :=
  (List.range count).map fun place => (first + place) % 2 ^ power

/-- **What a peek for `count` entries owes its caller**: an entry that none of
the `earlier` pending ones is in; and for every rest of the chain that fits,
further entries that follow it, with nothing submitted on the way. -/
structure Reservation (count : Nat) (before : Sq Entry) (earlier : List Nat) (place : Nat)
    (after : Sq Entry) :
    Prop where
  pending : after.pendingSlots = earlier ++ [place]
  free : place ∉ earlier
  chain : ∀ ops results, ChainOp.taken ops < count → ∃ places last,
    runChain ops results after = some (places, last, results) ∧
    place :: places = consecutive before.power before.sqeTail.toNat (ChainOp.taken ops + 1) ∧
    last.pendingSlots = earlier ++ place :: places ∧ last.pendingSlots.Nodup ∧ last.Valid ∧
    last.khead = after.khead ∧ last.submitCalls = after.submitCalls ∧
    last.submitted = after.submitted

/-! ### Arithmetic of the counters -/

variable {sq : Sq Entry}

theorem entries_lt (sq : Sq Entry) : 2 ^ sq.power < 2 ^ 32 :=
  Nat.pow_lt_pow_right (by decide) sq.power_lt

theorem toNat_kringEntries (sq : Sq Entry) : sq.kringEntries.toNat = 2 ^ sq.power := by
  rw [kringEntries, BitVec.toNat_ofNat, Nat.mod_eq_of_lt sq.entries_lt]

/-- The slot a number of entries further on. -/
theorem slot_add (sq : Sq Entry) (counter : BitVec 32) (offset : Nat) :
    sq.slot (counter + BitVec.ofNat 32 offset) = (counter.toNat + offset) % 2 ^ sq.power := by
  have divides : 2 ^ sq.power ∣ 2 ^ 32 := Nat.pow_dvd_pow 2 sq.power_lt.le
  have small : 2 ^ sq.power - 1 < 2 ^ 32 := (Nat.sub_le _ _).trans_lt sq.entries_lt
  rw [slot, kringMask, BitVec.toNat_and, BitVec.toNat_ofNat, Nat.mod_eq_of_lt small,
    Nat.and_two_pow_sub_one_eq_mod,
    BitVec.toNat_add, BitVec.toNat_ofNat, Nat.add_mod_mod, Nat.mod_mod_of_dvd _ divides]

theorem slot_eq (sq : Sq Entry) (counter : BitVec 32) :
    sq.slot counter = counter.toNat % 2 ^ sq.power := by
  have added := sq.slot_add counter 0
  rwa [Nat.add_zero, show counter + BitVec.ofNat 32 0 = counter by simp] at added

/-- The tail is as far from the head as entries are pending. -/
theorem sqeTail_eq (sq : Sq Entry) : sq.sqeTail = sq.khead + BitVec.ofNat 32 sq.pending := by
  rw [pending, BitVec.ofNat_toNat, BitVec.setWidth_eq, BitVec.add_comm, BitVec.sub_add_cancel]

theorem room_iff (sq : Sq Entry) : sq.sqeTail - sq.khead < sq.kringEntries ↔
    sq.pending < 2 ^ sq.power := by
  rw [BitVec.lt_def, toNat_kringEntries, pending]

/-- The test of the peek, without the wrap-around. -/
theorem peek_iff (sq : Sq Entry) {peek : BitVec 32} :
    (sq.sqeTail - sq.khead < sq.kringEntries ∧ peek ≤ sq.kringEntries - (sq.sqeTail - sq.khead)) ↔
      sq.pending < 2 ^ sq.power ∧ sq.pending + peek.toNat ≤ 2 ^ sq.power := by
  rw [room_iff]
  refine and_congr_right fun room => ?_
  have order : sq.sqeTail - sq.khead ≤ sq.kringEntries := by
    rw [BitVec.le_def, toNat_kringEntries]
    exact room.le
  rw [BitVec.le_def, BitVec.toNat_sub_of_le order, toNat_kringEntries]
  show peek.toNat ≤ 2 ^ sq.power - sq.pending ↔ _
  omega

theorem pending_advance (room : sq.pending < 2 ^ sq.power) :
    sq.advance.pending = sq.pending + 1 := by
  have small : (sq.sqeTail - sq.khead).toNat + 1 < 2 ^ 32 := Nat.lt_of_le_of_lt room sq.entries_lt
  show (sq.sqeTail + 1 - sq.khead).toNat = (sq.sqeTail - sq.khead).toNat + 1
  rw [show sq.sqeTail + 1 - sq.khead = (sq.sqeTail - sq.khead) + 1#32 by bv_omega, BitVec.toNat_add,
    BitVec.toNat_ofNat,
    show 1 % 2 ^ 32 = 1 by rfl, Nat.mod_eq_of_lt small]

theorem pending_submit (sq : Sq Entry) : (sq.submit .done).pending = 0 := by
  show (sq.sqeTail - sq.sqeTail).toNat = 0
  rw [BitVec.sub_self]
  rfl

/-! ### The pending slots -/

/-- A further entry is the next slot. -/
theorem pendingSlots_advance (room : sq.pending < 2 ^ sq.power) :
    sq.advance.pendingSlots = sq.pendingSlots ++ [sq.slot sq.sqeTail] := by
  rw [pendingSlots, pending_advance room, List.range_succ, List.map_append, List.map_singleton]
  show sq.pendingSlots ++ [sq.slot (sq.khead + BitVec.ofNat 32 sq.pending)] = _
  rw [← sqeTail_eq]

/-- At most a ring of consecutive slots: no two are the same. -/
theorem pendingSlots_nodup (valid : sq.Valid) : sq.pendingSlots.Nodup := by
  refine List.Nodup.map_on ?_ List.nodup_range
  intro first inFirst second inSecond same
  rw [slot_add, slot_add] at same
  have cancelled : first ≡ second [MOD 2 ^ sq.power] :=
    Nat.ModEq.add_left_cancel' sq.khead.toNat same
  exact cancelled.eq_of_lt_of_lt ((List.mem_range.mp inFirst).trans_le valid)
    ((List.mem_range.mp inSecond).trans_le valid)

theorem pendingSlots_eq (sq : Sq Entry) :
    sq.pendingSlots = consecutive sq.power sq.khead.toNat sq.pending :=
  List.map_congr_left fun _ _ => sq.slot_add _ _

/-- Only the low bits of the first counter matter. -/
theorem consecutive_congr {power first first' : Nat} (same : first % 2 ^ power = first' % 2 ^ power)
    (count : Nat) :
    consecutive power first count = consecutive power first' count := by
  refine List.map_congr_left fun place _ => ?_
  rw [Nat.add_mod, same, ← Nat.add_mod]

theorem consecutive_add (power first count more : Nat) :
    consecutive power first (count + more) =
      consecutive power first count ++ consecutive power (first + count) more := by
  rw [consecutive, List.range_add, List.map_append, List.map_map]
  refine congrArg _ (List.map_congr_left fun place _ => ?_)
  show (first + (count + place)) % _ = _
  rw [Nat.add_assoc]

theorem consecutive_succ (power first count : Nat) :
    consecutive power first (count + 1) = first % 2 ^ power :: consecutive power
      (first + 1) count := by
  rw [Nat.add_comm count 1, consecutive_add]
  rfl

/-- The slots from the next counter on. -/
theorem consecutive_advance (sq : Sq Entry) (count : Nat) :
    consecutive sq.power sq.sqeTail.toNat (count + 1) =
      sq.slot sq.sqeTail :: consecutive sq.power (sq.sqeTail + 1).toNat count := by
  have next : (sq.sqeTail.toNat + 1) % 2 ^ sq.power = (sq.sqeTail + 1).toNat % 2 ^ sq.power := by
    rw [← slot_eq, ← slot_add]
    rfl
  rw [consecutive_succ, ← slot_eq, consecutive_congr next]

/-! ### The chain -/

/-- An entry that is left is taken without a submit. -/
theorem getSqe_room (room : sq.pending < 2 ^ sq.power) (results : List SubmitRc) :
    sq.getSqe 1 results = some (some (sq.slot sq.sqeTail),
      { sq.advance with ringSubmit := true }, results) := by
  have taken : ({ sq with ringSubmit := true } : Sq Entry).ioUringGetSqe =
      some (sq.slot sq.sqeTail, { sq.advance with ringSubmit := true }) :=
        if_pos ((room_iff sq).mpr room)
  rw [getSqe, if_neg (by decide)]
  simp only [taken]

/-- **The rest of a chain that fits takes the next slots**, by induction on what is done. -/
theorem runChain_of_room (ops : List (ChainOp Entry)) (results : List SubmitRc) :
    ∀ sq : Sq Entry, sq.pending + ChainOp.taken ops ≤ 2 ^ sq.power → ∃ last,
      runChain ops results sq = some (consecutive sq.power sq.sqeTail.toNat (ChainOp.taken ops),
        last, results) ∧
      last.pendingSlots = sq.pendingSlots ++ consecutive sq.power sq.sqeTail.toNat
        (ChainOp.taken ops) ∧
      last.power = sq.power ∧ last.pending = sq.pending + ChainOp.taken ops ∧
      last.khead = sq.khead ∧
      last.submitCalls = sq.submitCalls ∧ last.submitted = sq.submitted := by
  induction ops with
  | nil =>
    intro sq _
    exact ⟨sq, rfl, (List.append_nil _).symm, rfl, rfl, rfl, rfl, rfl⟩
  | cons op ops ih =>
    intro sq fits
    cases op with
    | edit place change => exact ih (sq.edit place change) fits
    | getSqe =>
      have room : sq.pending < 2 ^ sq.power := by
        simp only [ChainOp.taken] at fits
        omega
      have counted := pending_advance room
      set next : Sq Entry := { sq.advance with ringSubmit := true } with nextEq
      have taken : sq.getSqe 1 results = some (some (sq.slot sq.sqeTail), next, results) :=
        getSqe_room room results
      have left : next.pending + ChainOp.taken ops ≤ 2 ^ next.power := by
        show sq.advance.pending + ChainOp.taken ops ≤ 2 ^ sq.power
        rw [counted, Nat.add_assoc, Nat.add_comm 1]
        exact fits
      obtain ⟨last, ran, slots, power, pending, khead, calls, submitted⟩ := ih next left
      refine ⟨last, ?_, ?_, power, ?_, khead, calls, submitted⟩
      · rw [runChain]
        simp only [taken, ran, Option.map_some]
        rw [ChainOp.taken, consecutive_advance]
        rfl
      · rw [slots, ChainOp.taken, consecutive_advance]
        show sq.advance.pendingSlots ++ _ = _
        rw [pendingSlots_advance room, List.append_assoc]
        rfl
      · rw [pending, ChainOp.taken]
        show sq.advance.pending + _ = _
        rw [counted, Nat.add_assoc, Nat.add_comm 1]

/-- **Where the test of a peek succeeds, the entry is reserved with those that follow.** -/
theorem reservation_of_room {before : Sq Entry} {peek : BitVec 32}
    (room : sq.pending < 2 ^ sq.power)
    (fits : sq.pending + peek.toNat ≤ 2 ^ sq.power) (power : sq.power = before.power)
    (tail : sq.sqeTail = before.sqeTail) :
    Reservation peek.toNat before sq.pendingSlots (sq.slot sq.sqeTail) sq.advance where
  pending := pendingSlots_advance room
  free := by
    have distinct : sq.advance.pendingSlots.Nodup := by
      refine pendingSlots_nodup ?_
      show sq.advance.pending ≤ 2 ^ sq.power
      rw [pending_advance room]
      exact room
    rw [pendingSlots_advance room] at distinct
    exact fun member => (List.nodup_append.mp distinct).2.2 _ member _
      (List.mem_singleton_self _) rfl
  chain := by
    intro ops results less
    have left : sq.advance.pending + ChainOp.taken ops ≤ 2 ^ sq.advance.power := by
      show sq.advance.pending + ChainOp.taken ops ≤ 2 ^ sq.power
      rw [pending_advance room]
      omega
    obtain ⟨last, ran, slots, samePower, pending, khead, calls, submitted⟩ :=
      runChain_of_room ops results _ left
    have valid : last.Valid := by
      show last.pending ≤ 2 ^ last.power
      rw [pending, samePower]
      exact left
    refine ⟨_, last, ran, ?_, ?_, pendingSlots_nodup valid, valid, khead, calls, submitted⟩
    · rw [← power, ← tail, consecutive_advance]
      rfl
    · rw [slots, pendingSlots_advance room, List.append_assoc]
      rfl

/-- A peek that finds room. -/
theorem getSqePeek_room {peek : BitVec 32} (room : sq.pending < 2 ^ sq.power)
    (fits : sq.pending + peek.toNat ≤ 2 ^ sq.power) (results : List SubmitRc) :
    getSqePeek peek results sq = some (some (sq.slot sq.sqeTail), sq.advance, results) := by
  rw [getSqePeek.eq_def]
  exact if_pos ((peek_iff sq).mpr ⟨room, fits⟩)

theorem valid_advance (room : sq.pending < 2 ^ sq.power) : sq.advance.Valid := by
  show sq.advance.pending ≤ 2 ^ sq.power
  rw [pending_advance room]
  exact room

/-- What a peek that returns has done since `before`. -/
structure Peeked (peek : BitVec 32) (before : Sq Entry) (results : List SubmitRc)
    (answer : Option Nat)
    (after : Sq Entry) (rest : List SubmitRc) : Prop where
  calls : ∃ calls, results = calls ++ rest ∧ calls.count .done ≤ 1 ∧
    (answer = none → calls.getLast? = some .failed)
  valid : after.Valid
  reserved : ∀ place, answer = some place → ∃ earlier, (earlier = before.pendingSlots ∨
    earlier = []) ∧
    Reservation peek.toNat before earlier place after

/-- A return with an entry, where there is room after the calls made so far. -/
theorem peeked_of_room {before : Sq Entry} {peek : BitVec 32} {results rest calls : List SubmitRc}
    (room : sq.pending < 2 ^ sq.power) (fits : sq.pending + peek.toNat ≤ 2 ^ sq.power)
    (power : sq.power = before.power)
    (tail : sq.sqeTail = before.sqeTail) (slots : sq.pendingSlots = before.pendingSlots ∨
      sq.pendingSlots = [])
    (split : results = calls ++ rest) (once : calls.count .done ≤ 1) :
    Peeked peek before results (some (sq.slot sq.sqeTail)) sq.advance rest where
  calls := ⟨calls, split, once, fun null => by cases null⟩
  valid := valid_advance room
  reserved := by
    intro place found
    cases found
    exact ⟨sq.pendingSlots, slots, reservation_of_room room fits power tail⟩

/-- One more call of `io_uring_submit` in front, that has not succeeded. -/
theorem Peeked.cons {peek : BitVec 32} {before after : Sq Entry} {results rest : List SubmitRc}
    {answer : Option Nat}
    (peeked : Peeked peek before results answer after rest) :
    Peeked peek before (.busy :: results) answer after rest where
  calls := by
    obtain ⟨calls, split, once, last⟩ := peeked.calls
    refine ⟨.busy :: calls, by rw [split, List.cons_append], by simpa using once, fun null => ?_⟩
    rw [List.getLast?_cons, last null, Option.getD_some]
  valid := peeked.valid
  reserved := peeked.reserved

/-- **The loop of the peek**, by induction on the answers of the kernel: busy
answers change nothing, and the first other one ends it. -/
theorem getSqePeek_peeked {before : Sq Entry} {peek : BitVec 32}
    (fits : peek.toNat ≤ 2 ^ before.power)
    (results : List SubmitRc) : ∀ sq : Sq Entry, sq.Valid → sq.power = before.power →
      sq.sqeTail = before.sqeTail → sq.pendingSlots = before.pendingSlots →
      (getSqePeek peek results sq = none → ∀ rc ∈ results, rc = .busy) ∧
      ∀ answer after rest, getSqePeek peek results sq = some (answer, after, rest) →
        Peeked peek before results answer after rest := by
  induction results with
  | nil =>
    intro sq valid power tail slots
    refine ⟨fun _ => by simp, fun answer after rest returned => ?_⟩
    by_cases room : sq.pending < 2 ^ sq.power ∧ sq.pending + peek.toNat ≤ 2 ^ sq.power
    · rw [getSqePeek_room room.1 room.2] at returned
      cases returned
      exact peeked_of_room room.1 room.2 power tail (.inl slots) (List.nil_append _).symm
        (Nat.zero_le _)
    · rw [getSqePeek, if_neg (mt (peek_iff sq).mp room)] at returned
      cases returned
  | cons rc results ih =>
    intro sq valid power tail slots
    by_cases room : sq.pending < 2 ^ sq.power ∧ sq.pending + peek.toNat ≤ 2 ^ sq.power
    · rw [getSqePeek_room room.1 room.2]
      refine ⟨fun waits => (by cases waits), fun answer after rest returned => ?_⟩
      cases returned
      exact peeked_of_room room.1 room.2 power tail (.inl slots) (List.nil_append _).symm
        (Nat.zero_le _)
    · have crowded := mt (peek_iff sq).mp room
      cases rc with
      | failed =>
        rw [getSqePeek, if_neg crowded]
        refine ⟨fun waits => (by cases waits), fun answer after rest returned => ?_⟩
        cases returned
        exact ⟨⟨[.failed], rfl, by decide, fun _ => rfl⟩, valid,
          fun place found => (by cases found)⟩
      | busy =>
        rw [getSqePeek, if_neg crowded]
        obtain ⟨waiting, returning⟩ := ih (sq.submit .busy) valid power tail slots
        refine ⟨fun waits => ?_, fun answer after rest returned =>
          (returning answer after rest returned).cons⟩
        rintro rc (_ | ⟨_, later⟩)
        · rfl
        · exact waiting waits rc later
      | done =>
        rw [getSqePeek, if_neg crowded]
        have empty := sq.pending_submit
        have free : (sq.submit .done).pending < 2 ^ (sq.submit .done).power := by
          rw [empty]
          exact Nat.two_pow_pos _
        have enough : (sq.submit .done).pending + peek.toNat ≤ 2 ^ (sq.submit .done).power := by
          rw [empty, Nat.zero_add]
          exact fits.trans_eq (congrArg (2 ^ ·) power.symm)
        rw [getSqePeek_room free enough]
        refine ⟨fun waits => (by cases waits), fun answer after rest returned => ?_⟩
        cases returned
        have none : (sq.submit .done).pendingSlots = [] := by
          rw [pendingSlots, empty]
          rfl
        exact peeked_of_room free enough power tail (.inr none)
          (List.singleton_append).symm (by decide)

/-- **A peek reserves**: it waits only while the kernel is busy, returns after
at most one submit that succeeds, keeps the ring invariant, and where it
returns an entry it has reserved the rest of the chain. -/
theorem getSqe_reserves (sq : Sq Entry) (valid : sq.Valid) (peek : BitVec 32) (two : 2 ≤ peek)
    (fits : peek.toNat ≤ 2 ^ sq.power) (results : List SubmitRc) :
    (sq.getSqe peek results = none → ∀ rc ∈ results, rc = .busy) ∧
    ∀ answer after rest, sq.getSqe peek results = some (answer, after, rest) →
      Peeked peek sq results answer after rest := by
  have many : 1 < peek := by bv_omega
  rw [getSqe, if_pos many]
  exact getSqePeek_peeked fits results sq valid rfl rfl rfl

/-- A full ring whose counters wrap around. -/
def wrappedSq : Sq Nat where
  power := 2
  power_lt := by decide
  khead := BitVec.ofNat 32 4294967294
  sqeTail := BitVec.ofNat 32 2
  sqes := fun place => place
  submitted := []
  submitCalls := 0
  ringSubmit := false

/-- The ring that wraps around makes room for a chain of three. -/
theorem getSqe_reserves_wrapped : ∃ after, wrappedSq.getSqe 3 [.busy, .done] = some
    (some 2, after, []) ∧
    Peeked 3 wrappedSq [.busy, .done] (some 2) after [] :=
  ⟨_, rfl, (getSqe_reserves wrappedSq (show 4 ≤ 4 from le_rfl) 3 (by decide) (by decide)
    [.busy, .done]).2 _ _ _ rfl⟩

/-! ### The ring of the event loop -/

/-- **The counters behind a ring of entries**: the free ones from the tail on,
the taken ones from the head on. -/
structure Counts (sq : Sq Entry) (s : Sys) : Prop where
  free : s.free.map SqeEntry.index = consecutive sq.power sq.sqeTail.toNat
    (2 ^ sq.power - sq.pending)
  taken : s.sq.map SqeEntry.index = sq.pendingSlots

namespace Counts

variable {s : Sys}

theorem length_free (counts : Counts sq s) : s.free.length = 2 ^ sq.power - sq.pending := by
  have lengths := congrArg List.length counts.free
  rwa [List.length_map, consecutive, List.length_map, List.length_range] at lengths

/-- The counters of a new ring. -/
theorem init (empty : sq.pending = 0) (start : sq.sqeTail.toNat % 2 ^ sq.power = 0)
    (maxFuseIos : Nat)
    (mem : Nat → Mem) : Counts sq (Sys.init maxFuseIos (2 ^ sq.power) mem) := by
  constructor
  · show ((List.range (2 ^ sq.power)).map fun index => (⟨index, none, none⟩ : SqeEntry)).map
      SqeEntry.index = _
    rw [empty, Nat.sub_zero, consecutive_congr (start.trans (Nat.zero_mod _).symm), List.map_map]
    refine List.map_congr_left fun place inRing => ?_
    rw [Nat.zero_add, Nat.mod_eq_of_lt (List.mem_range.mp inRing)]
    rfl
  · rw [pendingSlots, empty]
    rfl

/-- The event loop's test of a peek is that of the counters. -/
theorem room_iff (counts : Counts sq s) {peek : BitVec 32} (positive : 1 ≤ peek) :
    (Sys.room s.free peek.toNat).isSome ↔
      sq.sqeTail - sq.khead < sq.kringEntries ∧
      peek ≤ sq.kringEntries - (sq.sqeTail - sq.khead) := by
  have length := counts.length_free
  have least : 1 ≤ peek.toNat := positive
  rw [peek_iff]
  cases free : s.free with
  | nil =>
    rw [free] at length
    simp only [Sys.room, Option.isSome_none, Bool.false_eq_true, false_iff, not_and]
    simp only [List.length_nil] at length
    omega
  | cons entry rest =>
    rw [free, List.length_cons] at length
    simp only [Sys.room]
    split_ifs with enough
    · simp only [Option.isSome_some, true_iff]
      omega
    · simp only [Option.isSome_none, Bool.false_eq_true, false_iff, not_and]
      omega

/-- It gives the entry in the slot of the tail. -/
theorem take (counts : Counts sq s) {peek : Nat} {entry : SqeEntry} {rest : List SqeEntry}
    (room : Sys.room s.free peek = some (entry, rest)) :
    entry.index = sq.slot sq.sqeTail ∧ Counts sq.advance (s.take entry rest) := by
  have length := counts.length_free
  have indices := counts.free
  have split : s.free = entry :: rest := by
    unfold Sys.room at room
    split at room
    · cases room
    · split_ifs at room
      cases room
      assumption
  rw [split, List.length_cons] at length
  have left : sq.pending < 2 ^ sq.power := by omega
  rw [split, List.map_cons, show 2 ^ sq.power - sq.pending = rest.length + 1 from length.symm,
    consecutive_advance,
    List.cons.injEq] at indices
  refine ⟨indices.1, ?_, ?_⟩
  · show rest.map SqeEntry.index = consecutive sq.power (sq.sqeTail + 1).toNat
      (2 ^ sq.power - sq.advance.pending)
    rw [pending_advance left, indices.2, show 2 ^ sq.power - (sq.pending + 1) =
      rest.length by omega]
  · show (s.sq ++ [{ entry with sqe := none }]).map SqeEntry.index = _
    rw [List.map_append, counts.taken, pendingSlots_advance left, List.map_singleton, indices.1]

/-- A submit that consumes all frees the taken entries behind the free ones. -/
theorem submit (counts : Counts sq s) (valid : sq.Valid) : Counts (sq.submit .done)
    (s.consume s.sq.length) := by
  have empty := sq.pending_submit
  have bound : sq.pending ≤ 2 ^ sq.power := valid
  have around : sq.khead.toNat % 2 ^ sq.power =
      (sq.sqeTail.toNat + (2 ^ sq.power - sq.pending)) % 2 ^ sq.power := by
    have tail : sq.sqeTail.toNat % 2 ^ sq.power = (sq.khead.toNat + sq.pending) % 2 ^ sq.power := by
      rw [← slot_eq, ← slot_add, ← sqeTail_eq]
    rw [Nat.add_mod, tail, ← Nat.add_mod, Nat.add_assoc, Nat.add_sub_of_le bound, Nat.add_mod_right]
  constructor
  · show (s.free ++ s.sq.take s.sq.length).map SqeEntry.index =
      consecutive sq.power sq.sqeTail.toNat (2 ^ sq.power - (sq.submit .done).pending)
    rw [List.take_length, List.map_append, counts.free, counts.taken, pendingSlots_eq,
      consecutive_congr around,
      ← consecutive_add, empty, Nat.sub_add_cancel bound, Nat.sub_zero]
  · show (s.sq.drop s.sq.length).map SqeEntry.index = _
    rw [List.drop_length, pendingSlots, empty]
    rfl

end Counts

end Sq

end Fuseuring
