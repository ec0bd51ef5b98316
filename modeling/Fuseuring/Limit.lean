/-
**The limit on the requests in service.**

`fuseuring_main` starts its workers in two branches: one worker that makes its ring
itself, or threads of which the first one gets the ring that is made before. `LimitAgrees`
is what both owe `max_fuse_ios`: the size of each pool and of each ring, the bound on the
requests in service in every state of every run, and that one worker is what one thread
would be. The branch with one worker passes `max_background` for `max_fuse_ios`, and from
2^30 on the product in the size of a ring is out of an `int`.
-/

import Fuseuring.Capabilities
import Fuseuring.SetUp
import Fuseuring.Ring.Steady

namespace Fuseuring

open Bytes Interaction SetUpOp

/-- The entries that the ring of a worker is requested with. -/
def Worker.requested (worker : Worker) : Int :=
  worker.fuseUring.getD (ringEntries worker.maxFuseIos)

/-- The branch with threads, for one of them: the ring is made, and the first
worker serves over it. -/
def oneThread (args : StartArgs) (backingFd fuseFd : Descriptor) :
    Program setUp (Except Nat ServedRing) := do
  let entries := ringEntries args.maxFuseIos
  let ready ← askQueueInit entries
  if !ready then return .error 10
  fuseuringRun ⟨args.maxFuseIos, args.maxWrite, some entries, false⟩ backingFd fuseFd

/-- **What a start owes `max_fuse_ios`**: what each worker is started with, what
it serves from any process with an open backing file, how many of its slots are
taken in any state that any run reaches, and what a single worker does. -/
structure LimitAgrees (args : StartArgs) (workers : List Worker) : Prop where
  started : ∀ worker ∈ workers, worker.maxFuseIos = args.maxFuseIos ∧
    worker.requested = max 100 (2 * args.maxFuseIos)
  serves : ∀ worker ∈ workers, ∀ (kernel : SetUpKernel) backingFd fuseFd before ring after,
    before.stands backingFd = some .file →
    Program.run kernel.handler (fuseuringRun worker backingFd fuseFd) before = (.ok ring, after) →
    (ring.ios.length : Int) = args.maxFuseIos ∧ ring.entries = max 100 (2 * args.maxFuseIos) ∧
      ∀ fuseRing entries mem s, Sys.Reaches fuseRing (fun _ _ => True)
        (Sys.init ring.ios.length entries mem) s →
        (s.vals.length : Int) ≤ args.maxFuseIos
  single : args.nThreads ≤ 1 → ∀ backingFd fuseFd,
    workers.map (fun worker => fuseuringRun worker backingFd fuseFd) =
      [oneThread args backingFd fuseFd]

/-! ### The workers -/

section Workers

variable {kernel : StartKernel} {args : StartArgs} {stack : Buffer} {workers : List Worker}
  {worker : Worker}

/-- The workers of the two branches. -/
def startedWorkers (args : StartArgs) : List Worker :=
  if args.nThreads ≤ 1 then [⟨args.maxBackground, args.maxWrite, none, false⟩]
  else (List.range args.nThreads).map fun thread =>
    ⟨args.maxFuseIos, args.maxWrite, if thread = 0 then some (ringEntries args.maxFuseIos)
      else none, thread != 0⟩

/-- Whatever the calls give, the program ends with an exit code or with these workers. -/
def Begins (args : StartArgs) (program : Program startup Started) : Prop :=
  Program.wp .any program () fun started _ => ∀ workers, started = .workers workers →
    workers = startedWorkers args

theorem begins_exit (code : Nat) : Begins args (pure (.exit code)) :=
  Program.wp_pure fun _ impossible => Started.noConfusion impossible

theorem begins_workers (shape : workers = startedWorkers args) :
    Begins args (pure (.workers workers)) :=
  Program.wp_pure fun _ begun => (Started.workers.inj begun).symm.trans shape

theorem begins_ask (op : StartOp) {next : op.Answer → Program startup Started}
    (rest : ∀ answer, Begins args (next answer)) :
    Begins args (Program.ask (S := startup) op >>= next) :=
  (Program.wp_ask_bind (S := startup) op next () _).mpr fun answer _ => rest answer

theorem begins_ite {test : Prop} [Decidable test] {yes no : Program startup Started}
    (holds : test → Begins args yes)
    (fails : ¬ test → Begins args no) : Begins args (if test then yes else no) :=
  Program.wp_ite holds fails

theorem begins_startWorkers (args : StartArgs) : Begins args (startWorkers args) := by
  refine begins_ite (fun single => begins_workers ?_) fun threads => ?_
  · rw [startedWorkers, if_pos single]
  · refine begins_ask (.queueInit _) fun ready => begins_ite (fun _ => begins_exit 10)
      fun _ => begins_workers ?_
    rw [startedWorkers, if_neg threads]

theorem begins_finishInit (args : StartArgs) (initIn initOut : Buffer) :
    Begins args (finishInit args initIn initOut) := by
  refine begins_ite (fun _ => begins_exit 8) fun _ => begins_ask (.write _) fun wrote => ?_
  exact begins_ite (fun _ => begins_exit 9) fun _ => begins_startWorkers args

theorem begins_negotiate (args : StartArgs) (stack initIn : Buffer) :
    Begins args (negotiate args stack initIn) := by
  refine begins_ite (fun _ => begins_exit 5) fun _ => begins_ite
    (fun _ => begins_exit 5) fun _ => ?_
  refine begins_ite (fun _ => begins_exit 5) fun _ => begins_ite (fun _ => ?_)
    fun _ => begins_finishInit args _ _
  refine begins_ask (.write _) fun wrote => begins_ite (fun _ => begins_exit 6)
    fun _ => begins_ask .read fun second => ?_
  cases second with
  | none => exact begins_exit 7
  | some second => exact begins_finishInit args _ _

theorem begins_fuseuringMain (args : StartArgs) (stack : Buffer) :
    Begins args (fuseuringMain args stack) := by
  refine begins_ask .stat fun found => begins_ite (fun _ => begins_exit 1) fun _ => ?_
  refine begins_ask .openDevice fun opened => begins_ite (fun _ => begins_exit 2) fun _ => ?_
  refine begins_ask .mount fun mounted => begins_ite (fun _ => begins_exit 3)
    fun _ => begins_ask .read fun first => ?_
  cases first with
  | none => exact begins_exit 4
  | some first => exact begins_negotiate args stack _

/-- **What a start begins**, whatever the kernel does. -/
theorem workers_of_start (started : (kernel.start args stack).1 = .workers workers) :
    workers = startedWorkers args := by
  have ended := @Program.run_of_any startup Started StartState kernel.handler
    (fuseuringMain args stack) _ ⟨0, 0, []⟩
    (begins_fuseuringMain args stack)
  exact ended workers started

end Workers

/-! ### What a worker serves -/

section Serves

variable {args : StartArgs} {worker : Worker}

/-- A worker with the right arguments keeps to the limit. -/
theorem serves_of_started (positive : 1 ≤ args.maxFuseIos) (isInt : args.maxFuseIos < 2 ^ 31)
    (size : worker.maxFuseIos = args.maxFuseIos)
    (requested : worker.requested = max 100 (2 * args.maxFuseIos))
    (kernel : SetUpKernel) (backingFd fuseFd : Descriptor) (before : SetUpWorld) (ring : ServedRing)
    (after : SetUpWorld)
    (file : before.stands backingFd = some .file)
    (done : Program.run kernel.handler (fuseuringRun worker backingFd fuseFd) before =
      (.ok ring, after)) :
    (ring.ios.length : Int) = args.maxFuseIos ∧ ring.entries = max 100 (2 * args.maxFuseIos) ∧
      ∀ fuseRing entries mem s, Sys.Reaches fuseRing (fun _ _ => True)
      (Sys.init ring.ios.length entries mem) s →
        (s.vals.length : Int) ≤ args.maxFuseIos := by
  obtain ⟨layout, start, middle, same, laid, -, -, -, ios, -, entries⟩ := fuseuringRun_ok done
  have stands : start.stands backingFd = some .file := by
    rcases same with rfl | rfl <;> exact file
  have pool := (layOut_slotsApart (size ▸ positive) (size ▸ isInt) stands laid).slots
  have slots : (ring.ios.length : Int) = args.maxFuseIos := by
    rw [ios, pool, size]
    exact Int.toNat_of_nonneg (by omega)
  refine ⟨slots, entries.trans requested, fun fuseRing entries mem s run => ?_⟩
  have steady : Steady False ring.ios.length s :=
    steady_of_reaches (Sys.fresh_init _ entries mem) (fun _ _ _ impossible => impossible.elim) run
  rw [← slots]
  exact Int.ofNat_le.mpr steady.pool.length_le

/-- A worker that makes its ring itself does what the branch with threads does for one of them. -/
theorem fuseuringRun_alone (same : args.maxBackground = args.maxFuseIos)
    (backingFd fuseFd : Descriptor) :
    fuseuringRun ⟨args.maxBackground, args.maxWrite, none, false⟩ backingFd fuseFd =
      oneThread args backingFd fuseFd := by
  rw [same]
  show Program.perform (S := setUp) (.queueInit (ringEntries args.maxFuseIos)) _ =
    Program.perform (S := setUp) (.queueInit (ringEntries args.maxFuseIos)) _
  refine congrArg _ (funext fun ready => ?_)
  cases ready with
  | false => rfl
  | true => rfl

end Serves

/-! ### The exact condition -/

/-- The size and the ring of each worker that is started. -/
theorem startedWorkers_sized (args : StartArgs) (worker : Worker)
    (member : worker ∈ startedWorkers args) :
    worker.maxFuseIos = (if args.nThreads ≤ 1 then args.maxBackground else args.maxFuseIos) ∧
      worker.requested = ringEntries worker.maxFuseIos := by
  by_cases single : args.nThreads ≤ 1
  · rw [startedWorkers, if_pos single, List.mem_singleton] at member
    rw [member, if_pos single]
    exact ⟨rfl, rfl⟩
  · rw [startedWorkers, if_neg single] at member
    obtain ⟨thread, -, rfl⟩ := List.mem_map.mp member
    refine ⟨(if_neg single).symm, ?_⟩
    rw [Worker.requested]
    by_cases first : thread = 0
    · rw [if_pos first, Option.getD_some]
    · rw [if_neg first, Option.getD_none]

/-- A worker is started in either branch. -/
theorem startedWorkers_some (args : StartArgs) : ∃ worker, worker ∈ startedWorkers args := by
  by_cases single : args.nThreads ≤ 1
  · rw [startedWorkers, if_pos single]
    exact ⟨_, List.mem_singleton_self _⟩
  · rw [startedWorkers, if_neg single]
    exact ⟨_, List.mem_map_of_mem (List.mem_range.mpr (by omega : 0 < args.nThreads))⟩

/-- **The limit is `max_fuse_ios` exactly where its double is an `int` and there are threads,
or where `max_background` is the same.** -/
theorem limit_agrees_iff (kernel : StartKernel) (args : StartArgs) (stack : Buffer)
    (workers : List Worker)
    (positive : 1 ≤ args.maxFuseIos) (isInt : args.maxFuseIos < 2 ^ 31)
    (begun : (kernel.start args stack).1 = .workers workers) :
    LimitAgrees args workers ↔
      args.maxFuseIos < 2 ^ 30 ∧ (2 ≤ args.nThreads ∨ args.maxBackground = args.maxFuseIos) := by
  obtain rfl := workers_of_start begun
  constructor
  · intro agrees
    obtain ⟨worker, member⟩ := startedWorkers_some args
    obtain ⟨size, requested⟩ := startedWorkers_sized args worker member
    obtain ⟨owed, double⟩ := agrees.started worker member
    rw [owed] at size requested
    constructor
    · by_contra large
      rw [requested, ringEntries_wrapped (not_lt.mp large) isInt] at double
      omega
    · by_cases single : args.nThreads ≤ 1
      · rw [if_pos single] at size
        exact Or.inr size.symm
      · exact Or.inl (Nat.not_le.mp single)
  · rintro ⟨small, either⟩
    have started : ∀ worker ∈ startedWorkers args, worker.maxFuseIos = args.maxFuseIos ∧
        worker.requested = max 100 (2 * args.maxFuseIos) := by
      intro worker member
      obtain ⟨size, requested⟩ := startedWorkers_sized args worker member
      have same : worker.maxFuseIos = args.maxFuseIos := by
        rw [size]
        split
        · exact either.resolve_left (by omega)
        · rfl
      rw [requested, same]
      exact ⟨rfl, ringEntries_double positive small⟩
    refine ⟨started, fun worker member => ?_, fun single backingFd fuseFd => ?_⟩
    · exact serves_of_started positive isInt (started worker member).1 (started worker member).2
    · have same : args.maxBackground = args.maxFuseIos := either.resolve_left (by omega)
      rw [startedWorkers, if_pos single, List.map_singleton, fuseuringRun_alone same]

/-- Four threads with a `max_background` of their own. -/
theorem limit_agrees_threads : ∃ workers,
    ((offeringKernel (2 ^ 32 - 1)).start ⟨16, 64, 1064, 4, 4096⟩ (ofList [])).1 = .workers workers ∧
      LimitAgrees ⟨16, 64, 1064, 4, 4096⟩ workers :=
  ⟨startedWorkers ⟨16, 64, 1064, 4, 4096⟩, rfl,
    (limit_agrees_iff (offeringKernel (2 ^ 32 - 1)) ⟨16, 64, 1064, 4, 4096⟩ (ofList []) _
      (by decide) (by decide)
      rfl).mpr ⟨by decide, Or.inl (by decide)⟩⟩

/-- **One worker has a pool of `max_background`**: 64 slots where 16 are asked for. -/
theorem single_worker_pool : ∃ workers,
    ((offeringKernel (2 ^ 32 - 1)).start ⟨16, 64, 1064, 1, 4096⟩ (ofList [])).1 = .workers workers ∧
      ¬ LimitAgrees ⟨16, 64, 1064, 1, 4096⟩ workers := by
  refine ⟨[⟨64, 1048576, none, false⟩], rfl, fun agrees => ?_⟩
  exact absurd (agrees.started _ (List.mem_singleton_self _)).1 (by decide)

end Fuseuring
