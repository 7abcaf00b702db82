import GraduationServer.TaskProcess

/-!
A node over the turns of its task. Nodes that are added meanwhile come behind it,
and no other node touches it. The comparison in `tick` is strict, so that work
which is to be done every `freqSec_` seconds is done a second later each time.
-/

namespace GraduationServer

namespace TaskProcess

/-- A turn of the loop of `process`, with the nodes that are added before the next one. -/
structure Turn where
  clock : NodePtr → Visit
  added : List TaskNode

namespace Task

def turn (task : Task) (turn : Turn) : Task := turn.added.foldl add (task.process turn.clock).1

def after (task : Task) (turns : Nat → Turn) : Nat → Task
  | 0 => task
  | number + 1 => (task.after turns number).turn (turns number)

def worked (task : Task) (turns : Nat → Turn) (number : Nat) : List NodePtr :=
  ((task.after turns number).process (turns number).clock).2

end Task

/-- `add` puts the new node, at this address, on the list of a task of the pool. -/
structure TaskManager.Gives (manager : TaskManager) (workObject_ : WorkPtr)
    (freqSec_ durationSec_ : Int) (now : tick_t) (task : Task) (address : NodePtr) : Prop where
  threads : 1 ≤ manager.threadCount_
  given : ∃ before after, manager.taskPool_[manager.index]? = some before ∧
    address = before.heap ∧ manager.add workObject_ freqSec_ durationSec_ now = .ok after ∧
    after.taskPool_[manager.index]? = some task

/-- A clock that does not go back over the visits of a node, and that one of the
reads of some visit shows at each second. -/
structure Polled (read : Visit → tick_t) (start : tick_t) (address : NodePtr)
    (turns : Nat → Turn) : Prop where
  started : start ≤ ((turns 0).clock address).expired
  compared : ∀ number, ((turns number).clock address).expired ≤ ((turns number).clock address).tick
  rearmed : ∀ number, ((turns number).clock address).tick ≤ ((turns number).clock address).nextTick
  onward : ∀ number,
    ((turns number).clock address).nextTick ≤ ((turns (number + 1)).clock address).expired
  everySecond : ∀ second, start < second → ∃ number, read ((turns number).clock address) = second

/-- The work is done at the given ticks, and at each in one turn only. -/
structure Periodic (start : tick_t) (freqSec_ : Int) (task : Task) (address : NodePtr)
    (turns : Nat → Turn) : Prop where
  onlyThen : ∀ number, address ∈ task.worked turns number → ∃ count : Nat,
    ((turns number).clock address).tick = start + (count + 1) * freqSec_
  onceEach : ∀ count : Nat, ∃! number, address ∈ task.worked turns number ∧
    ((turns number).clock address).tick = start + (count + 1) * freqSec_

def looks (address : NodePtr) (turns : Nat → Turn) (number : Nat) : Look :=
  { now := ((turns number).clock address).tick
    later := ((turns number).clock address).nextTick }

theorem Polled.ordered {read : Visit → tick_t} {start : tick_t} {address : NodePtr}
    {turns : Nat → Turn} (polled : Polled read start address turns) :
    Alarm.Ordered (looks address turns) := by
  constructor
  · exact polled.rearmed
  · intro number
    exact Int.le_trans (polled.onward number) (polled.compared (number + 1))

theorem Polled.expired_le {read : Visit → tick_t} {start : tick_t} {address : NodePtr}
    {turns : Nat → Turn} (polled : Polled read start address turns) {first later : Nat}
    (before : first ≤ later) :
    ((turns first).clock address).expired ≤ ((turns later).clock address).expired := by
  induction later with
  | zero =>
      obtain rfl : first = 0 := by omega
      exact Int.le_refl _
  | succ later ih =>
      rcases Nat.le_succ_iff.mp before with earlier | rfl
      · exact Int.le_trans (ih earlier) (Int.le_trans (polled.compared later)
          (Int.le_trans (polled.rearmed later) (polled.onward later)))
      · exact Int.le_refl _

theorem TaskManager.Gives.eq_add {manager : TaskManager} {workObject_ : WorkPtr}
    {freqSec_ durationSec_ : Int} {now : tick_t} {task : Task} {address : NodePtr}
    (gives : manager.Gives workObject_ freqSec_ durationSec_ now task address) :
    ∃ before : Task, address = before.heap ∧
      task = before.add (TaskNode.new workObject_ freqSec_ durationSec_ now) := by
  obtain ⟨before, after, found, heap, added, there⟩ := gives.given
  refine ⟨before, heap, ?_⟩
  have some_threads : ¬ manager.threadCount_ < 1 := Int.not_lt.mpr gives.threads
  simp only [TaskManager.add, some_threads, if_false, found, Except.ok.injEq] at added
  subst added
  have inside : manager.index < manager.taskPool_.length := (List.getElem?_eq_some_iff.mp found).1
  rw [List.getElem?_set_self inside, Option.some.injEq] at there
  exact there.symm

namespace Task

variable {task : Task} {address : NodePtr} {turns : Nat → Turn} {node : TaskNode}

theorem foldl_add (added : List TaskNode) (earlier : address < task.heap) :
    (added.foldl add task).node address = task.node address ∧
      address < (added.foldl add task).heap := by
  induction added generalizing task with
  | nil => exact ⟨rfl, earlier⟩
  | cons taskNode rest ih =>
      have allocated : address < (task.add taskNode).heap := Nat.lt_succ_of_lt earlier
      obtain ⟨same, still⟩ := ih allocated
      exact ⟨same.trans (add_node taskNode earlier), still⟩

theorem turn_node (turn : Turn) (earlier : address < task.heap) :
    (task.turn turn).node address =
      ((task.node address).bind fun taskNode => taskNode.visit (turn.clock address)) ∧
    address < (task.turn turn).heap := by
  have allocated : address < (task.process turn.clock).1.heap := earlier
  obtain ⟨same, still⟩ := foldl_add turn.added allocated
  exact ⟨same.trans (process_node turn.clock), still⟩

theorem after_heap (earlier : address < task.heap) (number : Nat) :
    address < (task.after turns number).heap := by
  induction number with
  | zero => exact earlier
  | succ number ih => exact (turn_node (turns number) ih).2

theorem after_succ (earlier : address < task.heap) (number : Nat) :
    (task.after turns (number + 1)).node address =
      ((task.after turns number).node address).bind
        fun taskNode => taskNode.visit ((turns number).clock address) :=
  (turn_node (turns number) (after_heap earlier number)).1

theorem visit_some {visit : Visit} {next : TaskNode} (visited : node.visit visit = some next) :
    node.expired visit.expired = false ∧ next = { node with
      nextTick_ := if node.nextTick_ < visit.tick then visit.nextTick + node.freqSec_
        else node.nextTick_ } := by
  simp only [TaskNode.visit, Option.ite_none_left_eq_some, Option.some.injEq,
    Bool.not_eq_true] at visited
  obtain ⟨stays, rfl⟩ := visited
  refine ⟨stays, ?_⟩
  rw [TaskNode.tick]
  split <;> rfl

theorem after_node {start : tick_t} {current : TaskNode} (earlier : address < task.heap)
    (there : task.node address = some node) (armed : node.nextTick_ = start + node.freqSec_)
    {number : Nat} (still : (task.after turns number).node address = some current) :
    current = { node with
      nextTick_ := Alarm.armed start node.freqSec_ (looks address turns) number } := by
  induction number generalizing current with
  | zero =>
      obtain rfl : node = current := Option.some.inj (there.symm.trans still)
      rw [Alarm.armed, ← armed]
  | succ number ih =>
      rw [after_succ earlier] at still
      obtain ⟨before, was, visited⟩ := Option.bind_eq_some_iff.mp still
      obtain ⟨-, rfl⟩ := visit_some visited
      rw [ih was]
      rfl

theorem worked_iff (number : Nat) : address ∈ task.worked turns number ↔
    ∃ current, (task.after turns number).node address = some current ∧
      current.expired ((turns number).clock address).expired = false ∧
      current.nextTick_ < ((turns number).clock address).tick := by
  rw [worked, process_worked]
  apply exists_congr
  intro current
  simp only [TaskNode.works, TaskNode.tick, Bool.and_eq_true, Bool.not_eq_true']
  by_cases passed : current.nextTick_ < ((turns number).clock address).tick <;> simp [passed]

theorem worked_fires {start : tick_t} (earlier : address < task.heap)
    (there : task.node address = some node) (armed : node.nextTick_ = start + node.freqSec_)
    {number : Nat} (worked : address ∈ task.worked turns number) :
    Alarm.Fires start node.freqSec_ (looks address turns) number := by
  obtain ⟨current, still, -, passed⟩ := (worked_iff number).mp worked
  rw [after_node earlier there armed still] at passed
  exact passed

theorem after_alive {start : tick_t} (earlier : address < task.heap)
    (there : task.node address = some node) (armed : node.nextTick_ = start + node.freqSec_)
    {number : Nat}
    (unexpired : ∀ before < number,
      node.expired ((turns before).clock address).expired = false) :
    ∃ current, (task.after turns number).node address = some current := by
  induction number with
  | zero => exact ⟨node, there⟩
  | succ number ih =>
      obtain ⟨current, still⟩ := ih fun before less => unexpired before (Nat.lt_succ_of_lt less)
      have stays : current.expired ((turns number).clock address).expired = false := by
        rw [after_node earlier there armed still]
        exact unexpired number (Nat.lt_succ_self _)
      rw [after_succ earlier, still]
      simp [TaskNode.visit, stays]

theorem worked_iff_fires {start : tick_t} (earlier : address < task.heap)
    (there : task.node address = some node) (armed : node.nextTick_ = start + node.freqSec_)
    {number : Nat}
    (unexpired : ∀ before ≤ number,
      node.expired ((turns before).clock address).expired = false) :
    address ∈ task.worked turns number ↔
      Alarm.Fires start node.freqSec_ (looks address turns) number := by
  refine ⟨worked_fires earlier there armed, ?_⟩
  intro fires
  obtain ⟨current, still⟩ := after_alive earlier there armed
    fun before less => unexpired before (Nat.le_of_lt less)
  have same := after_node earlier there armed still
  refine (worked_iff number).mpr ⟨current, still, ?_, ?_⟩
  · rw [same]
    exact unexpired number (Nat.le_refl _)
  · rw [same]
    exact fires

end Task

section

variable {manager : TaskManager} {workObject_ : WorkPtr} {freqSec_ durationSec_ : Int}
variable {start : tick_t} {task : Task} {address : NodePtr} {turns : Nat → Turn}

theorem TaskManager.Gives.armed
    (gives : manager.Gives workObject_ freqSec_ durationSec_ start task address) :
    address < task.heap ∧
      task.node address = some (TaskNode.new workObject_ freqSec_ durationSec_ start) := by
  obtain ⟨before, rfl, rfl⟩ := gives.eq_add
  exact ⟨Nat.lt_succ_self _, Task.add_node_new _⟩

theorem first_period_missed
    (gives : manager.Gives workObject_ freqSec_ durationSec_ start task address)
    (positive : 1 ≤ freqSec_) (ordered : Alarm.Ordered (looks address turns)) {number : Nat}
    (worked : address ∈ task.worked turns number) :
    start + freqSec_ < (looks address turns number).now := by
  obtain ⟨earlier, there⟩ := gives.armed
  have forward : 0 ≤ freqSec_ := by omega
  exact Alarm.fires_late ordered forward (Task.worked_fires earlier there rfl worked)

/-- Whatever the clock shows, the work is not done at the tick of the first period. -/
theorem periodic_never
    (gives : manager.Gives workObject_ freqSec_ TICK_INFINTY start task address)
    (positive : 1 ≤ freqSec_) (polled : Polled Visit.tick start address turns) :
    ¬ Periodic start freqSec_ task address turns := by
  intro periodic
  obtain ⟨number, ⟨worked, first⟩, -⟩ := periodic.onceEach 0
  have late := first_period_missed gives positive polled.ordered worked
  have shown : (looks address turns number).now = start + (0 + 1) * freqSec_ := first
  rw [shown, Int.zero_add, Int.one_mul] at late
  exact Int.lt_irrefl _ late

end

def secondly (start : tick_t) (number : Nat) : Turn :=
  { clock := fun _ =>
      { expired := start + 1 + number
        tick := start + 1 + number
        nextTick := start + 1 + number }
    added := [] }

theorem secondly_polled {read : Visit → tick_t} (start : tick_t) (address : NodePtr)
    (shows : ∀ now, read { expired := now, tick := now, nextTick := now } = now) :
    Polled read start address (secondly start) := by
  constructor
  · change start ≤ start + 1 + ((0 : Nat) : Int)
    exact Int.le_trans (Int.le_of_lt (Int.lt_succ start)) (Int.le_add_of_nonneg_right (by simp))
  · exact fun _ => Int.le_refl _
  · exact fun _ => Int.le_refl _
  · intro number
    change start + 1 + (number : Int) ≤ start + 1 + ((number + 1 : Nat) : Int)
    exact Int.add_le_add_left (by simp) _
  · intro second later
    refine ⟨(second - start - 1).toNat, (shows _).trans ?_⟩
    have reached : (((second - start - 1).toNat : Nat) : Int) = second - start - 1 :=
      Int.toNat_of_nonneg (by linarith)
    rw [reached]
    ring

def oneTask (freqSec_ durationSec_ : Int) (start : tick_t) : Task :=
  Task.empty.add (TaskNode.new 8 freqSec_ durationSec_ start)

theorem oneTask_given (freqSec_ durationSec_ : Int) (start : tick_t) :
    (TaskManager.initialized 1).Gives 8 freqSec_ durationSec_ start
      (oneTask freqSec_ durationSec_ start) 1 :=
  ⟨by decide, Task.empty, _, rfl, rfl, rfl, rfl⟩

theorem periodic_never_reported :
    ¬ Periodic 1556606480 1 (oneTask 1 TICK_INFINTY 1556606480) 1 (secondly 1556606480) :=
  periodic_never (oneTask_given 1 TICK_INFINTY 1556606480) (by decide)
    (secondly_polled 1556606480 1 fun _ => rfl)

/-- Work with the frequency 1 of a node that is looked at in each second: it is
not done at the first one. -/
theorem not_periodic : ¬ ∀ (manager : TaskManager) (workObject_ : WorkPtr) (freqSec_ : Int)
    (start : tick_t) (task : Task) (address : NodePtr) (turns : Nat → Turn),
    manager.Gives workObject_ freqSec_ TICK_INFINTY start task address → 1 ≤ freqSec_ →
    Polled Visit.tick start address turns → Periodic start freqSec_ task address turns := by
  intro every
  have given := oneTask_given 1 TICK_INFINTY 1556606480
  have polled : Polled Visit.tick 1556606480 1 (secondly 1556606480) :=
    secondly_polled 1556606480 1 fun _ => rfl
  have periodic := every _ _ _ _ _ _ _ given (by decide) polled
  obtain ⟨number, ⟨worked, first⟩, -⟩ := periodic.onceEach 0
  have late := first_period_missed given (by decide) polled.ordered worked
  have shown : (looks 1 (secondly 1556606480) number).now = 1556606481 := first
  rw [shown] at late
  exact absurd late (by decide)

section

variable {manager : TaskManager} {workObject_ : WorkPtr} {freqSec_ : Int}
variable {start : tick_t} {task : Task} {address : NodePtr} {turns : Nat → Turn}

theorem unexpired_infinite (some_work : workObject_ ≠ 0) (now : tick_t) :
    (TaskNode.new workObject_ freqSec_ TICK_INFINTY start).expired now = false := by
  simp [TaskNode.expired, TaskNode.new, TaskNode.nextTick, some_work]

/-- What the code does: where no second passes within a visit, the work is done
once at every `freqSec_ + 1` seconds, and at no other tick. -/
theorem worked_every
    (gives : manager.Gives workObject_ freqSec_ TICK_INFINTY start task address)
    (some_work : workObject_ ≠ 0) (positive : 1 ≤ freqSec_)
    (polled : Polled Visit.tick start address turns)
    (at_once : ∀ number,
      ((turns number).clock address).nextTick = ((turns number).clock address).tick) :
    Periodic start (freqSec_ + 1) task address turns := by
  obtain ⟨earlier, there⟩ := gives.armed
  have forward : 0 ≤ freqSec_ := by omega
  have fires (number : Nat) : address ∈ task.worked turns number ↔
      Alarm.Fires start freqSec_ (looks address turns) number :=
    Task.worked_iff_fires earlier there rfl fun _ _ => unexpired_infinite some_work _
  have every : Alarm.EverySecond start (looks address turns) :=
    ⟨polled.ordered, at_once, polled.everySecond⟩
  constructor
  · intro number worked
    exact (Alarm.fires_iff every forward _).mp ⟨number, (fires number).mp worked, rfl⟩
  · intro count
    obtain ⟨number, fired, shown⟩ := (Alarm.fires_iff every forward _).mpr ⟨count, rfl⟩
    refine ⟨number, ⟨(fires number).mpr fired, shown⟩, ?_⟩
    rintro other ⟨worked, same⟩
    exact Alarm.fires_once polled.ordered forward ((fires other).mp worked) fired
      (same.trans shown.symm)

end

end TaskProcess

end GraduationServer
