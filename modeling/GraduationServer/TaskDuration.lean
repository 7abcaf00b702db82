import GraduationServer.TaskPeriod

/-!
Nodes with a duration. `expired` compares the duration, which counts from the
call of `add`, with the clock, which counts from the epoch.
-/

namespace GraduationServer

namespace TaskProcess

/-- The node stays for its duration, works meanwhile, and is removed by the
first poll that comes later, which does nothing to the other nodes. -/
structure LivesFor (start : tick_t) (durationSec_ : Int) (task : Task) (address : NodePtr)
    (turns : Nat → Turn) : Prop where
  kept : ∀ number, ((turns number).clock address).expired ≤ start + durationSec_ →
    ((task.after turns (number + 1)).node address).isSome
  works : ∃ number, address ∈ task.worked turns number
  removed : ∀ number, start + durationSec_ < ((turns number).clock address).expired →
    (∀ earlier < number, ((turns earlier).clock address).expired ≤ start + durationSec_) →
    (task.after turns (number + 1)).node address = none
  stops : ∀ number, start + durationSec_ < ((turns number).clock address).expired →
    address ∉ task.worked turns number
  others : ∀ number,
    Task.removeNode ((task.after turns number).process (turns number).clock).1.taskList_ address =
      (((task.after turns number).remove address).process (turns number).clock).1.taskList_ ∧
    (task.worked turns number).filter (· ≠ address) =
      (((task.after turns number).remove address).process (turns number).clock).2

namespace Task

theorem process_remove (task : Task) (address : NodePtr) (clock : NodePtr → Visit) :
    removeNode (task.process clock).1.taskList_ address =
        ((task.remove address).process clock).1.taskList_ ∧
      (task.process clock).2.filter (· ≠ address) = ((task.remove address).process clock).2 := by
  have both := processNodes_eq clock task.distinct
  have alone := processNodes_eq clock (task.remove address).distinct
  simp only [process, both, alone]
  constructor
  · simp only [remove, removeNode, List.filter_filterMap, List.filterMap_filter]
    apply List.filterMap_congr
    intro entry _
    by_cases same : entry.1 = address
    · cases entry.2.visit (clock entry.1) <;> simp [survivor, same]
    · cases visited : entry.2.visit (clock entry.1) <;> simp [survivor, visited, same]
  · simp only [remove, removeNode, List.filter_filterMap, List.filterMap_filter]
    apply List.filterMap_congr
    intro entry _
    by_cases same : entry.1 = address
    · cases entry.2.works (clock entry.1) <;> simp [worker, same]
    · cases works : entry.2.works (clock entry.1) <;> simp [worker, works, same]

theorem after_gone {task : Task} {address : NodePtr} {turns : Nat → Turn} {node : TaskNode}
    {start : tick_t} (earlier : address < task.heap) (there : task.node address = some node)
    (armed : node.nextTick_ = start + node.freqSec_) {number : Nat}
    (expired : node.expired ((turns number).clock address).expired = true) :
    (task.after turns (number + 1)).node address = none ∧ address ∉ task.worked turns number := by
  have every {current : TaskNode} (still : (task.after turns number).node address = some current) :
      current.expired ((turns number).clock address).expired = true := by
    rw [after_node earlier there armed still]
    exact expired
  constructor
  · rw [after_succ earlier, Option.bind_eq_none_iff]
    intro current still
    simp [TaskNode.visit, every still]
  · intro worked
    obtain ⟨current, still, stays, -⟩ := (worked_iff number).mp worked
    rw [every still] at stays
    cases stays

end Task

section

variable {manager : TaskManager} {workObject_ : WorkPtr} {freqSec_ durationSec_ : Int}
variable {start : tick_t} {task : Task} {address : NodePtr} {turns : Nat → Turn}

theorem unexpired_iff (some_time : 0 < durationSec_) (now : tick_t) :
    (TaskNode.new workObject_ freqSec_ durationSec_ start).expired now = false ↔
      workObject_ ≠ 0 ∧ now ≤ durationSec_ := by
  have finite : durationSec_ ≠ TICK_INFINTY := Int.ne_of_gt some_time
  by_cases null : workObject_ = 0
  · simp [TaskNode.expired, TaskNode.new, TaskNode.nextTick, null]
  · have compared : (TaskNode.new workObject_ freqSec_ durationSec_ start).expired now =
        decide (durationSec_ < now) :=
      (if_neg null).trans (if_pos finite)
    rw [compared, decide_eq_false_iff_not, Int.not_lt]
    exact ⟨fun early => ⟨null, early⟩, And.right⟩

theorem livesFor_at_epoch
    (gives : manager.Gives workObject_ freqSec_ durationSec_ 0 task address)
    (some_work : workObject_ ≠ 0) (positive : 1 ≤ freqSec_) (longer : freqSec_ < durationSec_)
    (polled : Polled Visit.expired 0 address turns) :
    LivesFor 0 durationSec_ task address turns := by
  obtain ⟨earlier, there⟩ := gives.armed
  have unexpired (number : Nat)
      (within : ((turns number).clock address).expired ≤ durationSec_) :
      ∀ before ≤ number, (TaskNode.new workObject_ freqSec_ durationSec_ 0).expired
        ((turns before).clock address).expired = false := by
    intro before less
    exact (unexpired_iff (by omega) _).mpr
      ⟨some_work, Int.le_trans (polled.expired_le less) within⟩
  have gone (number : Nat) (later : durationSec_ < ((turns number).clock address).expired) :
      (TaskNode.new workObject_ freqSec_ durationSec_ 0).expired
        ((turns number).clock address).expired = true := by
    rw [← Bool.not_eq_false, unexpired_iff (by omega)]
    exact fun stays => Int.not_lt.mpr stays.2 later
  constructor
  · intro number within
    rw [Int.zero_add] at within
    obtain ⟨current, still⟩ : ∃ current,
        (task.after turns (number + 1)).node address = some current :=
      Task.after_alive earlier there rfl fun before less =>
        unexpired number within before (Nat.le_of_lt_succ less)
    rw [still]
    rfl
  · obtain ⟨number, shown⟩ := polled.everySecond (freqSec_ + 1) (by linarith)
    have within : ((turns number).clock address).expired ≤ durationSec_ := by
      rw [shown]
      exact longer
    have passed : 0 + freqSec_ < (looks address turns number).now := by
      have compared := polled.compared number
      rw [shown] at compared
      rw [Int.zero_add]
      exact compared
    obtain ⟨fired, before, fires⟩ := Alarm.fired_by passed
    exact ⟨fired, (Task.worked_iff_fires earlier there rfl fun other less =>
      unexpired number within other (Nat.le_trans less before)).mpr fires⟩
  · intro number later _
    rw [Int.zero_add] at later
    exact (Task.after_gone earlier there rfl (gone number later)).1
  · intro number later
    rw [Int.zero_add] at later
    exact (Task.after_gone earlier there rfl (gone number later)).2
  · exact fun number => Task.process_remove _ address _

theorem not_livesFor_after
    (gives : manager.Gives workObject_ freqSec_ durationSec_ start task address)
    (some_time : 0 < durationSec_) (polled : Polled Visit.expired start address turns)
    {second : Int} (seen : start < second) (within : second ≤ start + durationSec_)
    (expires : workObject_ = 0 ∨ durationSec_ < second) :
    ¬ LivesFor start durationSec_ task address turns := by
  intro lives
  obtain ⟨earlier, there⟩ := gives.armed
  obtain ⟨number, shown⟩ := polled.everySecond second seen
  have kept := lives.kept number (Int.le_trans (Int.le_of_eq shown) within)
  have expired : (TaskNode.new workObject_ freqSec_ durationSec_ start).expired
      ((turns number).clock address).expired = true := by
    rw [← Bool.not_eq_false, unexpired_iff some_time, shown]
    rintro ⟨some_work, early⟩
    rcases expires with none_there | late
    · exact some_work none_there
    · exact Int.not_lt.mpr early late
  rw [(Task.after_gone earlier there rfl expired).1] at kept
  cases kept

theorem not_livesFor_before
    (gives : manager.Gives workObject_ freqSec_ durationSec_ start task address)
    (some_work : workObject_ ≠ 0) (some_time : 0 < durationSec_)
    (polled : Polled Visit.expired start address turns) (before : start < 0) :
    ¬ LivesFor start durationSec_ task address turns := by
  intro lives
  obtain ⟨earlier, there⟩ := gives.armed
  obtain ⟨last, shown⟩ := polled.everySecond (start + durationSec_ + 1) (by linarith)
  have passed : ∃ number, start + durationSec_ < ((turns number).clock address).expired :=
    ⟨last, by rw [shown]; exact Int.lt_succ _⟩
  -- the first poll behind the node's time, when the clock is not past the duration itself
  obtain ⟨number, late, first⟩ : ∃ number,
      start + durationSec_ < ((turns number).clock address).expired ∧ ∀ other < number,
        ¬ start + durationSec_ < ((turns other).clock address).expired :=
    ⟨Nat.find passed, Nat.find_spec passed, fun other less => Nat.find_min passed less⟩
  have near : number ≤ last := by
    by_contra beyond
    exact first last (Nat.lt_of_not_le beyond) (by rw [shown]; exact Int.lt_succ _)
  have early : ((turns number).clock address).expired ≤ durationSec_ := by
    have least := polled.expired_le near
    rw [shown] at least
    have negative : start + 1 ≤ 0 := before
    linarith
  obtain ⟨current, still⟩ : ∃ current,
      (task.after turns (number + 1)).node address = some current :=
    Task.after_alive earlier there rfl fun other less => (unexpired_iff some_time _).mpr
      ⟨some_work, Int.le_trans (polled.expired_le (Nat.le_of_lt_succ less)) early⟩
  rw [lives.removed number late fun other less => Int.not_lt.mp (first other less)] at still
  cases still

/-- A node lives for its duration exactly when it is added at the epoch, where
the clock shows how long ago that was. -/
theorem livesFor_iff
    (gives : manager.Gives workObject_ freqSec_ durationSec_ start task address)
    (positive : 1 ≤ freqSec_) (longer : freqSec_ < durationSec_)
    (polled : Polled Visit.expired start address turns) :
    LivesFor start durationSec_ task address turns ↔ workObject_ ≠ 0 ∧ start = 0 := by
  have some_time : 0 < durationSec_ := by omega
  constructor
  · intro lives
    have some_work : workObject_ ≠ 0 := by
      intro none_there
      exact not_livesFor_after gives some_time polled (Int.lt_succ start) (by linarith)
        (Or.inl none_there) lives
    refine ⟨some_work, ?_⟩
    rcases Int.lt_trichotomy start 0 with before | epoch | later
    · exact absurd lives (not_livesFor_before gives some_work some_time polled before)
    · exact epoch
    · exact absurd lives (not_livesFor_after gives some_time polled (by linarith)
        (Int.le_refl (start + durationSec_)) (Or.inr (by linarith)))
  · rintro ⟨some_work, rfl⟩
    exact livesFor_at_epoch gives some_work positive longer polled

end

theorem livesFor_iff_epoch :
    LivesFor 0 10 (oneTask 1 10 0) 1 (secondly 0) ↔ (8 : WorkPtr) ≠ 0 ∧ (0 : tick_t) = 0 :=
  livesFor_iff (oneTask_given 1 10 0) (by decide) (by decide)
    (secondly_polled 0 1 fun _ => rfl)

/-- Work for ten seconds from a day in 2019 on: the first poll removes it. -/
theorem livesFor_removed : ¬ ∀ (manager : TaskManager) (workObject_ : WorkPtr)
    (freqSec_ durationSec_ : Int) (start : tick_t) (task : Task) (address : NodePtr)
    (turns : Nat → Turn),
    manager.Gives workObject_ freqSec_ durationSec_ start task address → workObject_ ≠ 0 →
    1 ≤ freqSec_ → freqSec_ < durationSec_ → Polled Visit.expired start address turns →
    LivesFor start durationSec_ task address turns := by
  intro every
  have lives := every _ _ _ _ _ _ _ _ (oneTask_given 1 10 1556606480) (by decide) (by decide)
    (by decide) (secondly_polled 1556606480 1 fun _ => rfl)
  exact absurd (lives.kept 0 (by decide)) (by decide)

end TaskProcess

end GraduationServer
