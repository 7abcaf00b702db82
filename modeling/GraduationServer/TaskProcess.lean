import GraduationServer.Fault
import GraduationServer.Library.Alarm
import Mathlib.Data.List.Nodup

/-!
`Task.h` and `Task.cpp`: nodes with work that a thread looks at turn after turn.
What `NOW_TICK()` returns is given to each call, since the clock may go on
between two of them.
-/

namespace GraduationServer

namespace TaskProcess

abbrev tick_t := Int

def TICK_INFINTY : Int := 0

abbrev WorkPtr := Nat

abbrev NodePtr := Nat

structure TaskNode where
  workObject_ : WorkPtr
  freqSec_ : Int
  durationSec_ : Int
  nextTick_ : tick_t

/-- What `NOW_TICK()` returns to `expired`, to `tick` and then to `nextTick`
while `process` visits a node. -/
structure Visit where
  expired : tick_t
  tick : tick_t
  nextTick : tick_t

namespace TaskNode

def nextTick (node : TaskNode) (now : tick_t) : TaskNode :=
  { node with nextTick_ := now + node.freqSec_ }

def new (workObject_ : WorkPtr) (freqSec_ durationSec_ : Int) (now : tick_t) : TaskNode :=
  nextTick { workObject_, freqSec_, durationSec_, nextTick_ := 0 } now

def expired (node : TaskNode) (now : tick_t) : Bool :=
  if node.workObject_ = 0 then true
  else if node.durationSec_ ≠ TICK_INFINTY then decide (node.durationSec_ < now)
  else false

def tick (node : TaskNode) (now later : tick_t) : TaskNode × Bool :=
  if node.nextTick_ < now then (node.nextTick later, true) else (node, false)

end TaskNode

/-- The nodes with their addresses. `remove` deletes no node, so that `heap`, which
`new` gives next, is no address from before. -/
structure Task where
  taskList_ : List (NodePtr × TaskNode)
  heap : NodePtr
  below : ∀ entry ∈ taskList_, entry.1 < heap
  distinct : (taskList_.map Prod.fst).Nodup

namespace Task

def empty : Task :=
  { taskList_ := []
    heap := 1
    below := by simp
    distinct := List.nodup_nil }

theorem append_below (task : Task) (taskNode : TaskNode) :
    ∀ entry ∈ task.taskList_ ++ [(task.heap, taskNode)], entry.1 < task.heap + 1 := by
  intro entry member
  rcases List.mem_append.mp member with earlier | new
  · exact Nat.lt_succ_of_lt (task.below entry earlier)
  · rw [List.mem_singleton] at new
    simp [new]

theorem append_distinct (task : Task) (taskNode : TaskNode) :
    ((task.taskList_ ++ [(task.heap, taskNode)]).map Prod.fst).Nodup := by
  rw [List.map_append]
  refine List.nodup_append.mpr ⟨task.distinct, by simp, ?_⟩
  intro address earlier other new same
  obtain ⟨entry, member, rfl⟩ := List.mem_map.mp earlier
  have last : other = task.heap := by simpa using new
  exact Nat.ne_of_lt (task.below entry member) (same.trans last)

def add (task : Task) (taskNode : TaskNode) : Task :=
  { taskList_ := task.taskList_ ++ [(task.heap, taskNode)]
    heap := task.heap + 1
    below := task.append_below taskNode
    distinct := task.append_distinct taskNode }

def removeNode (taskList_ : List (NodePtr × TaskNode)) (taskNode : NodePtr) :
    List (NodePtr × TaskNode) :=
  taskList_.filter fun entry => entry.1 ≠ taskNode

def remove (task : Task) (taskNode : NodePtr) : Task :=
  { task with
    taskList_ := removeNode task.taskList_ taskNode
    below := fun entry member => task.below entry (List.mem_of_mem_filter member)
    distinct := task.distinct.sublist (List.filter_sublist.map Prod.fst) }

/-- The first loop of `process`: the nodes afterwards, `deleteNodes`, and the
nodes whose work is done. -/
def visitNodes (clock : NodePtr → Visit) :
    List (NodePtr × TaskNode) → List (NodePtr × TaskNode) × List NodePtr × List NodePtr
  | [] => ([], [], [])
  | (address, taskNode) :: rest =>
      let visit := clock address
      let (taskList_, deleteNodes, worked) := visitNodes clock rest
      if taskNode.expired visit.expired then
        ((address, taskNode) :: taskList_, address :: deleteNodes, worked)
      else
        let (taskNode, done) := taskNode.tick visit.tick visit.nextTick
        ((address, taskNode) :: taskList_, deleteNodes, if done then address :: worked else worked)

def processNodes (clock : NodePtr → Visit) (taskList_ : List (NodePtr × TaskNode)) :
    List (NodePtr × TaskNode) × List NodePtr :=
  let (taskList_, deleteNodes, worked) := visitNodes clock taskList_
  (deleteNodes.foldl removeNode taskList_, worked)

theorem visitNodes_addresses (clock : NodePtr → Visit) (taskList_ : List (NodePtr × TaskNode)) :
    (visitNodes clock taskList_).1.map Prod.fst = taskList_.map Prod.fst := by
  induction taskList_ with
  | nil => rfl
  | cons entry rest ih =>
      obtain ⟨address, taskNode⟩ := entry
      simp only [visitNodes]
      split <;> simp [ih]

theorem foldl_removeNode (deleteNodes : List NodePtr) (taskList_ : List (NodePtr × TaskNode)) :
    deleteNodes.foldl removeNode taskList_ =
      taskList_.filter fun entry => decide (entry.1 ∉ deleteNodes) := by
  induction deleteNodes generalizing taskList_ with
  | nil => simp
  | cons address rest ih =>
      rw [List.foldl_cons, ih, removeNode, List.filter_filter]
      congr 1
      funext entry
      simp [Bool.and_comm]

theorem processNodes_sublist (clock : NodePtr → Visit) (taskList_ : List (NodePtr × TaskNode)) :
    ((processNodes clock taskList_).1.map Prod.fst).Sublist (taskList_.map Prod.fst) := by
  have kept : ((processNodes clock taskList_).1.map Prod.fst).Sublist
      ((visitNodes clock taskList_).1.map Prod.fst) := by
    simp only [processNodes, foldl_removeNode]
    exact List.filter_sublist.map Prod.fst
  rwa [visitNodes_addresses] at kept

def process (task : Task) (clock : NodePtr → Visit) : Task × List NodePtr :=
  ({ task with
      taskList_ := (processNodes clock task.taskList_).1
      below := by
        intro entry member
        have address := (processNodes_sublist clock task.taskList_).subset
          (List.mem_map_of_mem member)
        obtain ⟨earlier, there, same⟩ := List.mem_map.mp address
        rw [← same]
        exact task.below earlier there
      distinct := task.distinct.sublist (processNodes_sublist clock task.taskList_) },
    (processNodes clock task.taskList_).2)

def node (task : Task) (address : NodePtr) : Option TaskNode :=
  (task.taskList_.find? fun entry => entry.1 = address).map Prod.snd

end Task

structure TaskManager where
  threadCount_ : Int
  taskPool_ : List Task
  nodeCount : Nat

namespace TaskManager

def initialized (threadCount_ : Nat) : TaskManager :=
  { threadCount_ := threadCount_
    taskPool_ := List.replicate threadCount_ Task.empty
    nodeCount := 0 }

def index (manager : TaskManager) : Nat := manager.nodeCount % manager.threadCount_.toNat

def add (manager : TaskManager) (workObject_ : WorkPtr) (freqSec_ durationSec_ : Int)
    (now : tick_t) : Exec TaskManager :=
  if manager.threadCount_ < 1 then .ok manager
  else
    let node := TaskNode.new workObject_ freqSec_ durationSec_ now
    match manager.taskPool_[manager.index]? with
    | none => .error .outOfBounds
    | some task =>
        .ok { manager with
          taskPool_ := manager.taskPool_.set manager.index (task.add node)
          nodeCount := manager.nodeCount + 1 }

end TaskManager

/-! What becomes of a node in a turn depends on this node alone. -/

namespace TaskNode

def visit (node : TaskNode) (visit : Visit) : Option TaskNode :=
  if node.expired visit.expired then none else some (node.tick visit.tick visit.nextTick).1

def works (node : TaskNode) (visit : Visit) : Bool :=
  !node.expired visit.expired && (node.tick visit.tick visit.nextTick).2

end TaskNode

namespace Task

def survivor (clock : NodePtr → Visit) (entry : NodePtr × TaskNode) :
    Option (NodePtr × TaskNode) :=
  (entry.2.visit (clock entry.1)).map fun taskNode => (entry.1, taskNode)

def worker (clock : NodePtr → Visit) (entry : NodePtr × TaskNode) : Option NodePtr :=
  if entry.2.works (clock entry.1) then some entry.1 else none

theorem visitNodes_deleted {clock : NodePtr → Visit} {taskList_ : List (NodePtr × TaskNode)}
    {address : NodePtr} (dead : address ∈ (visitNodes clock taskList_).2.1) :
    address ∈ taskList_.map Prod.fst := by
  induction taskList_ with
  | nil => simp [visitNodes] at dead
  | cons entry rest ih =>
      obtain ⟨first, taskNode⟩ := entry
      simp only [visitNodes] at dead
      rw [List.map_cons, List.mem_cons]
      split at dead
      · rcases List.mem_cons.mp dead with same | later
        · exact Or.inl same
        · exact Or.inr (ih later)
      · exact Or.inr (ih dead)

theorem processNodes_eq (clock : NodePtr → Visit) {taskList_ : List (NodePtr × TaskNode)}
    (distinct : (taskList_.map Prod.fst).Nodup) :
    processNodes clock taskList_ =
      (taskList_.filterMap (survivor clock), taskList_.filterMap (worker clock)) := by
  induction taskList_ with
  | nil => rfl
  | cons entry rest ih =>
      obtain ⟨address, taskNode⟩ := entry
      rw [List.map_cons, List.nodup_cons] at distinct
      have others := ih distinct.2
      simp only [processNodes, foldl_removeNode, Prod.mk.injEq] at others
      have kept : address ∉ (visitNodes clock rest).2.1 :=
        fun dead => distinct.1 (visitNodes_deleted dead)
      have elsewhere : ∀ entry ∈ (visitNodes clock rest).1, entry.1 ≠ address := by
        rintro entry member rfl
        apply distinct.1
        rw [← visitNodes_addresses clock rest]
        exact List.mem_map.mpr ⟨entry, member, rfl⟩
      simp only [processNodes, foldl_removeNode, visitNodes]
      by_cases expired : taskNode.expired (clock address).expired = true
      · have same : (visitNodes clock rest).1.filter
              (fun entry => decide (entry.1 ∉ address :: (visitNodes clock rest).2.1)) =
            (visitNodes clock rest).1.filter
              fun entry => decide (entry.1 ∉ (visitNodes clock rest).2.1) := by
          apply List.filter_congr
          intro entry member
          simp [elsewhere entry member]
        simp only [expired, if_true, List.filter_cons, List.mem_cons_self, not_true_eq_false,
          decide_false, Bool.false_eq_true, if_false, same, others.1, others.2]
        simp [survivor, worker, TaskNode.visit, TaskNode.works, expired]
      · simp only [expired, Bool.false_eq_true, if_false]
        rw [List.filter_cons_of_pos (by simpa using kept), others.1, others.2]
        cases worked : (taskNode.tick (clock address).tick (clock address).nextTick).2 <;>
          simp [survivor, worker, TaskNode.visit, TaskNode.works, expired, worked]

variable {task : Task} {address : NodePtr} {taskNode : TaskNode}

theorem node_iff : task.node address = some taskNode ↔ (address, taskNode) ∈ task.taskList_ := by
  rw [node, Option.map_eq_some_iff]
  constructor
  · rintro ⟨⟨other, found⟩, first, rfl⟩
    obtain rfl : other = address := by simpa using List.find?_some first
    exact List.mem_of_find?_eq_some first
  · intro member
    cases found : task.taskList_.find? fun entry => entry.1 = address with
    | none => exact absurd (List.find?_eq_none.mp found _ member) (by simp)
    | some other =>
        have same : other.1 = address := by simpa using List.find?_some found
        refine ⟨other, rfl, ?_⟩
        have equal := List.inj_on_of_nodup_map task.distinct (List.mem_of_find?_eq_some found)
          member same
        rw [equal]

@[simp] theorem process_node (clock : NodePtr → Visit) :
    (task.process clock).1.node address =
      (task.node address).bind fun taskNode => taskNode.visit (clock address) := by
  apply Option.ext
  intro after
  rw [node_iff, Option.bind_eq_some_iff]
  simp only [process, processNodes_eq clock task.distinct, List.mem_filterMap, survivor,
    Option.map_eq_some_iff, Prod.mk.injEq, node_iff]
  constructor
  · rintro ⟨⟨other, taskNode⟩, member, _, visited, rfl, rfl⟩
    exact ⟨taskNode, member, visited⟩
  · rintro ⟨taskNode, member, visited⟩
    exact ⟨(address, taskNode), member, after, visited, rfl, rfl⟩

theorem process_worked (clock : NodePtr → Visit) : address ∈ (task.process clock).2 ↔
    ∃ taskNode, task.node address = some taskNode ∧ taskNode.works (clock address) = true := by
  simp only [process, processNodes_eq clock task.distinct, List.mem_filterMap, worker,
    Option.ite_none_right_eq_some, Option.some.injEq, node_iff]
  constructor
  · rintro ⟨⟨other, taskNode⟩, member, works, rfl⟩
    exact ⟨taskNode, member, works⟩
  · rintro ⟨taskNode, member, works⟩
    exact ⟨(address, taskNode), member, works, rfl⟩

@[simp] theorem process_heap (clock : NodePtr → Visit) : (task.process clock).1.heap = task.heap :=
  rfl

@[simp] theorem add_heap (taskNode : TaskNode) : (task.add taskNode).heap = task.heap + 1 := rfl

@[simp] theorem add_node_new (taskNode : TaskNode) :
    (task.add taskNode).node task.heap = some taskNode := by
  rw [node_iff]
  exact List.mem_append_right _ List.mem_cons_self

theorem add_node (taskNode : TaskNode) (earlier : address < task.heap) :
    (task.add taskNode).node address = task.node address := by
  apply Option.ext
  intro found
  rw [node_iff, node_iff]
  simp only [add, List.mem_append, List.mem_singleton, Prod.mk.injEq]
  constructor
  · rintro (there | ⟨same, -⟩)
    · exact there
    · exact absurd same (Nat.ne_of_lt earlier)
  · exact Or.inl

end Task

end TaskProcess

end GraduationServer
