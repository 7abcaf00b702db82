import GraduationServer.TinyXmlNodes

/-!
The nodes of a document are a forest in all states: each operation on the linked
objects does to the trees what it is for, uses no node that is gone, and deletes
exactly the nodes below the ones it is to delete.
-/

namespace GraduationServer

namespace TinyXml

namespace Nodes

open LinkedRing

/-! Forests. -/

namespace Forest

structure WellFormed (forest : Forest) : Prop where
  null : forest.content 0 = none
  positive : 0 < forest.created
  fresh : ∀ node, forest.created ≤ node → forest.content node = none
  owned : ∀ node child, child ∈ forest.children node →
    forest.content node ≠ none ∧ forest.content child ≠ none
  parents : ∀ node child, child ∈ forest.children node → forest.parent child = node
  grounded : WellFounded fun child node => child ∈ forest.children node

variable {forest : Forest} {node child other : NodePtr}

theorem WellFormed.once (wellFormed : forest.WellFormed) {node other child : NodePtr}
    (own : child ∈ forest.children node) (another : child ∈ forest.children other) :
    node = other :=
  (wellFormed.parents node child own).symm.trans (wellFormed.parents other child another)

theorem below_self (forest : Forest) (node : NodePtr) : forest.Below node node :=
  Relation.ReflTransGen.refl

theorem below_child (member : child ∈ forest.children node) (below : forest.Below child other) :
    forest.Below node other :=
  Relation.ReflTransGen.head member below

theorem below_cases : forest.Below node other ↔
    other = node ∨ ∃ child ∈ forest.children node, forest.Below child other := by
  rw [Below, Relation.ReflTransGen.cases_head_iff, eq_comm]

theorem below_childless (childless : forest.children node = []) :
    forest.Below node other ↔ other = node := by
  rw [below_cases, childless]
  simp

theorem WellFormed.no_cycle (wellFormed : forest.WellFormed)
    (member : child ∈ forest.children node) : ¬ forest.Below child node := by
  intro below
  have back : Relation.ReflTransGen (fun child node => child ∈ forest.children node) node child :=
    Relation.reflTransGen_swap.mp below
  have cycle := Relation.TransGen.tail' back member
  exact wellFormed.grounded.transGen.irrefl.irrefl node cycle

theorem WellFormed.apart (wellFormed : forest.WellFormed) {first second : NodePtr}
    (firstChild : first ∈ forest.children node) (secondChild : second ∈ forest.children node)
    (inFirst : forest.Below first other) (inSecond : forest.Below second other) :
    first = second := by
  have sole : Relator.RightUnique fun child node => child ∈ forest.children node :=
    fun _ _ _ own another => wellFormed.once own another
  have up := Relation.ReflTransGen.total_of_right_unique sole
    (Relation.reflTransGen_swap.mp inFirst) (Relation.reflTransGen_swap.mp inSecond)
  -- one of them would be below the other, and so below a child of its own parent
  have below {one another : NodePtr} (oneChild : one ∈ forest.children node)
      (anotherChild : another ∈ forest.children node)
      (path : Relation.ReflTransGen (fun child node => child ∈ forest.children node) one
        another) : one = another := by
    rcases path.cases_head with same | ⟨parent, own, rest⟩
    · exact same
    · obtain rfl := wellFormed.once own oneChild
      exact absurd (Relation.reflTransGen_swap.mp rest) (wellFormed.no_cycle anotherChild)
  rcases up with path | path
  · exact below firstChild secondChild path
  · exact (below secondChild firstChild path).symm

theorem WellFormed.live (wellFormed : forest.WellFormed) (lives : forest.content node ≠ none)
    (below : forest.Below node other) : forest.content other ≠ none := by
  cases below with
  | refl => exact lives
  | tail _ member => exact (wellFormed.owned _ _ member).2

theorem below_setChildren {children : List NodePtr} (apart : ¬ forest.Below node other) :
    ∀ {inside : NodePtr},
      (forest.setChildren other children).Below node inside ↔ forest.Below node inside := by
  have kept (place : NodePtr) (below : forest.Below node place) :
      (forest.setChildren other children).children place = forest.children place := by
    apply Function.update_of_ne
    rintro rfl
    exact apart below
  intro inside
  constructor
  · intro below
    induction below with
    | refl => exact below_self forest node
    | tail _ member ih =>
        rw [kept _ ih] at member
        exact Relation.ReflTransGen.tail ih member
  · intro below
    induction below with
    | refl => exact Relation.ReflTransGen.refl
    | tail before member ih =>
        apply Relation.ReflTransGen.tail ih
        rwa [kept _ before]

end Forest

/-! The links of the children. -/

def NodeHeap.ring (heap : NodeHeap) (this : NodePtr) : Links NodePtr :=
  { next := fun node => if node = 0 then heap.firstChild this else heap.next node
    prev := fun node => if node = 0 then heap.lastChild this else heap.prev node }

def Threaded (heap : NodeHeap) (forest : Forest) : Prop :=
  ∀ node, forest.content node ≠ none → Ring (heap.ring node) 0 (forest.children node)

/-- The objects are the nodes of the forest. -/
structure Represents (heap : NodeHeap) (forest : Forest) : Prop where
  content : heap.content = forest.content
  created : heap.created = forest.created
  parent : heap.parent = forest.parent
  threaded : Threaded heap forest

section

variable {heap : NodeHeap} {forest : Forest} {node child : NodePtr}

theorem Threaded.firstChild (threaded : Threaded heap forest)
    (lives : forest.content node ≠ none) :
    heap.firstChild node = (forest.children node).head?.getD 0 := by
  simpa [NodeHeap.ring] using (threaded node lives).next_edge

theorem Threaded.lastChild (threaded : Threaded heap forest)
    (lives : forest.content node ≠ none) :
    heap.lastChild node = (forest.children node).getLast?.getD 0 := by
  simpa [NodeHeap.ring] using (threaded node lives).prev_edge

theorem Threaded.not_null (threaded : Threaded heap forest)
    (lives : forest.content node ≠ none) (member : child ∈ forest.children node) : child ≠ 0 := by
  rintro rfl
  exact (List.nodup_cons.mp (threaded node lives).distinct).1 member

theorem Threaded.next (threaded : Threaded heap forest) (lives : forest.content node ≠ none)
    {before after : List NodePtr} (children : forest.children node = before ++ child :: after) :
    heap.next child = after.head?.getD 0 := by
  have notNull : child ≠ 0 := threaded.not_null lives (by simp [children])
  have ring := threaded node lives
  rw [children] at ring
  simpa [NodeHeap.ring, notNull] using ring.next_item

theorem Threaded.prev (threaded : Threaded heap forest) (lives : forest.content node ≠ none)
    {before after : List NodePtr} (children : forest.children node = before ++ child :: after) :
    heap.prev child = before.getLast?.getD 0 := by
  have notNull : child ≠ 0 := threaded.not_null lives (by simp [children])
  have ring := threaded node lives
  rw [children] at ring
  simpa [NodeHeap.ring, notNull] using ring.prev_item

theorem deref_ok {content : Content} (lives : heap.content node = some content) :
    heap.deref node = .ok content := by
  rw [NodeHeap.deref, lives]

theorem deref_live (lives : heap.content node ≠ none) :
    ∃ content, heap.content node = some content ∧ heap.deref node = .ok content := by
  obtain ⟨content, found⟩ := Option.ne_none_iff_exists'.mp lives
  exact ⟨content, found, deref_ok found⟩

end

/-! Deletion. -/

open Classical in
noncomputable def NodeHeap.without (heap : NodeHeap) (gone : NodePtr → Prop) : NodeHeap :=
  { heap with content := fun node => if gone node then none else heap.content node }

section

variable {heap : NodeHeap} {forest : Forest} {node : NodePtr} {gone others : NodePtr → Prop}

theorem without_stays (here : ¬ gone node) :
    (heap.without gone).content node = heap.content node := if_neg here

theorem without_without (heap : NodeHeap) (gone others : NodePtr → Prop) :
    (heap.without gone).without others = heap.without fun node => gone node ∨ others node := by
  simp only [NodeHeap.without, NodeHeap.mk.injEq, and_self, and_true]
  funext node
  by_cases first : gone node <;> by_cases second : others node <;> simp [first, second]

theorem without_congr (same : ∀ node, gone node ↔ others node) :
    heap.without gone = heap.without others := by
  rw [show gone = others from funext fun node => propext (same node)]

theorem without_nothing (nothing : ∀ node, ¬ gone node) : heap.without gone = heap := by
  simp only [NodeHeap.without, nothing, if_false]

/-- With enough fuel, `operation` leaves the heap without the objects that are gone,
wherever the children are threaded and these objects live. -/
def Deletes (forest : Forest) (operation : Nat → NodeHeap → Exec NodeHeap)
    (gone : NodePtr → Prop) : Prop :=
  ∃ enough, ∀ fuel, enough ≤ fuel → ∀ heap, Threaded heap forest →
    (∀ node, gone node → heap.content node ≠ none) →
      operation fuel heap = .ok (heap.without gone)

theorem deleteFrom_deletes (wellFormed : forest.WellFormed) (lives : forest.content node ≠ none)
    (each : ∀ child ∈ forest.children node,
      Deletes forest (fun fuel heap => heap.delete fuel child) (forest.Below child))
    {before rest : List NodePtr} (children : forest.children node = before ++ rest) :
    Deletes forest (fun fuel heap => heap.deleteFrom fuel (rest.head?.getD 0))
      (fun inside => ∃ child ∈ rest, forest.Below child inside) := by
  induction rest generalizing before with
  | nil =>
      refine ⟨1, ?_⟩
      intro fuel enough heap threaded all
      obtain ⟨fuel, rfl⟩ := Nat.exists_eq_succ_of_ne_zero (by omega : fuel ≠ 0)
      rw [without_nothing (by simp)]
      rfl
  | cons child rest ih =>
      have member : child ∈ forest.children node := by simp [children]
      obtain ⟨first, deletes⟩ := each child member
      obtain ⟨second, continues⟩ := ih (by rw [children, List.append_cons])
      refine ⟨max first second + 1, ?_⟩
      intro fuel enough heap threaded all
      obtain ⟨fuel, rfl⟩ := Nat.exists_eq_succ_of_ne_zero (by omega : fuel ≠ 0)
      have notNull := threaded.not_null lives member
      obtain ⟨content, -, used⟩ :=
        deref_live (all child ⟨child, by simp, forest.below_self child⟩)
      have here := deletes fuel (by omega) heap threaded fun inside below =>
        all inside ⟨child, by simp, below⟩
      -- the siblings behind it still live, for their trees are others
      have later := continues fuel (by omega) (heap.without (forest.Below child)) threaded (by
        rintro inside ⟨sibling, listed, below⟩
        rw [without_stays]
        · exact all inside ⟨sibling, by simp [listed], below⟩
        · intro shared
          have same := wellFormed.apart member (by simp [children, listed]) shared below
          have distinct := (threaded node lives).distinct
          rw [children, same] at distinct
          grind)
      dsimp only at here later ⊢
      rw [List.head?_cons, Option.getD_some, NodeHeap.deleteFrom, if_neg notNull, used]
      simp only [bind, Except.bind, threaded.next lives children, here, later]
      rw [without_without]
      exact congrArg Except.ok (without_congr (by simp))

theorem delete_deletes (wellFormed : forest.WellFormed) (lives : forest.content node ≠ none) :
    Deletes forest (fun fuel heap => heap.delete fuel node) (forest.Below node) := by
  induction node using wellFormed.grounded.induction with
  | _ node ih =>
      have each : ∀ child ∈ forest.children node,
          Deletes forest (fun fuel heap => heap.delete fuel child) (forest.Below child) :=
        fun child member => ih child member (wellFormed.owned node child member).2
      obtain ⟨first, deletes⟩ := deleteFrom_deletes wellFormed lives each (List.nil_append _).symm
      refine ⟨first + 1, ?_⟩
      intro fuel enough heap threaded all
      obtain ⟨fuel, rfl⟩ := Nat.exists_eq_succ_of_ne_zero (by omega : fuel ≠ 0)
      obtain ⟨content, -, used⟩ := deref_live (all node (forest.below_self node))
      have inside := deletes fuel (by omega) heap threaded (by
        rintro inside ⟨child, member, below⟩
        exact all inside (Forest.below_child member below))
      dsimp only at inside ⊢
      rw [NodeHeap.delete, used]
      simp only [bind, Except.bind, threaded.firstChild lives, inside]
      refine congrArg Except.ok ?_
      simp only [NodeHeap.without, NodeHeap.mk.injEq, and_self, and_true]
      funext other
      by_cases here : other = node
      · subst here
        rw [Function.update_self, if_pos (forest.below_self other)]
      · rw [Function.update_of_ne here]
        by_cases below : ∃ child ∈ forest.children node, forest.Below child other
        · rw [if_pos below, if_pos (Forest.below_cases.mpr (Or.inr below))]
        · rw [if_neg below, if_neg fun all => below ((Forest.below_cases.mp all).resolve_left here)]

end

namespace Forest

variable {forest : Forest} {node child other : NodePtr} {roots : List NodePtr}

theorem stays_child (wellFormed : forest.WellFormed)
    (areRoots : ∀ root ∈ roots, forest.Root root)
    (stays : ¬ ∃ root ∈ roots, forest.Below root node) (member : child ∈ forest.children node) :
    ¬ ∃ root ∈ roots, forest.Below root child := by
  rintro ⟨root, listed, below⟩
  cases below with
  | refl => exact areRoots _ listed node member
  | tail before own =>
      obtain rfl := wellFormed.once own member
      exact stays ⟨root, listed, before⟩

theorem prune_child (member : child ∈ (forest.prune roots).children node) :
    child ∈ forest.children node ∧ ¬ ∃ root ∈ roots, forest.Below root node := by
  simp only [prune] at member
  split_ifs at member with gone
  · cases member
  · exact ⟨member, gone⟩

theorem prune_wellFormed (wellFormed : forest.WellFormed)
    (areRoots : ∀ root ∈ roots, forest.Root root) : (forest.prune roots).WellFormed := by
  constructor
  · simp [prune, wellFormed.null]
  · exact wellFormed.positive
  · intro node later
    simp [prune, wellFormed.fresh node later]
  · intro node child member
    obtain ⟨own, stays⟩ := prune_child member
    obtain ⟨parentLives, lives⟩ := wellFormed.owned node child own
    simp only [prune]
    rw [if_neg stays, if_neg (stays_child wellFormed areRoots stays own)]
    exact ⟨parentLives, lives⟩
  · intro node child own
    exact wellFormed.parents node child (prune_child own).1
  · exact Subrelation.wf (fun own => (prune_child own).1) wellFormed.grounded

end Forest

section

variable {heap : NodeHeap} {forest : Forest} {node child : NodePtr}

theorem prune_represents (represents : Represents heap forest) (roots : List NodePtr) :
    Represents (heap.without fun node => ∃ root ∈ roots, forest.Below root node)
      (forest.prune roots) := by
  constructor
  · funext node
    simp only [NodeHeap.without, Forest.prune, represents.content]
    split_ifs <;> rfl
  · exact represents.created
  · exact represents.parent
  · intro node lives
    have stays : ¬ ∃ root ∈ roots, forest.Below root node := by
      intro gone
      exact lives (if_pos gone)
    have lived : forest.content node ≠ none := by
      intro dead
      exact lives ((if_neg stays).trans dead)
    have kept : (forest.prune roots).children node = forest.children node := if_neg stays
    rw [kept]
    exact represents.threaded node lived

/-- With enough fuel, the operation ends in objects that are the nodes of the forest. -/
def EndsIn (operation : Nat → Exec NodeHeap) (forest : Forest) : Prop :=
  ∃ enough after, (∀ fuel, enough ≤ fuel → operation fuel = .ok after) ∧
    Represents after forest

theorem delete_represents (wellFormed : forest.WellFormed)
    (represents : Represents heap forest) (lives : forest.content node ≠ none) :
    EndsIn (fun fuel => heap.delete fuel node) (forest.prune [node]) := by
  obtain ⟨enough, deletes⟩ := delete_deletes wellFormed lives
  refine ⟨enough, _, ?_, prune_represents represents [node]⟩
  intro fuel more
  rw [without_congr (by simp : ∀ inside, (∃ root ∈ [node], forest.Below root inside) ↔
    forest.Below node inside)]
  apply deletes fuel more heap represents.threaded
  intro inside below
  rw [represents.content]
  exact wellFormed.live lives below

theorem ring_frame {after : NodeHeap} {items : List NodePtr}
    (ring : Ring (heap.ring node) 0 items)
    (firstChild : after.firstChild node = heap.firstChild node)
    (lastChild : after.lastChild node = heap.lastChild node)
    (next : ∀ item ∈ items, after.next item = heap.next item)
    (prev : ∀ item ∈ items, after.prev item = heap.prev item) :
    Ring (after.ring node) 0 items := by
  apply ring.frame
  · intro item member
    rcases List.mem_cons.mp member with rfl | member
    · simp [NodeHeap.ring, firstChild]
    · simp [NodeHeap.ring, firstChild, next item member]
  · intro item member
    rcases List.mem_cons.mp member with rfl | member
    · simp [NodeHeap.ring, lastChild]
    · simp [NodeHeap.ring, lastChild, prev item member]

theorem dead_childless (wellFormed : forest.WellFormed) (dead : forest.content node = none) :
    forest.children node = [] := by
  rw [List.eq_nil_iff_forall_not_mem]
  intro child member
  exact (wellFormed.owned node child member).1 dead

theorem new_wellFormed (wellFormed : forest.WellFormed) (content : Content)
    (parent : NodePtr) : (forest.step (.new content parent)).WellFormed := by
  have fresh := wellFormed.fresh forest.created (Nat.le_refl _)
  have kept (node : NodePtr) (lives : forest.content node ≠ none) :
      (forest.step (.new content parent)).content node ≠ none := by
    simp only [Forest.step]
    by_cases same : node = forest.created
    · simp [same]
    · rwa [Function.update_of_ne same]
  constructor
  · simp only [Forest.step]
    rw [Function.update_of_ne (Nat.ne_of_lt wellFormed.positive)]
    exact wellFormed.null
  · exact Nat.succ_pos _
  · intro node later
    have behind : forest.created + 1 ≤ node := later
    simp only [Forest.step]
    rw [Function.update_of_ne (Nat.ne_of_gt behind)]
    exact wellFormed.fresh node (Nat.le_of_lt behind)
  · intro node child member
    obtain ⟨parentLives, lives⟩ := wellFormed.owned node child member
    exact ⟨kept node parentLives, kept child lives⟩
  · intro node child member
    have different : child ≠ forest.created := by
      rintro rfl
      exact (wellFormed.owned node _ member).2 fresh
    simp only [Forest.step]
    rw [Function.update_of_ne different]
    exact wellFormed.parents node child member
  · exact wellFormed.grounded

theorem new_represents (wellFormed : forest.WellFormed) (represents : Represents heap forest)
    (content : Content) (parent : NodePtr) :
    Represents (heap.new content parent) (forest.step (.new content parent)) := by
  have fresh := wellFormed.fresh forest.created (Nat.le_refl _)
  have other (node child : NodePtr) (member : child ∈ forest.children node) :
      child ≠ heap.created := by
    rintro rfl
    rw [represents.created] at member
    exact (wellFormed.owned node _ member).2 fresh
  constructor
  · simp only [NodeHeap.new, Forest.step, represents.content, represents.created]
  · simp only [NodeHeap.new, Forest.step, represents.created]
  · simp only [NodeHeap.new, Forest.step, represents.created, represents.parent]
  · intro node lives
    by_cases same : node = heap.created
    · have childless : forest.children node = [] := by
        rw [same, represents.created]
        exact dead_childless wellFormed fresh
      show Ring _ 0 (forest.children node)
      rw [childless, ring_nil, same]
      simp [NodeHeap.ring, NodeHeap.new]
    · have lived : forest.content node ≠ none := by
        simp only [Forest.step, ← represents.created] at lives
        rwa [Function.update_of_ne same] at lives
      apply ring_frame (represents.threaded node lived)
      · exact Function.update_of_ne same _ _
      · exact Function.update_of_ne same _ _
      · exact fun child member => Function.update_of_ne (other node child member) _ _
      · exact fun child member => Function.update_of_ne (other node child member) _ _

end

end Nodes

end TinyXml

end GraduationServer
