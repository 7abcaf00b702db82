import GraduationServer.TinyXmlForest
import Mathlib.Data.List.Perm.Subperm

/-!
The operations on the children of a node, over whole runs: linking at the end,
removing, clearing and deleting do to the linked objects what they do to the
forest, and a loop over the children in either direction comes by all of them.
-/

namespace GraduationServer

namespace TinyXml

namespace Nodes

open LinkedRing

/-! The links of a node's children are changed one at a time. -/

namespace NodeHeap

def linkNext (heap : NodeHeap) (this node following : NodePtr) : NodeHeap :=
  if node = 0 then { heap with firstChild := Function.update heap.firstChild this following }
  else { heap with next := Function.update heap.next node following }

def linkPrev (heap : NodeHeap) (this node before : NodePtr) : NodeHeap :=
  if node = 0 then { heap with lastChild := Function.update heap.lastChild this before }
  else { heap with prev := Function.update heap.prev node before }

variable (heap : NodeHeap) (this node target : NodePtr)

@[simp] theorem linkNext_content : (heap.linkNext this node target).content = heap.content := by
  unfold linkNext
  split_ifs <;> rfl

@[simp] theorem linkPrev_content : (heap.linkPrev this node target).content = heap.content := by
  unfold linkPrev
  split_ifs <;> rfl

@[simp] theorem linkNext_created : (heap.linkNext this node target).created = heap.created := by
  unfold linkNext
  split_ifs <;> rfl

@[simp] theorem linkPrev_created : (heap.linkPrev this node target).created = heap.created := by
  unfold linkPrev
  split_ifs <;> rfl

@[simp] theorem linkNext_parent : (heap.linkNext this node target).parent = heap.parent := by
  unfold linkNext
  split_ifs <;> rfl

@[simp] theorem linkPrev_parent : (heap.linkPrev this node target).parent = heap.parent := by
  unfold linkPrev
  split_ifs <;> rfl

theorem linkNext_ring : (heap.linkNext this node target).ring this =
    { next := Function.update (heap.ring this).next node target
      prev := (heap.ring this).prev } := by
  unfold linkNext ring
  split_ifs with null
  · subst null
    congr 1
    funext item
    by_cases same : item = 0 <;> simp [same]
  · congr 1
    funext item
    by_cases same : item = node
    · subst same
      simp [null]
    · simp [same]

theorem linkPrev_ring : (heap.linkPrev this node target).ring this =
    { next := (heap.ring this).next
      prev := Function.update (heap.ring this).prev node target } := by
  unfold linkPrev ring
  split_ifs with null
  · subst null
    congr 1
    funext item
    by_cases same : item = 0 <;> simp [same]
  · congr 1
    funext item
    by_cases same : item = node
    · subst same
      simp [null]
    · simp [same]

variable {heap this node target} {other : NodePtr} {items : List NodePtr}

theorem linkNext_frame (ring : Ring (heap.ring other) 0 items) (different : other ≠ this)
    (elsewhere : node ∉ items) : Ring ((heap.linkNext this node target).ring other) 0 items := by
  have apart (item : NodePtr) (member : item ∈ items) : item ≠ node :=
    fun same => elsewhere (same ▸ member)
  unfold linkNext
  split_ifs
  · exact ring_frame ring (Function.update_of_ne different _ _) rfl (fun _ _ => rfl) fun _ _ => rfl
  · exact ring_frame ring rfl rfl (fun item member => Function.update_of_ne (apart item member) _ _)
      fun _ _ => rfl

theorem linkPrev_frame (ring : Ring (heap.ring other) 0 items) (different : other ≠ this)
    (elsewhere : node ∉ items) : Ring ((heap.linkPrev this node target).ring other) 0 items := by
  have apart (item : NodePtr) (member : item ∈ items) : item ≠ node :=
    fun same => elsewhere (same ▸ member)
  unfold linkPrev
  split_ifs
  · exact ring_frame ring rfl (Function.update_of_ne different _ _) (fun _ _ => rfl) fun _ _ => rfl
  · exact ring_frame ring rfl rfl (fun _ _ => rfl)
      fun item member => Function.update_of_ne (apart item member) _ _

theorem setNext_ok (thisLives : heap.content this ≠ none)
    (lives : node = 0 ∨ heap.content node ≠ none) :
    heap.setNext this node target = .ok (heap.linkNext this node target) := by
  unfold setNext linkNext
  split_ifs with null
  · obtain ⟨content, -, used⟩ := deref_live thisLives
    rw [used]
    rfl
  · obtain ⟨content, -, used⟩ := deref_live (lives.resolve_left null)
    rw [used]
    rfl

theorem setPrev_ok (thisLives : heap.content this ≠ none)
    (lives : node = 0 ∨ heap.content node ≠ none) :
    heap.setPrev this node target = .ok (heap.linkPrev this node target) := by
  unfold setPrev linkPrev
  split_ifs with null
  · obtain ⟨content, -, used⟩ := deref_live thisLives
    rw [used]
    rfl
  · obtain ⟨content, -, used⟩ := deref_live (lives.resolve_left null)
    rw [used]
    rfl

end NodeHeap

/-! The children of one node are replaced. -/

namespace Forest

variable {forest : Forest} {this : NodePtr} {children : List NodePtr}

theorem setChildren_grounded (grounded : WellFounded fun child node => child ∈ forest.children node)
    (above : ∀ child ∈ children, ¬ forest.Below child this) :
    WellFounded fun child node => child ∈ (forest.setChildren this children).children node := by
  have kept {node : NodePtr} (different : node ≠ this) :
      (forest.setChildren this children).children node = forest.children node :=
    Function.update_of_ne different _ _
  -- the trees without this node are as before
  have elsewhere (node : NodePtr) (apart : ¬ forest.Below node this) :
      Acc (fun child node => child ∈ (forest.setChildren this children).children node) node := by
    induction node using grounded.induction with
    | _ node ih =>
        constructor
        intro child member
        have different : node ≠ this := by
          rintro rfl
          exact apart (forest.below_self node)
        rw [kept different] at member
        exact ih child member fun below => apart (below_child member below)
  have here : Acc (fun child node => child ∈ (forest.setChildren this children).children node)
      this := by
    constructor
    intro child member
    have listed : child ∈ children := by simpa [setChildren] using member
    exact elsewhere child (above child listed)
  constructor
  intro node
  induction node using grounded.induction with
  | _ node ih =>
      by_cases same : node = this
      · exact same ▸ here
      · constructor
        intro child member
        rw [kept same] at member
        exact ih child member

theorem setChildren_wellFormed (wellFormed : forest.WellFormed)
    (thisLives : forest.content this ≠ none)
    (lives : ∀ child ∈ children, forest.content child ≠ none)
    (parents : ∀ child ∈ children, forest.parent child = this)
    (above : ∀ child ∈ children, ¬ forest.Below child this) :
    (forest.setChildren this children).WellFormed := by
  have cases {node child : NodePtr}
      (member : child ∈ (forest.setChildren this children).children node) :
      node = this ∧ child ∈ children ∨ node ≠ this ∧ child ∈ forest.children node := by
    by_cases same : node = this
    · left
      exact ⟨same, by simpa [setChildren, same] using member⟩
    · right
      exact ⟨same, by simpa [setChildren, same] using member⟩
  constructor
  · exact wellFormed.null
  · exact wellFormed.positive
  · exact wellFormed.fresh
  · intro node child member
    rcases cases member with ⟨rfl, listed⟩ | ⟨-, own⟩
    · exact ⟨thisLives, lives child listed⟩
    · exact wellFormed.owned node child own
  · intro node child member
    rcases cases member with ⟨rfl, listed⟩ | ⟨-, own⟩
    · exact parents child listed
    · exact wellFormed.parents node child own
  · exact setChildren_grounded wellFormed.grounded above

theorem fewer_wellFormed (wellFormed : forest.WellFormed) (thisLives : forest.content this ≠ none)
    (fewer : ∀ child ∈ children, child ∈ forest.children this) :
    (forest.setChildren this children).WellFormed := by
  apply setChildren_wellFormed wellFormed thisLives
  · exact fun child listed => (wellFormed.owned this child (fewer child listed)).2
  · exact fun child listed => wellFormed.parents this child (fewer child listed)
  · exact fun child listed => wellFormed.no_cycle (fewer child listed)

theorem fewer_root {node : NodePtr} (wellFormed : forest.WellFormed)
    (member : node ∈ forest.children this) (taken : node ∉ children) :
    (forest.setChildren this children).Root node := by
  intro parent own
  by_cases same : parent = this
  · subst same
    simp only [setChildren, Function.update_self] at own
    exact taken own
  · simp only [setChildren, Function.update_of_ne same] at own
    exact same (wellFormed.once own member)

theorem adopt_wellFormed {node : NodePtr} (wellFormed : forest.WellFormed)
    (root : forest.Root node) : (forest.adopt this node).WellFormed := by
  constructor
  · exact wellFormed.null
  · exact wellFormed.positive
  · exact wellFormed.fresh
  · exact wellFormed.owned
  · intro parent child member
    have different : child ≠ node := by
      rintro rfl
      exact root parent member
    exact (Function.update_of_ne different _ _).trans (wellFormed.parents parent child member)
  · exact wellFormed.grounded

theorem link_wellFormed {node : NodePtr} (wellFormed : forest.WellFormed)
    (thisLives : forest.content this ≠ none) (lives : forest.content node ≠ none)
    (root : forest.Root node) (apart : ¬ forest.Below node this) :
    ((forest.adopt this node).setChildren this (forest.children this ++ [node])).WellFormed := by
  have adopted : (forest.adopt this node).WellFormed := adopt_wellFormed wellFormed root
  apply setChildren_wellFormed adopted thisLives
  · intro child member
    rcases List.mem_append.mp member with own | new
    · exact (wellFormed.owned this child own).2
    · rwa [List.mem_singleton.mp new]
  · intro child member
    rcases List.mem_append.mp member with own | new
    · exact adopted.parents this child own
    · rw [List.mem_singleton.mp new]
      exact Function.update_self _ _ _
  · intro child member
    rcases List.mem_append.mp member with own | new
    · exact wellFormed.no_cycle own
    · rwa [List.mem_singleton.mp new]

end Forest

section

variable {heap after : NodeHeap} {forest : Forest} {this : NodePtr} {children : List NodePtr}

theorem setChildren_represents (represents : Represents heap forest)
    (content : after.content = heap.content) (created : after.created = heap.created)
    (parent : after.parent = heap.parent) (ring : Ring (after.ring this) 0 children)
    (others : ∀ node, node ≠ this → forest.content node ≠ none →
      Ring (after.ring node) 0 (forest.children node)) :
    Represents after (forest.setChildren this children) := by
  constructor
  · exact content.trans represents.content
  · exact created.trans represents.created
  · exact parent.trans represents.parent
  · intro node lives
    by_cases same : node = this
    · subst same
      simpa [Forest.setChildren] using ring
    · have kept : (forest.setChildren this children).children node = forest.children node :=
        Function.update_of_ne same _ _
      rw [kept]
      exact others node same lives

end

/-! The operations. -/

section

variable {heap : NodeHeap} {forest : Forest} {this node : NodePtr}

def NodeHeap.adopt (heap : NodeHeap) (this node : NodePtr) : NodeHeap :=
  { heap with parent := Function.update heap.parent node this }

def NodeHeap.linkEnd (heap : NodeHeap) (this node : NodePtr) : NodeHeap :=
  let last := heap.lastChild this
  ((((heap.adopt this node).linkPrev this node last).linkNext this node 0).linkNext this last
    node).linkPrev this 0 node

def Returns {Result : Type} (operation : Nat → Exec (NodeHeap × Result)) (forest : Forest)
    (result : Result) : Prop :=
  ∃ enough after, (∀ fuel, enough ≤ fuel → operation fuel = .ok (after, result)) ∧
    Represents after forest

theorem Returns.endsIn {Result : Type} {operation : Nat → Exec (NodeHeap × Result)}
    {result : Result} (returns : Returns operation forest result) :
    EndsIn (fun fuel => (operation fuel).map Prod.fst) forest := by
  obtain ⟨enough, after, ends, represents⟩ := returns
  refine ⟨enough, after, ?_, represents⟩
  intro fuel more
  dsimp only
  rw [ends fuel more]
  rfl

theorem LinkEndChild_ok {fuel : Nat} {content : Content} (thisLives : heap.content this ≠ none)
    (found : heap.content node = some content) (element : content.type ≠ .TINYXML_DOCUMENT)
    (notNull : node ≠ 0)
    (last : heap.lastChild this = 0 ∨ heap.content (heap.lastChild this) ≠ none) :
    heap.LinkEndChild fuel this node = .ok (heap.linkEnd this node, node) := by
  obtain ⟨_, -, used⟩ := deref_live thisLives
  have linked : heap.linkEnd this node =
      ((((heap.adopt this node).linkPrev this node (heap.lastChild this)).linkNext this node
        0).linkNext this (heap.lastChild this) node).linkPrev this 0 node := rfl
  have moved : ((heap.adopt this node).linkPrev this node (heap.lastChild this)).linkNext this
      node 0 =
      { heap with
        parent := Function.update heap.parent node this
        prev := Function.update heap.prev node (heap.lastChild this)
        next := Function.update heap.next node 0 } := by
    simp only [NodeHeap.linkNext, NodeHeap.linkPrev, NodeHeap.adopt, if_neg notNull]
  rw [linked, moved]
  rw [NodeHeap.LinkEndChild, deref_ok found]
  simp only [bind, Except.bind, used]
  rw [if_neg element, NodeHeap.setNext_ok]
  · simp only [pure, Except.pure, NodeHeap.linkPrev, if_true]
  · exact thisLives
  · exact last

theorem linkEnd_ring (notLast : heap.lastChild this ≠ node) :
    (heap.linkEnd this node).ring this =
      ((heap.ring this).join (heap.lastChild this) node).join node 0 := by
  simp only [NodeHeap.linkEnd, NodeHeap.linkPrev_ring, NodeHeap.linkNext_ring, Links.join]
  -- the source ends the list before it links the node to the last child
  rw [Function.update_comm notLast.symm]
  rfl

theorem linkEnd_represents (wellFormed : forest.WellFormed)
    (represents : Represents heap forest) (thisLives : forest.content this ≠ none)
    (lives : forest.content node ≠ none) (root : forest.Root node) :
    Represents (heap.linkEnd this node)
      ((forest.adopt this node).setChildren this (forest.children this ++ [node])) := by
  have notNull : node ≠ 0 := by
    rintro rfl
    exact lives wellFormed.null
  have last := represents.threaded.lastChild thisLives
  have notLast : heap.lastChild this ≠ node := by
    rw [last]
    rcases last_cases 0 (forest.children this) with none | member
    · rw [none]
      exact notNull.symm
    · exact fun same => root this (same ▸ member)
  have adopted : Represents (heap.adopt this node) (forest.adopt this node) := by
    refine ⟨represents.content, represents.created, ?_, represents.threaded⟩
    exact congrArg (fun parent => Function.update parent node this) represents.parent
  apply setChildren_represents adopted
  · simp [NodeHeap.linkEnd]
  · simp [NodeHeap.linkEnd]
  · simp [NodeHeap.linkEnd]
  · rw [linkEnd_ring notLast, last]
    have ring := represents.threaded this thisLives
    rw [← List.append_nil (forest.children this)] at ring
    have fresh : node ∉ 0 :: (forest.children this ++ []) := by
      simp only [List.append_nil, List.mem_cons, not_or]
      exact ⟨notNull, root this⟩
    exact ring.insert fresh
  · intro other different otherLives
    have ring := adopted.threaded other otherLives
    have notNullThere : 0 ∉ forest.children other := (List.nodup_cons.mp ring.distinct).1
    have notLastThere : heap.lastChild this ∉ forest.children other := by
      rw [last]
      rcases last_cases 0 (forest.children this) with none | member
      · rwa [none]
      · exact fun there => different (wellFormed.once there member)
    apply NodeHeap.linkPrev_frame _ different notNullThere
    apply NodeHeap.linkNext_frame _ different notLastThere
    apply NodeHeap.linkNext_frame _ different (root other)
    exact NodeHeap.linkPrev_frame ring different (root other)

theorem GetDocument_ends (wellFormed : forest.WellFormed) (represents : Represents heap forest)
    (climbs : forest.Climbs node) :
    ∃ enough document, ∀ fuel, enough ≤ fuel → heap.GetDocument fuel node = .ok document := by
  have notNull {node : NodePtr} {content : Content} (found : forest.content node = some content) :
      node ≠ 0 := by
    rintro rfl
    rw [wellFormed.null] at found
    cases found
  induction climbs with
  | null =>
      refine ⟨1, 0, ?_⟩
      intro fuel enough
      obtain ⟨fuel, rfl⟩ := Nat.exists_eq_succ_of_ne_zero (by omega : fuel ≠ 0)
      rfl
  | @document node content found kind =>
      refine ⟨1, node, ?_⟩
      intro fuel enough
      obtain ⟨fuel, rfl⟩ := Nat.exists_eq_succ_of_ne_zero (by omega : fuel ≠ 0)
      have here : heap.content node = some content := by rw [represents.content, found]
      rw [NodeHeap.GetDocument, if_neg (notNull found), deref_ok here, Exec.ok_bind, if_pos kind]
      rfl
  | @parent node content found kind above ih =>
      obtain ⟨enough, document, ends⟩ := ih
      refine ⟨enough + 1, document, ?_⟩
      intro fuel more
      obtain ⟨fuel, rfl⟩ := Nat.exists_eq_succ_of_ne_zero (by omega : fuel ≠ 0)
      have here : heap.content node = some content := by rw [represents.content, found]
      rw [NodeHeap.GetDocument, if_neg (notNull found), deref_ok here, Exec.ok_bind, if_neg kind,
        represents.parent]
      exact ends fuel (by omega)

theorem SetError_represents (represents : Represents heap forest) (document : NodePtr)
    (err : TiXmlError) : Represents (heap.SetError document err) forest :=
  ⟨represents.content, represents.created, represents.parent, represents.threaded⟩

theorem LinkEndChild_represents (wellFormed : forest.WellFormed)
    (represents : Represents heap forest)
    (allowed : forest.Allowed (.LinkEndChild this node)) :
    (forest.step (.LinkEndChild this node)).WellFormed ∧
      ∃ result, Returns (fun fuel => heap.LinkEndChild fuel this node)
        (forest.step (.LinkEndChild this node)) result := by
  obtain ⟨thisLives, lives, root, apart, climbs⟩ := allowed
  obtain ⟨content, found⟩ := Option.ne_none_iff_exists'.mp lives
  have here : heap.content node = some content := by rw [represents.content, found]
  by_cases kind : content.type = .TINYXML_DOCUMENT
  · have pruned : forest.step (.LinkEndChild this node) = forest.prune [node] :=
      if_pos ⟨content, found, kind⟩
    obtain ⟨enough, after, deleted, pruning⟩ :=
      delete_represents wellFormed represents lives
    have pruning_wellFormed := Forest.prune_wellFormed wellFormed
      (by simpa using root : ∀ root ∈ [node], forest.Root root)
    obtain ⟨more, document, climbed⟩ :=
      GetDocument_ends pruning_wellFormed pruning (climbs content found kind)
    rw [pruned]
    refine ⟨pruning_wellFormed, 0, max enough more,
      if document = 0 then after else after.SetError document .TIXML_ERROR_DOCUMENT_TOP_ONLY,
      ?_, ?_⟩
    · intro fuel large
      dsimp only at deleted ⊢
      rw [NodeHeap.LinkEndChild, deref_ok here, Exec.ok_bind, if_pos kind,
        deleted fuel (by omega), Exec.ok_bind, climbed fuel (by omega), Exec.ok_bind]
      split_ifs <;> rfl
    · split_ifs
      · exact pruning
      · exact SetError_represents pruning document _
  · have linked : forest.step (.LinkEndChild this node) =
        (forest.adopt this node).setChildren this (forest.children this ++ [node]) := by
      apply if_neg
      rintro ⟨other, found', document⟩
      rw [found, Option.some.injEq] at found'
      rw [found'] at kind
      exact kind document
    rw [linked]
    refine ⟨?_, node, 0, heap.linkEnd this node, ?_,
      linkEnd_represents wellFormed represents thisLives lives root⟩
    · exact Forest.link_wellFormed wellFormed thisLives lives root apart
    · intro fuel _
      apply LinkEndChild_ok _ here kind
      · rintro rfl
        exact lives wellFormed.null
      · rw [represents.threaded.lastChild thisLives, represents.content]
        exact (last_cases 0 _).imp_right fun member => (wellFormed.owned this _ member).2
      · rwa [represents.content]

def NodeHeap.unlink (heap : NodeHeap) (this removeThis : NodePtr) : NodeHeap :=
  (heap.linkPrev this (heap.next removeThis) (heap.prev removeThis)).linkNext this
    (heap.prev removeThis) (heap.next removeThis)

theorem unlink_represents (wellFormed : forest.WellFormed)
    (represents : Represents heap forest) {before after : List NodePtr}
    (children : forest.children this = before ++ node :: after) :
    Represents (heap.unlink this node) (forest.setChildren this (before ++ after)) := by
  have member : node ∈ forest.children this := by simp [children]
  have thisLives := (wellFormed.owned this node member).1
  have ring := represents.threaded this thisLives
  have notNull := represents.threaded.not_null thisLives member
  have next := represents.threaded.next thisLives children
  have prev := represents.threaded.prev thisLives children
  have inside (child : NodePtr) (listed : child ∈ before ++ after) :
      child ∈ forest.children this := by
    rw [children]
    grind
  apply setChildren_represents represents
  · simp [NodeHeap.unlink]
  · simp [NodeHeap.unlink]
  · simp [NodeHeap.unlink]
  · have joined : (heap.unlink this node).ring this =
        (heap.ring this).join ((heap.ring this).prev node) ((heap.ring this).next node) := by
      simp only [NodeHeap.unlink, NodeHeap.linkNext_ring, NodeHeap.linkPrev_ring, Links.join]
      simp only [NodeHeap.ring, if_neg notNull]
    rw [joined]
    rw [children] at ring
    exact ring.remove
  · intro other different otherLives
    have there := represents.threaded other otherLives
    have elsewhere {item : NodePtr} (own : item = 0 ∨ item ∈ forest.children this) :
        item ∉ forest.children other := by
      intro shared
      rcases own with rfl | own
      · exact (List.nodup_cons.mp there.distinct).1 shared
      · exact different (wellFormed.once shared own)
    apply NodeHeap.linkNext_frame _ different
    · apply elsewhere
      rw [prev]
      exact (last_cases 0 before).imp_right fun listed => inside _ (List.mem_append_left _ listed)
    · apply NodeHeap.linkPrev_frame there different
      apply elsewhere
      rw [next]
      exact (head_cases 0 after).imp_right fun listed => inside _ (List.mem_append_right _ listed)

theorem RemoveChild_ok (wellFormed : forest.WellFormed) (represents : Represents heap forest)
    (member : node ∈ forest.children this) {fuel : Nat} {after : NodeHeap}
    (deleted : (heap.unlink this node).delete fuel node = .ok after) :
    heap.RemoveChild fuel this node = .ok (after, true) := by
  obtain ⟨thisLives, lives⟩ := wellFormed.owned this node member
  have notNull := represents.threaded.not_null thisLives member
  obtain ⟨before, rest, children⟩ := List.append_of_mem member
  have neighbour {item : NodePtr} (own : item = 0 ∨ item ∈ before ++ node :: rest) :
      item = 0 ∨ heap.content item ≠ none := by
    rw [represents.content]
    exact own.imp_right fun listed => (wellFormed.owned this item (children ▸ listed)).2
  have next : heap.next node = 0 ∨ heap.content (heap.next node) ≠ none := by
    rw [represents.threaded.next thisLives children]
    exact neighbour ((head_cases 0 rest).imp_right fun listed =>
      List.mem_append_right _ (List.mem_cons_of_mem _ listed))
  have prev : heap.prev node = 0 ∨ heap.content (heap.prev node) ≠ none := by
    rw [represents.threaded.prev thisLives children]
    exact neighbour ((last_cases 0 before).imp_right (List.mem_append_left _))
  have own : heap.parent node = this := by
    rw [represents.parent]
    exact wellFormed.parents this node member
  rw [← represents.content] at thisLives lives
  obtain ⟨_, -, used⟩ := deref_live lives
  rw [NodeHeap.unlink] at deleted
  rw [NodeHeap.RemoveChild, if_neg notNull, used]
  simp only [bind, Except.bind, own, ne_eq, not_true_eq_false, if_false]
  rw [NodeHeap.setPrev_ok thisLives next]
  dsimp only
  rw [NodeHeap.setNext_ok (by simpa using thisLives) (by simpa using prev)]
  dsimp only
  rw [deleted]
  rfl

theorem RemoveChild_guarded (lives : node = 0 ∨ heap.content node ≠ none)
    (elsewhere : node = 0 ∨ heap.parent node ≠ this) (fuel : Nat) :
    heap.RemoveChild fuel this node = .ok (heap, false) := by
  by_cases null : node = 0
  · exact if_pos null
  · obtain ⟨_, -, used⟩ := deref_live (lives.resolve_left null)
    rw [NodeHeap.RemoveChild, if_neg null, used]
    simp only [bind, Except.bind, if_pos (elsewhere.resolve_left null)]
    rfl

theorem RemoveChild_represents (wellFormed : forest.WellFormed)
    (represents : Represents heap forest)
    (allowed : forest.Allowed (.RemoveChild this node)) :
    (forest.step (.RemoveChild this node)).WellFormed ∧
      Returns (fun fuel => heap.RemoveChild fuel this node) (forest.step (.RemoveChild this node))
        (decide (node ∈ forest.children this)) := by
  obtain ⟨thisLives, nodeLives⟩ := allowed
  by_cases member : node ∈ forest.children this
  · have lives := (wellFormed.owned this node member).2
    obtain ⟨before, after, children⟩ := List.append_of_mem member
    have distinct := (represents.threaded this thisLives).distinct
    rw [children] at distinct
    have erased : (forest.children this).erase node = before ++ after := by
      have first : node ∉ before := by grind
      rw [children, List.erase_append_right _ first, List.erase_cons_head]
    have removed : forest.step (.RemoveChild this node) =
        (forest.setChildren this (before ++ after)).prune [node] := by
      rw [← erased]
      exact if_pos member
    have less : (forest.setChildren this (before ++ after)).WellFormed :=
      Forest.fewer_wellFormed wellFormed thisLives fun child listed =>
        List.mem_of_mem_erase (erased ▸ listed)
    have root : (forest.setChildren this (before ++ after)).Root node :=
      Forest.fewer_root wellFormed member (by grind)
    have unlinked := unlink_represents wellFormed represents children
    obtain ⟨enough, _, deleted, pruned⟩ := delete_represents less unlinked lives
    rw [removed, decide_eq_true member]
    refine ⟨Forest.prune_wellFormed less (by simpa using root), enough, _, ?_, pruned⟩
    exact fun fuel more => RemoveChild_ok wellFormed represents member (deleted fuel more)
  · have kept : forest.step (.RemoveChild this node) = forest := if_neg member
    rw [kept, decide_eq_false member]
    refine ⟨wellFormed, 0, heap, fun fuel _ => ?_, represents⟩
    apply RemoveChild_guarded
    · rw [represents.content]
      exact nodeLives.imp_right And.left
    · rw [represents.parent]
      exact nodeLives.imp_right fun guarded => guarded.2.resolve_left member

theorem Clear_represents (wellFormed : forest.WellFormed) (represents : Represents heap forest)
    (allowed : forest.Allowed (.Clear this)) :
    (forest.step (.Clear this)).WellFormed ∧
      EndsIn (fun fuel => heap.Clear fuel this) (forest.step (.Clear this)) := by
  have thisLives : forest.content this ≠ none := allowed
  have less : (forest.setChildren this []).WellFormed :=
    Forest.fewer_wellFormed wellFormed thisLives (by simp)
  have roots : ∀ root ∈ forest.children this, (forest.setChildren this []).Root root :=
    fun root member => Forest.fewer_root wellFormed member List.not_mem_nil
  have each : ∀ child ∈ forest.children this,
      Deletes forest (fun fuel heap => heap.delete fuel child) (forest.Below child) :=
    fun child member => delete_deletes wellFormed (wellFormed.owned this child member).2
  obtain ⟨enough, deletes⟩ :=
    deleteFrom_deletes wellFormed thisLives each (List.nil_append _).symm
  have emptied : Represents
      { heap with
        firstChild := Function.update heap.firstChild this 0
        lastChild := Function.update heap.lastChild this 0 }
      (forest.setChildren this []) := by
    apply setChildren_represents represents
    · rfl
    · rfl
    · rfl
    · rw [ring_nil]
      simp [NodeHeap.ring]
    · intro other different lives
      apply ring_frame (represents.threaded other lives)
      · exact Function.update_of_ne different _ _
      · exact Function.update_of_ne different _ _
      · exact fun _ _ => rfl
      · exact fun _ _ => rfl
  refine ⟨Forest.prune_wellFormed less roots, enough, _, ?_, prune_represents emptied _⟩
  intro fuel more
  have deleted := deletes fuel more heap represents.threaded (by
    rintro inside ⟨child, member, below⟩
    rw [represents.content]
    exact wellFormed.live (wellFormed.owned this child member).2 below)
  dsimp only at deleted ⊢
  have lives := thisLives
  rw [← represents.content] at lives
  obtain ⟨content, -, used⟩ := deref_live lives
  rw [NodeHeap.Clear, used]
  simp only [bind, Except.bind]
  rw [represents.threaded.firstChild thisLives, deleted]
  have same : ∀ node, (∃ root ∈ forest.children this,
      (forest.setChildren this []).Below root node) ↔
        ∃ root ∈ forest.children this, forest.Below root node := by
    intro node
    apply exists_congr
    intro root
    apply and_congr_right
    intro member
    exact Forest.below_setChildren (wellFormed.no_cycle member)
  rw [without_congr same]
  rfl

theorem delete_event_represents (wellFormed : forest.WellFormed)
    (represents : Represents heap forest) (allowed : forest.Allowed (.delete node)) :
    (forest.step (.delete node)).WellFormed ∧
      EndsIn (fun fuel => heap.delete fuel node) (forest.step (.delete node)) := by
  obtain ⟨lives, root⟩ := allowed
  exact ⟨Forest.prune_wellFormed wellFormed (by simpa using root),
    delete_represents wellFormed represents lives⟩

theorem step_represents (wellFormed : forest.WellFormed) (represents : Represents heap forest)
    (event : NodeHeap.Event) (allowed : forest.Allowed event) :
    (forest.step event).WellFormed ∧
      EndsIn (fun fuel => heap.step fuel event) (forest.step event) := by
  cases event with
  | new content parent =>
      refine ⟨new_wellFormed wellFormed content parent, 0, heap.new content parent, ?_, ?_⟩
      · exact fun _ _ => rfl
      · exact new_represents wellFormed represents content parent
  | LinkEndChild this node =>
      obtain ⟨wellFormed, result, returns⟩ :=
        LinkEndChild_represents wellFormed represents allowed
      exact ⟨wellFormed, returns.endsIn⟩
  | RemoveChild this removeThis =>
      obtain ⟨wellFormed, returns⟩ := RemoveChild_represents wellFormed represents allowed
      exact ⟨wellFormed, returns.endsIn⟩
  | Clear this => exact Clear_represents wellFormed represents allowed
  | delete node => exact delete_event_represents wellFormed represents allowed

end

/-! Lookups. -/

def Leads (heap : NodeHeap) (step : NodePtr → NodePtr) : List NodePtr → Prop
  | [] => True
  | node :: rest =>
      node ≠ 0 ∧ heap.content node ≠ none ∧ step node = rest.head?.getD 0 ∧
        Leads heap step rest

section

variable {heap : NodeHeap} {forest : Forest} {step : NodePtr → NodePtr} {this : NodePtr}
  {nodes : List NodePtr}

theorem leads_of_splits (each : ∀ before node after, nodes = before ++ node :: after →
    node ≠ 0 ∧ heap.content node ≠ none ∧ step node = after.head?.getD 0) :
    Leads heap step nodes := by
  induction nodes with
  | nil => trivial
  | cons node rest ih =>
      obtain ⟨notNull, lives, next⟩ := each [] node rest rfl
      refine ⟨notNull, lives, next, ih ?_⟩
      intro before other after split
      exact each (node :: before) other after (by rw [split, List.cons_append])

theorem Represents.live_child (wellFormed : forest.WellFormed)
    (represents : Represents heap forest) {child : NodePtr}
    (member : child ∈ forest.children this) : heap.content child ≠ none := by
  rw [represents.content]
  exact (wellFormed.owned this child member).2

theorem leads_next (wellFormed : forest.WellFormed) (represents : Represents heap forest)
    (lives : forest.content this ≠ none) : Leads heap heap.next (forest.children this) := by
  apply leads_of_splits
  intro before node after split
  have member : node ∈ forest.children this := by simp [split]
  exact ⟨represents.threaded.not_null lives member, represents.live_child wellFormed member,
    represents.threaded.next lives split⟩

theorem leads_prev (wellFormed : forest.WellFormed) (represents : Represents heap forest)
    (lives : forest.content this ≠ none) :
    Leads heap heap.prev (forest.children this).reverse := by
  apply leads_of_splits
  intro before node after split
  have forward : forest.children this = after.reverse ++ node :: before.reverse := by
    rw [← List.reverse_reverse (forest.children this), split]
    simp
  have member : node ∈ forest.children this := by simp [forward]
  refine ⟨represents.threaded.not_null lives member, represents.live_child wellFormed member, ?_⟩
  rw [represents.threaded.prev lives forward, List.getLast?_reverse]

theorem visit_leads (leads : Leads heap step nodes) {fuel : Nat} (enough : nodes.length < fuel) :
    heap.visit step fuel (nodes.head?.getD 0) = .ok nodes := by
  induction nodes generalizing fuel with
  | nil =>
      obtain ⟨fuel, rfl⟩ := Nat.exists_eq_succ_of_ne_zero (by omega : fuel ≠ 0)
      rfl
  | cons node rest ih =>
      obtain ⟨notNull, lives, next, leads⟩ := leads
      rw [List.length_cons] at enough
      obtain ⟨fuel, rfl⟩ := Nat.exists_eq_succ_of_ne_zero (by omega : fuel ≠ 0)
      obtain ⟨_, -, used⟩ := deref_live lives
      rw [List.head?_cons, Option.getD_some, NodeHeap.visit, if_neg notNull, used]
      simp only [bind, Except.bind, next, ih leads (by omega : rest.length < fuel)]
      rfl

def named (content : NodePtr → Option Content) (value : Str) (node : NodePtr) : Bool :=
  (content node).any fun content => Stream.cString content.value = value

def isElement (content : NodePtr → Option Content) (node : NodePtr) : Bool :=
  (content node).any fun content => content.type = .TINYXML_ELEMENT

theorem find_leads (leads : Leads heap step nodes) (value : Str) {fuel : Nat}
    (enough : nodes.length < fuel) :
    heap.find step value fuel (nodes.head?.getD 0) =
      .ok ((nodes.find? (named heap.content value)).getD 0) := by
  induction nodes generalizing fuel with
  | nil =>
      obtain ⟨fuel, rfl⟩ := Nat.exists_eq_succ_of_ne_zero (by omega : fuel ≠ 0)
      rfl
  | cons node rest ih =>
      obtain ⟨notNull, lives, next, leads⟩ := leads
      rw [List.length_cons] at enough
      obtain ⟨fuel, rfl⟩ := Nat.exists_eq_succ_of_ne_zero (by omega : fuel ≠ 0)
      obtain ⟨content, found, used⟩ := deref_live lives
      rw [List.head?_cons, Option.getD_some, NodeHeap.find, if_neg notNull, used]
      simp only [bind, Except.bind]
      by_cases same : Stream.cString content.value = value
      · rw [if_pos same, List.find?_cons_of_pos (by simp [named, found, same])]
        rfl
      · rw [if_neg same, List.find?_cons_of_neg (by simp [named, found, same]), next]
        exact ih leads (by omega)

theorem findElement_leads (leads : Leads heap heap.next nodes) (value : Str) {limit fuel : Nat}
    (enough : nodes.length < fuel) (bounded : nodes.length < limit) :
    heap.findElement limit value fuel ((nodes.find? (named heap.content value)).getD 0) =
      .ok ((nodes.find? fun node =>
        named heap.content value node && isElement heap.content node).getD 0) := by
  induction nodes generalizing fuel with
  | nil =>
      obtain ⟨fuel, rfl⟩ := Nat.exists_eq_succ_of_ne_zero (by omega : fuel ≠ 0)
      rfl
  | cons node rest ih =>
      obtain ⟨notNull, lives, next, leads⟩ := leads
      rw [List.length_cons] at enough bounded
      cases same : named heap.content value node with
      | false =>
          rw [List.find?_cons_of_neg (by simp [same]), List.find?_cons_of_neg (by simp [same])]
          exact ih leads (by omega) (by omega)
      | true =>
          obtain ⟨fuel, rfl⟩ := Nat.exists_eq_succ_of_ne_zero (by omega : fuel ≠ 0)
          obtain ⟨content, found, used⟩ := deref_live lives
          rw [List.find?_cons_of_pos same, Option.getD_some, NodeHeap.findElement,
            if_neg notNull, used]
          simp only [bind, Except.bind]
          by_cases element : content.type = .TINYXML_ELEMENT
          · rw [if_pos element,
              List.find?_cons_of_pos (by simp [same, isElement, found, element])]
            rfl
          · rw [if_neg element,
              List.find?_cons_of_neg (by simp [same, isElement, found, element])]
            rw [NodeHeap.NextSibling, used]
            simp only [bind, Except.bind, next,
              find_leads leads value (by omega : rest.length < limit)]
            exact ih leads (by omega) (by omega)

theorem nextElement_leads (leads : Leads heap heap.next nodes) {fuel : Nat}
    (enough : nodes.length < fuel) :
    heap.nextElement fuel (nodes.head?.getD 0) =
      .ok ((nodes.find? (isElement heap.content)).getD 0) := by
  induction nodes generalizing fuel with
  | nil =>
      obtain ⟨fuel, rfl⟩ := Nat.exists_eq_succ_of_ne_zero (by omega : fuel ≠ 0)
      rfl
  | cons node rest ih =>
      obtain ⟨notNull, lives, next, leads⟩ := leads
      rw [List.length_cons] at enough
      obtain ⟨fuel, rfl⟩ := Nat.exists_eq_succ_of_ne_zero (by omega : fuel ≠ 0)
      obtain ⟨content, found, used⟩ := deref_live lives
      rw [List.head?_cons, Option.getD_some, NodeHeap.nextElement, if_neg notNull, used]
      simp only [bind, Except.bind]
      by_cases element : content.type = .TINYXML_ELEMENT
      · rw [if_pos element, List.find?_cons_of_pos (by simp [isElement, found, element])]
        rfl
      · rw [if_neg element, List.find?_cons_of_neg (by simp [isElement, found, element]), next]
        exact ih leads (by omega)

theorem visitElements_leads (leads : Leads heap heap.next nodes) {limit fuel : Nat}
    (enough : nodes.length < fuel) (bounded : nodes.length < limit) :
    heap.visitElements limit fuel ((nodes.find? (isElement heap.content)).getD 0) =
      .ok (nodes.filter (isElement heap.content)) := by
  induction nodes generalizing fuel with
  | nil =>
      obtain ⟨fuel, rfl⟩ := Nat.exists_eq_succ_of_ne_zero (by omega : fuel ≠ 0)
      rfl
  | cons node rest ih =>
      obtain ⟨notNull, lives, next, leads⟩ := leads
      rw [List.length_cons] at enough bounded
      cases element : isElement heap.content node with
      | false =>
          rw [List.find?_cons_of_neg (by simp [element]),
            List.filter_cons_of_neg (by simp [element])]
          exact ih leads (by omega) (by omega)
      | true =>
          obtain ⟨fuel, rfl⟩ := Nat.exists_eq_succ_of_ne_zero (by omega : fuel ≠ 0)
          obtain ⟨_, -, used⟩ := deref_live lives
          rw [List.find?_cons_of_pos element, List.filter_cons_of_pos element, Option.getD_some,
            NodeHeap.visitElements, if_neg notNull, used]
          simp only [bind, Except.bind, next,
            nextElement_leads leads (by omega : rest.length < limit),
            ih leads (by omega : rest.length < fuel) (by omega)]
          rfl

end

/-! Runs. -/

namespace Forest

theorem empty_wellFormed : Forest.empty.WellFormed := by
  constructor
  · rfl
  · exact Nat.one_pos
  · exact fun _ _ => rfl
  · exact fun _ _ member => absurd member List.not_mem_nil
  · exact fun _ _ member => absurd member List.not_mem_nil
  · exact ⟨fun node => ⟨node, fun _ member => absurd member List.not_mem_nil⟩⟩

noncomputable def grown (events : List NodeHeap.Event) : Forest :=
  events.foldl Forest.step Forest.empty

end Forest

theorem empty_represents : Represents NodeHeap.empty Forest.empty :=
  ⟨rfl, rfl, rfl, fun _ lives => absurd rfl lives⟩

section

variable {heap : NodeHeap} {forest : Forest} {this : NodePtr} {events : List NodeHeap.Event}

theorem run_represents (wellFormed : forest.WellFormed) (represents : Represents heap forest)
    (legal : forest.Legal events) :
    (events.foldl Forest.step forest).WellFormed ∧
      EndsIn (fun fuel => Runs.run (NodeHeap.step fuel) heap events)
        (events.foldl Forest.step forest) := by
  induction events generalizing heap forest with
  | nil => exact ⟨wellFormed, 0, heap, fun _ _ => rfl, represents⟩
  | cons event events ih =>
      obtain ⟨allowed, legal⟩ := legal
      obtain ⟨wellFormed, first, after, steps, represents⟩ :=
        step_represents wellFormed represents event allowed
      obtain ⟨wellFormed, second, last, continues, represents⟩ := ih wellFormed represents legal
      refine ⟨wellFormed, max first second, last, ?_, represents⟩
      intro fuel enough
      dsimp only at steps continues ⊢
      rw [Runs.run_cons, steps fuel (by omega)]
      exact continues fuel (by omega)

theorem children_bound (wellFormed : forest.WellFormed) (represents : Represents heap forest)
    (lives : forest.content this ≠ none) :
    (forest.children this).length ≤ forest.created := by
  have distinct := (List.nodup_cons.mp (represents.threaded this lives).distinct).2
  have inside : forest.children this ⊆ List.range forest.created := by
    intro child member
    rw [List.mem_range]
    by_contra late
    exact (wellFormed.owned this child member).2 (wellFormed.fresh child (Nat.le_of_not_lt late))
  simpa using (distinct.subperm inside).length_le

/-- The objects tell the children of the node, forward and backward, and the first and
the last one that is looked for; each child knows its parent. -/
structure Answers (fuel : Nat) (heap : NodeHeap) (forest : Forest) (this : NodePtr) : Prop where
  forward : heap.visit heap.next fuel (heap.firstChild this) = .ok (forest.children this)
  backward : heap.visit heap.prev fuel (heap.lastChild this) =
    .ok (forest.children this).reverse
  parent : ∀ child ∈ forest.children this, heap.parent child = this
  FirstChild : ∀ value, heap.FirstChild fuel this value =
    .ok (((forest.children this).find? (named forest.content value)).getD 0)
  LastChild : ∀ value, heap.LastChild fuel this value =
    .ok (((forest.children this).reverse.find? (named forest.content value)).getD 0)
  FirstChildElement : ∀ value, heap.FirstChildElement fuel this value =
    .ok (((forest.children this).find? fun node =>
      named forest.content value node && isElement forest.content node).getD 0)

theorem represents_answers (wellFormed : forest.WellFormed) (represents : Represents heap forest)
    (lives : forest.content this ≠ none) {fuel : Nat} (enough : forest.created < fuel) :
    Answers fuel heap forest this := by
  have bound := children_bound wellFormed represents lives
  have next := leads_next wellFormed represents lives
  have prev := leads_prev wellFormed represents lives
  have first := represents.threaded.firstChild lives
  have last : heap.lastChild this = (forest.children this).reverse.head?.getD 0 := by
    rw [List.head?_reverse]
    exact represents.threaded.lastChild lives
  have here : heap.content this ≠ none := by rwa [represents.content]
  obtain ⟨_, -, used⟩ := deref_live here
  have short : (forest.children this).length < fuel := Nat.lt_of_le_of_lt bound enough
  have reversed : (forest.children this).reverse.length < fuel := by
    rwa [List.length_reverse]
  have found (value : Str) : heap.FirstChild fuel this value =
      .ok (((forest.children this).find? (named forest.content value)).getD 0) := by
    rw [NodeHeap.FirstChild, used, first, ← represents.content]
    exact find_leads next value short
  constructor
  · rw [first]
    exact visit_leads next short
  · rw [last]
    exact visit_leads prev reversed
  · intro child member
    rw [represents.parent]
    exact wellFormed.parents this child member
  · exact found
  · intro value
    rw [NodeHeap.LastChild, used, last, ← represents.content]
    exact find_leads prev value reversed
  · intro value
    rw [NodeHeap.FirstChildElement, found value, ← represents.content]
    exact findElement_leads next value short short

/-- In every run of operations that their callers may use, no operation stops, and
the objects that live are linked as the trees of the forest. -/
theorem linked_run (legal : Forest.empty.Legal events) :
    (Forest.grown events).WellFormed ∧
      ∃ enough heap, heap.content = (Forest.grown events).content ∧
        ∀ fuel, enough ≤ fuel →
          Runs.run (NodeHeap.step fuel) NodeHeap.empty events = .ok heap ∧
            ∀ this, heap.content this ≠ none →
              Answers fuel heap (Forest.grown events) this := by
  obtain ⟨wellFormed, enough, heap, ends, represents⟩ :=
    run_represents Forest.empty_wellFormed empty_represents legal
  refine ⟨wellFormed, max enough ((Forest.grown events).created + 1), heap, represents.content, ?_⟩
  intro fuel more
  refine ⟨ends fuel (by omega), ?_⟩
  intro this lives
  rw [represents.content] at lives
  exact represents_answers wellFormed represents lives
    (Nat.lt_of_lt_of_le (Nat.lt_succ_self _) (Nat.le_trans (Nat.le_max_right _ _) more))

end

open Classical in
theorem Forest.prune_leaf {forest : Forest} {node : NodePtr}
    (childless : forest.children node = []) :
    forest.prune [node] = { forest with content := Function.update forest.content node none } := by
  simp only [prune, List.mem_singleton, exists_eq_left, below_childless childless]
  congr 1
  · funext other
    simp [Function.update_apply]
  · funext other
    split_ifs with same
    · rw [same, childless]
    · rfl

/-- Two elements in a document, one with a text. A document cannot be linked; one element is
removed, the other one cleared and given two nodes, and a node that is in no tree deleted. -/
def removal : List NodeHeap.Event :=
  [.new { type := .TINYXML_DOCUMENT, value := [] } 0,
    .new { type := .TINYXML_ELEMENT, value := [65] } 1, .LinkEndChild 1 2,
    .new { type := .TINYXML_ELEMENT, value := [66] } 1, .LinkEndChild 1 3,
    .new { type := .TINYXML_TEXT, value := [67] } 3, .LinkEndChild 3 4,
    .new { type := .TINYXML_DOCUMENT, value := [] } 0, .LinkEndChild 3 5,
    .RemoveChild 1 2, .Clear 3,
    .new { type := .TINYXML_COMMENT, value := [68] } 3, .LinkEndChild 3 6,
    .new { type := .TINYXML_UNKNOWN, value := [69] } 3, .LinkEndChild 3 7,
    .new { type := .TINYXML_TEXT, value := [70] } 0, .delete 8]

theorem removal_legal : Forest.empty.Legal removal := by
  simp only [removal, Forest.Legal, Forest.step, Forest.empty, Forest.Allowed, Forest.setChildren,
    Forest.adopt]
  simp [Forest.prune_leaf, Function.update_apply, Forest.below_childless, Forest.Root]
  -- the nodes that are linked or deleted are nobody's children
  refine ⟨⟨?_, ?_⟩, ?_, ?_, ?_⟩
  · intro parent
    split_ifs <;> simp
  · exact .parent rfl (by simp) (.document rfl rfl)
  · intro parent _
    split_ifs <;> simp
  · intro parent
    split_ifs <;> simp
  · intro parent
    split_ifs <;> simp

theorem linked_run_removal :
    Forest.empty.Legal removal ∧ (Forest.grown removal).WellFormed ∧
      ∃ enough heap, heap.content = (Forest.grown removal).content ∧
        ∀ fuel, enough ≤ fuel →
          Runs.run (NodeHeap.step fuel) NodeHeap.empty removal = .ok heap ∧
            ∀ this, heap.content this ≠ none → Answers fuel heap (Forest.grown removal) this :=
  ⟨removal_legal, linked_run removal_legal⟩

end Nodes

end TinyXml

end GraduationServer
