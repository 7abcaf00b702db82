import GraduationServer.Library.LinkedRing
import GraduationServer.Library.Runs
import GraduationServer.TinyXml
import Mathlib.Logic.Relation
import Mathlib.Order.WellFounded

/-!
The nodes of a document as objects that are linked by pointers. The children of a
node form a list that is linked in both directions between its `firstChild` and
its `lastChild`; a node that is deleted deletes its children.
-/

namespace GraduationServer

namespace TinyXml

namespace Nodes

open LinkedRing

abbrev NodePtr := Nat

inductive NodeType where
  | TINYXML_DOCUMENT
  | TINYXML_ELEMENT
  | TINYXML_COMMENT
  | TINYXML_UNKNOWN
  | TINYXML_TEXT
  | TINYXML_DECLARATION
  deriving DecidableEq

structure Content where
  type : NodeType
  value : Str
  deriving DecidableEq

/-- The fields of the objects by their addresses, `created` being the next one. An
object that does not live has no content, and only a document an error. -/
structure NodeHeap where
  content : NodePtr → Option Content
  created : NodePtr
  parent : NodePtr → NodePtr
  firstChild : NodePtr → NodePtr
  lastChild : NodePtr → NodePtr
  prev : NodePtr → NodePtr
  next : NodePtr → NodePtr
  error : NodePtr → Option TiXmlError

namespace NodeHeap

def empty : NodeHeap :=
  { content := fun _ => none
    created := 1
    parent := fun _ => 0
    firstChild := fun _ => 0
    lastChild := fun _ => 0
    prev := fun _ => 0
    next := fun _ => 0
    error := fun _ => none }

def deref (heap : NodeHeap) (node : NodePtr) : Exec Content :=
  match heap.content node with
  | some content => .ok content
  | none => .error (if node = 0 then .nullPointer else .freedObject)

/-- The constructor; `Identify` sets the parent, too, before the node is linked. -/
def new (heap : NodeHeap) (content : Content) (parent : NodePtr) : NodeHeap :=
  let node := heap.created
  { content := Function.update heap.content node content
    created := heap.created + 1
    parent := Function.update heap.parent node parent
    firstChild := Function.update heap.firstChild node 0
    lastChild := Function.update heap.lastChild node 0
    prev := Function.update heap.prev node 0
    next := Function.update heap.next node 0
    error := Function.update heap.error node none }

/-- `node->next = following`, or `firstChild = following` in front of the first child. -/
def setNext (heap : NodeHeap) (this node following : NodePtr) : Exec NodeHeap :=
  if node = 0 then do
    let _ ← heap.deref this
    return { heap with firstChild := Function.update heap.firstChild this following }
  else do
    let _ ← heap.deref node
    return { heap with next := Function.update heap.next node following }

/-- `node->prev = before`, or `lastChild = before` behind the last child. -/
def setPrev (heap : NodeHeap) (this node before : NodePtr) : Exec NodeHeap :=
  if node = 0 then do
    let _ ← heap.deref this
    return { heap with lastChild := Function.update heap.lastChild this before }
  else do
    let _ ← heap.deref node
    return { heap with prev := Function.update heap.prev node before }

mutual

def delete : Nat → NodeHeap → NodePtr → Exec NodeHeap
  | 0, _, _ => .error .endlessLoop
  | fuel + 1, heap, node => do
      let _ ← heap.deref node
      let heap ← deleteFrom fuel heap (heap.firstChild node)
      return { heap with content := Function.update heap.content node none }

def deleteFrom : Nat → NodeHeap → NodePtr → Exec NodeHeap
  | 0, _, _ => .error .endlessLoop
  | fuel + 1, heap, node =>
      if node = 0 then .ok heap
      else do
        let temp := node
        let _ ← heap.deref node
        let node := heap.next node
        let heap ← delete fuel heap temp
        deleteFrom fuel heap node

end

def Clear (fuel : Nat) (heap : NodeHeap) (this : NodePtr) : Exec NodeHeap := do
  let _ ← heap.deref this
  let heap ← deleteFrom fuel heap (heap.firstChild this)
  return { heap with
    firstChild := Function.update heap.firstChild this 0
    lastChild := Function.update heap.lastChild this 0 }

def GetDocument : Nat → NodeHeap → NodePtr → Exec NodePtr
  | 0, _, _ => .error .endlessLoop
  | fuel + 1, heap, node =>
      if node = 0 then .ok 0
      else do
        let content ← heap.deref node
        if content.type = .TINYXML_DOCUMENT then return node
        else GetDocument fuel heap (heap.parent node)

def SetError (heap : NodeHeap) (document : NodePtr) (err : TiXmlError) : NodeHeap :=
  { heap with
    error := Function.update heap.error document ((heap.error document).or (some err)) }

def LinkEndChild (fuel : Nat) (heap : NodeHeap) (this node : NodePtr) :
    Exec (NodeHeap × NodePtr) := do
  let content ← heap.deref node
  if content.type = .TINYXML_DOCUMENT then
    let heap ← delete fuel heap node
    let document ← heap.GetDocument fuel this
    if document = 0 then return (heap, 0)
    else return (heap.SetError document .TIXML_ERROR_DOCUMENT_TOP_ONLY, 0)
  else
    let _ ← heap.deref this
    let lastChild := heap.lastChild this
    let heap := { heap with
      parent := Function.update heap.parent node this
      prev := Function.update heap.prev node lastChild
      next := Function.update heap.next node 0 }
    let heap ← heap.setNext this lastChild node
    return ({ heap with lastChild := Function.update heap.lastChild this node }, node)

def RemoveChild (fuel : Nat) (heap : NodeHeap) (this removeThis : NodePtr) :
    Exec (NodeHeap × Bool) :=
  if removeThis = 0 then .ok (heap, false)
  else do
    let _ ← heap.deref removeThis
    if heap.parent removeThis ≠ this then return (heap, false)
    else
      let next := heap.next removeThis
      let prev := heap.prev removeThis
      let heap ← heap.setPrev this next prev
      let heap ← heap.setNext this prev next
      let heap ← delete fuel heap removeThis
      return (heap, true)

def visit (heap : NodeHeap) (step : NodePtr → NodePtr) : Nat → NodePtr → Exec (List NodePtr)
  | 0, _ => .error .endlessLoop
  | fuel + 1, node =>
      if node = 0 then .ok []
      else do
        let _ ← heap.deref node
        return node :: (← visit heap step fuel (step node))

def find (heap : NodeHeap) (step : NodePtr → NodePtr) (value : Str) :
    Nat → NodePtr → Exec NodePtr
  | 0, _ => .error .endlessLoop
  | fuel + 1, node =>
      if node = 0 then .ok 0
      else do
        let content ← heap.deref node
        if Stream.cString content.value = value then return node
        else find heap step value fuel (step node)

def FirstChild (fuel : Nat) (heap : NodeHeap) (this : NodePtr) (value : Str) : Exec NodePtr := do
  let _ ← heap.deref this
  heap.find heap.next value fuel (heap.firstChild this)

def LastChild (fuel : Nat) (heap : NodeHeap) (this : NodePtr) (value : Str) : Exec NodePtr := do
  let _ ← heap.deref this
  heap.find heap.prev value fuel (heap.lastChild this)

def NextSibling (fuel : Nat) (heap : NodeHeap) (this : NodePtr) (value : Str) : Exec NodePtr := do
  let _ ← heap.deref this
  heap.find heap.next value fuel (heap.next this)

/-- The loop of `FirstChildElement(value)`; a node that is no element is passed by. -/
def findElement (limit : Nat) (heap : NodeHeap) (value : Str) : Nat → NodePtr → Exec NodePtr
  | 0, _ => .error .endlessLoop
  | fuel + 1, node =>
      if node = 0 then .ok 0
      else do
        let content ← heap.deref node
        if content.type = .TINYXML_ELEMENT then return node
        else findElement limit heap value fuel (← heap.NextSibling limit node value)

def FirstChildElement (fuel : Nat) (heap : NodeHeap) (this : NodePtr) (value : Str) :
    Exec NodePtr := do
  heap.findElement fuel value fuel (← heap.FirstChild fuel this value)

def nextElement (heap : NodeHeap) : Nat → NodePtr → Exec NodePtr
  | 0, _ => .error .endlessLoop
  | fuel + 1, node =>
      if node = 0 then .ok 0
      else do
        let content ← heap.deref node
        if content.type = .TINYXML_ELEMENT then return node
        else nextElement heap fuel (heap.next node)

def visitElements (limit : Nat) (heap : NodeHeap) : Nat → NodePtr → Exec (List NodePtr)
  | 0, _ => .error .endlessLoop
  | fuel + 1, elem =>
      if elem = 0 then .ok []
      else do
        let _ ← heap.deref elem
        return elem :: (← visitElements limit heap fuel (← heap.nextElement limit (heap.next elem)))

def elements (fuel : Nat) (heap : NodeHeap) (this : NodePtr) : Exec (List NodePtr) := do
  let _ ← heap.deref this
  let elem ← heap.nextElement fuel (heap.firstChild this)
  heap.visitElements fuel fuel elem

def GetText (heap : NodeHeap) (this : NodePtr) : Exec (Option Str) := do
  let _ ← heap.deref this
  let child := heap.firstChild this
  if child = 0 then return none
  else
    let content ← heap.deref child
    if content.type = .TINYXML_TEXT then return some (Stream.cString content.value)
    else return none

inductive Event where
  | new (content : Content) (parent : NodePtr)
  | LinkEndChild (this node : NodePtr)
  | RemoveChild (this removeThis : NodePtr)
  | Clear (this : NodePtr)
  | delete (node : NodePtr)

def step (fuel : Nat) (heap : NodeHeap) : Event → Exec NodeHeap
  | .new content parent => .ok (heap.new content parent)
  | .LinkEndChild this node => (heap.LinkEndChild fuel this node).map Prod.fst
  | .RemoveChild this removeThis => (heap.RemoveChild fuel this removeThis).map Prod.fst
  | .Clear this => heap.Clear fuel this
  | .delete node => heap.delete fuel node

end NodeHeap

/-! What the nodes are for: trees. -/

/-- The nodes that live with their children, in order. A node that is no child of
its parent is not linked yet. -/
structure Forest where
  content : NodePtr → Option Content
  created : NodePtr
  parent : NodePtr → NodePtr
  children : NodePtr → List NodePtr

namespace Forest

def empty : Forest :=
  { content := fun _ => none, created := 1, parent := fun _ => 0, children := fun _ => [] }

def Below (forest : Forest) : NodePtr → NodePtr → Prop :=
  Relation.ReflTransGen fun node child => child ∈ forest.children node

def Root (forest : Forest) (node : NodePtr) : Prop := ∀ parent, node ∉ forest.children parent

open Classical in
noncomputable def prune (forest : Forest) (roots : List NodePtr) : Forest :=
  { forest with
    content := fun node => if ∃ root ∈ roots, forest.Below root node then none
      else forest.content node
    children := fun node => if ∃ root ∈ roots, forest.Below root node then []
      else forest.children node }

def setChildren (forest : Forest) (node : NodePtr) (children : List NodePtr) : Forest :=
  { forest with children := Function.update forest.children node children }

def adopt (forest : Forest) (this node : NodePtr) : Forest :=
  { forest with parent := Function.update forest.parent node this }

noncomputable def step (forest : Forest) : NodeHeap.Event → Forest
  | .new content parent =>
      { forest with
        content := Function.update forest.content forest.created content
        created := forest.created + 1
        parent := Function.update forest.parent forest.created parent }
  | .LinkEndChild this node =>
      if ∃ content, forest.content node = some content ∧ content.type = .TINYXML_DOCUMENT then
        forest.prune [node]
      else (forest.adopt this node).setChildren this (forest.children this ++ [node])
  | .RemoveChild this removeThis =>
      if removeThis ∈ forest.children this then
        (forest.setChildren this ((forest.children this).erase removeThis)).prune [removeThis]
      else forest
  | .Clear this =>
      (forest.setChildren this []).prune (forest.children this)
  | .delete node => forest.prune [node]

/-- The parent pointers lead by nodes that live to a document or to null. -/
inductive Climbs (forest : Forest) : NodePtr → Prop where
  | null : Climbs forest 0
  | document {node : NodePtr} {content : Content} (found : forest.content node = some content)
      (kind : content.type = .TINYXML_DOCUMENT) : Climbs forest node
  | parent {node : NodePtr} {content : Content} (found : forest.content node = some content)
      (kind : content.type ≠ .TINYXML_DOCUMENT) (above : Climbs forest (forest.parent node)) :
      Climbs forest node

/-- What the callers of the operations have to see to. A document cannot be linked, and
is only deleted; the error is set on the way up from the other node. -/
def Allowed (forest : Forest) : NodeHeap.Event → Prop
  | .new _ _ => True
  | .LinkEndChild this node =>
      forest.content this ≠ none ∧ forest.content node ≠ none ∧ forest.Root node ∧
        ¬ forest.Below node this ∧
          ∀ content, forest.content node = some content → content.type = .TINYXML_DOCUMENT →
            (forest.prune [node]).Climbs this
  | .RemoveChild this removeThis =>
      forest.content this ≠ none ∧ (removeThis = 0 ∨ forest.content removeThis ≠ none ∧
        (removeThis ∈ forest.children this ∨ forest.parent removeThis ≠ this))
  | .Clear this => forest.content this ≠ none
  | .delete node => forest.content node ≠ none ∧ forest.Root node

def Legal : Forest → List NodeHeap.Event → Prop
  | _, [] => True
  | forest, event :: rest => forest.Allowed event ∧ Legal (forest.step event) rest

end Forest

end Nodes

end TinyXml

end GraduationServer
