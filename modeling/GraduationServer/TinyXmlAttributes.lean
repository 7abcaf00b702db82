import GraduationServer.Library.LinkedRing
import GraduationServer.Library.Runs
import GraduationServer.TinyXml
import Mathlib.Data.List.TakeWhile

/-!
The attributes of an element as objects that are linked to a ring, which the sentinel
of their set closes. The ring is a list of attributes with names of their own.
-/

namespace GraduationServer

namespace TinyXml

namespace Attributes

open LinkedRing

/-- The set of one element: the fields of the attributes by their addresses. -/
structure AttributeHeap where
  attrib : Nat → Option TiXmlAttribute
  created : Nat
  next : Nat → Nat
  prev : Nat → Nat

def sentinel : Nat := 1

def blank : TiXmlAttribute := { name := [], value := [] }

namespace AttributeHeap

def empty : AttributeHeap :=
  { attrib := fun node => if node = sentinel then some blank else none
    created := 2
    next := fun node => if node = sentinel then sentinel else 0
    prev := fun node => if node = sentinel then sentinel else 0 }

def deref (heap : AttributeHeap) (node : Nat) : Exec TiXmlAttribute :=
  match heap.attrib node with
  | some attrib => .ok attrib
  | none => .error (if node = 0 then .nullPointer else .freedObject)

def new (heap : AttributeHeap) (attrib : TiXmlAttribute) : AttributeHeap :=
  { attrib := Function.update heap.attrib heap.created attrib
    created := heap.created + 1
    next := Function.update heap.next heap.created 0
    prev := Function.update heap.prev heap.created 0 }

def delete (heap : AttributeHeap) (node : Nat) : Exec AttributeHeap := do
  let _ ← heap.deref node
  return { heap with attrib := Function.update heap.attrib node none }

def find (heap : AttributeHeap) (name : Str) : Nat → Nat → Exec Nat
  | 0, _ => .error .endlessLoop
  | fuel + 1, node =>
      if node = sentinel then .ok 0
      else do
        let attrib ← heap.deref node
        if Stream.cString attrib.name = name then return node
        else find heap name fuel (heap.next node)

def Find (fuel : Nat) (heap : AttributeHeap) (name : Str) : Exec Nat :=
  heap.find name fuel (heap.next sentinel)

def Add (heap : AttributeHeap) (addMe : Nat) : Exec AttributeHeap := do
  let _ ← heap.deref addMe
  let last := heap.prev sentinel
  let _ ← heap.deref last
  return { heap with
    next := Function.update (Function.update heap.next addMe sentinel) last addMe
    prev := Function.update (Function.update heap.prev addMe last) sentinel addMe }

def cut (heap : AttributeHeap) (node : Nat) : AttributeHeap :=
  let prev := heap.prev node
  let next := heap.next node
  { heap with
    next := Function.update (Function.update heap.next prev next) node 0
    prev := Function.update (Function.update heap.prev next prev) node 0 }

def remove (heap : AttributeHeap) (removeMe : Nat) : Nat → Nat → Exec AttributeHeap
  | 0, _ => .error .endlessLoop
  | fuel + 1, node =>
      if node = sentinel then .ok heap
      else do
        let _ ← heap.deref node
        if node = removeMe then
          let _ ← heap.deref (heap.prev node)
          let _ ← heap.deref (heap.next node)
          return heap.cut node
        else remove heap removeMe fuel (heap.next node)

def Remove (fuel : Nat) (heap : AttributeHeap) (removeMe : Nat) : Exec AttributeHeap :=
  heap.remove removeMe fuel (heap.next sentinel)

def FindOrCreate (fuel : Nat) (heap : AttributeHeap) (name : Str) : Exec (AttributeHeap × Nat) := do
  let attrib ← heap.Find fuel name
  if attrib = 0 then
    let attrib := heap.created
    let heap ← (heap.new blank).Add attrib
    let created ← heap.deref attrib
    return ({ heap with
      attrib := Function.update heap.attrib attrib (some { created with name }) }, attrib)
  else return (heap, attrib)

def First (heap : AttributeHeap) : Nat :=
  if heap.next sentinel = sentinel then 0 else heap.next sentinel

/-- The sentinel is known by its name and its value. -/
def Next (heap : AttributeHeap) (attrib : Nat) : Exec Nat := do
  let next ← heap.deref (heap.next attrib)
  return if next = blank then 0 else heap.next attrib

def visit (heap : AttributeHeap) : Nat → Nat → Exec (List TiXmlAttribute)
  | 0, _ => .error .endlessLoop
  | fuel + 1, attrib =>
      if attrib = 0 then .ok []
      else do
        let content ← heap.deref attrib
        return content :: (← visit heap fuel (← heap.Next attrib))

def Attribute (fuel : Nat) (heap : AttributeHeap) (name : Str) : Exec (Option Str) := do
  let node ← heap.Find fuel name
  if node = 0 then return none
  else return some (Stream.cString (← heap.deref node).value)

def parsed (fuel : Nat) (heap : AttributeHeap) (attrib : TiXmlAttribute) : Exec AttributeHeap := do
  let node := heap.created
  let heap := heap.new attrib
  if (← heap.Find fuel (Stream.cString attrib.name)) ≠ 0 then heap.delete node
  else heap.Add node

def SetAttribute (fuel : Nat) (heap : AttributeHeap) (cname cvalue : Str) :
    Exec AttributeHeap := do
  let (heap, attrib) ← heap.FindOrCreate fuel cname
  let content ← heap.deref attrib
  return { heap with
    attrib := Function.update heap.attrib attrib (some { content with value := cvalue }) }

def RemoveAttribute (fuel : Nat) (heap : AttributeHeap) (name : Str) : Exec AttributeHeap := do
  let node ← heap.Find fuel name
  if node = 0 then return heap
  else
    let heap ← heap.Remove fuel node
    heap.delete node

def clear (limit : Nat) : Nat → AttributeHeap → Exec AttributeHeap
  | 0, _ => .error .endlessLoop
  | fuel + 1, heap =>
      if heap.First = 0 then .ok heap
      else do
        let node := heap.First
        let heap ← heap.Remove limit node
        let heap ← heap.delete node
        clear limit fuel heap

inductive Event where
  | parsed (attrib : TiXmlAttribute)
  | SetAttribute (cname cvalue : Str)
  | RemoveAttribute (name : Str)
  | ClearThis

def step (fuel : Nat) (heap : AttributeHeap) : Event → Exec AttributeHeap
  | .parsed attrib => heap.parsed fuel attrib
  | .SetAttribute cname cvalue =>
      heap.SetAttribute fuel (Stream.cString cname) (Stream.cString cvalue)
  | .RemoveAttribute name => heap.RemoveAttribute fuel (Stream.cString name)
  | .ClearThis => clear fuel fuel heap

end AttributeHeap

/-! What the set is for: a list of attributes. -/

def called (name : Str) (attrib : TiXmlAttribute) : Bool := Stream.cString attrib.name = name

def assign (name value : Str) (attribs : List TiXmlAttribute) : List TiXmlAttribute :=
  if attribs.any (called name) then
    attribs.map fun attrib => if called name attrib then { attrib with value } else attrib
  else attribs ++ [{ name := name, value := value }]

def setStep (attribs : List TiXmlAttribute) : AttributeHeap.Event → List TiXmlAttribute
  | .parsed attrib =>
      if attribs.any (called (Stream.cString attrib.name)) then attribs else attribs ++ [attrib]
  | .SetAttribute cname cvalue => assign (Stream.cString cname) (Stream.cString cvalue) attribs
  | .RemoveAttribute name => attribs.filter fun attrib => !called (Stream.cString name) attrib
  | .ClearThis => []

def Distinct (attribs : List TiXmlAttribute) : Prop :=
  (attribs.map fun attrib => Stream.cString attrib.name).Nodup

/-- An attribute behind the first one that looks like the sentinel ends the loop. -/
def visited : List TiXmlAttribute → List TiXmlAttribute
  | [] => []
  | first :: rest => first :: rest.takeWhile fun attrib => attrib ≠ blank

/-! The ring. -/

abbrev Entry := Nat × TiXmlAttribute

def AttributeHeap.links (heap : AttributeHeap) : Links Nat :=
  { next := heap.next, prev := heap.prev }

structure Linked (heap : AttributeHeap) (entries : List Entry) : Prop where
  ring : Ring heap.links sentinel (entries.map Prod.fst)
  found : ∀ entry ∈ entries, heap.attrib entry.1 = some entry.2
  closed : heap.attrib sentinel = some blank
  null : heap.attrib 0 = none
  fresh : ∀ node, heap.created ≤ node → heap.attrib node = none

structure Holds (heap : AttributeHeap) (entries : List Entry) : Prop extends
    Linked heap entries where
  only : ∀ node, heap.attrib node ≠ none → node = sentinel ∨ node ∈ entries.map Prod.fst

section

variable {heap : AttributeHeap} {entries before after : List Entry} {entry : Entry} {name : Str}

theorem deref_ok {node : Nat} {attrib : TiXmlAttribute} (found : heap.attrib node = some attrib) :
    heap.deref node = .ok attrib := by
  rw [AttributeHeap.deref, found]

theorem Linked.not_null (linked : Linked heap entries) (member : entry ∈ entries) :
    entry.1 ≠ 0 := by
  intro null
  have found := linked.found entry member
  rw [null, linked.null] at found
  cases found

theorem Linked.not_sentinel (linked : Linked heap entries) (member : entry ∈ entries) :
    entry.1 ≠ sentinel := by
  intro same
  apply (List.nodup_cons.mp linked.ring.distinct).1
  rw [← same]
  exact List.mem_map_of_mem member

theorem Linked.next (linked : Linked heap (before ++ entry :: after)) :
    heap.next entry.1 = (after.map Prod.fst).head?.getD sentinel := by
  have ring := linked.ring
  rw [List.map_append, List.map_cons] at ring
  exact ring.next_item

theorem Linked.prev (linked : Linked heap (before ++ entry :: after)) :
    heap.prev entry.1 = (before.map Prod.fst).getLast?.getD sentinel := by
  have ring := linked.ring
  rw [List.map_append, List.map_cons] at ring
  exact ring.prev_item

def lookup (entries : List Entry) (name : Str) : Nat :=
  ((entries.find? fun entry => called name entry.2).map Prod.fst).getD 0

theorem find_linked (linked : Linked heap (before ++ after)) {fuel : Nat}
    (enough : after.length < fuel) :
    heap.find name fuel ((after.map Prod.fst).head?.getD sentinel) =
      .ok (lookup after name) := by
  induction after generalizing before fuel with
  | nil =>
      obtain ⟨fuel, rfl⟩ := Nat.exists_eq_succ_of_ne_zero (by omega : fuel ≠ 0)
      rfl
  | cons entry after ih =>
      rw [List.length_cons] at enough
      obtain ⟨fuel, rfl⟩ := Nat.exists_eq_succ_of_ne_zero (by omega : fuel ≠ 0)
      have member : entry ∈ before ++ entry :: after := by simp
      have used := deref_ok (linked.found entry member)
      have notSentinel := linked.not_sentinel member
      have next := linked.next
      rw [List.append_cons] at linked
      rw [List.map_cons, List.head?_cons, Option.getD_some, AttributeHeap.find,
        if_neg notSentinel, used]
      simp only [bind, Except.bind]
      by_cases same : Stream.cString entry.2.name = name
      · rw [if_pos same, lookup, List.find?_cons_of_pos (by simp [called, same])]
        rfl
      · rw [if_neg same, lookup, List.find?_cons_of_neg (by simp [called, same]), next]
        exact ih linked (by omega)

theorem Find_linked (linked : Linked heap entries) {fuel : Nat} (enough : entries.length < fuel) :
    heap.Find fuel name = .ok (lookup entries name) := by
  have first : heap.next sentinel = (entries.map Prod.fst).head?.getD sentinel :=
    linked.ring.next_edge
  have whole : Linked heap ([] ++ entries) := linked
  rw [AttributeHeap.Find, first]
  exact find_linked whole enough

theorem cut_ring (linked : Linked heap (before ++ entry :: after)) :
    Ring (heap.cut entry.1).links sentinel ((before ++ after).map Prod.fst) := by
  have ring := linked.ring
  rw [List.map_append, List.map_cons] at ring
  have once := ring.distinct
  have rest := ring.remove
  rw [← List.map_append] at rest
  apply rest.frame
  · intro item member
    apply Function.update_of_ne
    rintro rfl
    simp only [List.map_append] at member
    grind
  · intro item member
    apply Function.update_of_ne
    rintro rfl
    simp only [List.map_append] at member
    grind

theorem Linked.live (linked : Linked heap entries) {node : Nat}
    (own : node = sentinel ∨ node ∈ entries.map Prod.fst) :
    ∃ attrib, heap.deref node = .ok attrib := by
  rcases own with rfl | listed
  · exact ⟨blank, deref_ok linked.closed⟩
  · obtain ⟨other, member, rfl⟩ := List.mem_map.mp listed
    exact ⟨other.2, deref_ok (linked.found other member)⟩

theorem remove_linked {passed : List Entry}
    (linked : Linked heap (passed ++ (before ++ entry :: after))) {fuel : Nat}
    (enough : before.length + 1 < fuel) :
    heap.remove entry.1 fuel (((before ++ entry :: after).map Prod.fst).head?.getD sentinel) =
      .ok (heap.cut entry.1) := by
  induction before generalizing passed fuel with
  | nil =>
      obtain ⟨fuel, rfl⟩ := Nat.exists_eq_succ_of_ne_zero (by omega : fuel ≠ 0)
      rw [List.nil_append] at linked ⊢
      have member : entry ∈ passed ++ entry :: after := by simp
      have used := deref_ok (linked.found entry member)
      obtain ⟨_, usedPrev⟩ : ∃ attrib, heap.deref (heap.prev entry.1) = .ok attrib := by
        apply linked.live
        rw [linked.prev, List.map_append]
        exact (last_cases sentinel _).imp_right (List.mem_append_left _)
      obtain ⟨_, usedNext⟩ : ∃ attrib, heap.deref (heap.next entry.1) = .ok attrib := by
        apply linked.live
        rw [linked.next, List.map_append, List.map_cons]
        exact (head_cases sentinel _).imp_right fun listed =>
          List.mem_append_right _ (List.mem_cons_of_mem _ listed)
      rw [List.map_cons, List.head?_cons, Option.getD_some, AttributeHeap.remove,
        if_neg (linked.not_sentinel member), used]
      simp only [bind, Except.bind, if_true, usedPrev, usedNext]
      rfl
  | cons first before ih =>
      rw [List.length_cons] at enough
      obtain ⟨fuel, rfl⟩ := Nat.exists_eq_succ_of_ne_zero (by omega : fuel ≠ 0)
      have member : first ∈ passed ++ (first :: before ++ entry :: after) := by simp
      have used := deref_ok (linked.found first member)
      have notSentinel := linked.not_sentinel member
      have different : first.1 ≠ entry.1 := by
        have distinct := linked.ring.distinct
        simp only [List.map_append, List.map_cons] at distinct
        grind
      rw [List.cons_append] at linked ⊢
      have next := linked.next
      rw [List.append_cons] at linked
      rw [List.map_cons, List.head?_cons, Option.getD_some, AttributeHeap.remove,
        if_neg notSentinel, used]
      simp only [bind, Except.bind, if_neg different, next]
      exact ih linked (by omega)

theorem Remove_linked (linked : Linked heap (before ++ entry :: after)) {fuel : Nat}
    (enough : before.length + 1 < fuel) : heap.Remove fuel entry.1 = .ok (heap.cut entry.1) := by
  have first : heap.next sentinel =
      ((before ++ entry :: after).map Prod.fst).head?.getD sentinel := linked.ring.next_edge
  have whole : Linked heap ([] ++ (before ++ entry :: after)) := linked
  rw [AttributeHeap.Remove, first]
  exact remove_linked whole enough

theorem drop_holds (holds : Holds heap (before ++ entry :: after)) :
    ∃ next, (heap.cut entry.1).delete entry.1 = .ok next ∧ Holds next (before ++ after) := by
  have member : entry ∈ before ++ entry :: after := by simp
  have used : (heap.cut entry.1).deref entry.1 = .ok entry.2 :=
    deref_ok (holds.found entry member)
  have distinct := holds.ring.distinct
  simp only [List.map_append, List.map_cons] at distinct
  have apart (other : Entry) (listed : other ∈ before ++ after) : other.1 ≠ entry.1 := by
    intro same
    have inside := List.mem_map_of_mem (f := Prod.fst) listed
    rw [same, List.map_append] at inside
    grind
  refine ⟨{ heap.cut entry.1 with attrib := Function.update heap.attrib entry.1 none }, ?_, ?_⟩
  · rw [AttributeHeap.delete, used]
    rfl
  · constructor
    · constructor
      · exact cut_ring holds.toLinked
      · intro other listed
        refine (Function.update_of_ne (apart other listed) _ _).trans ?_
        apply holds.found other
        simp only [List.mem_append, List.mem_cons] at listed ⊢
        tauto
      · exact (Function.update_of_ne (holds.not_sentinel member).symm _ _).trans holds.closed
      · exact (Function.update_of_ne (holds.not_null member).symm _ _).trans holds.null
      · intro node late
        by_cases same : node = entry.1
        · rw [same]
          exact Function.update_self _ _ _
        · exact (Function.update_of_ne same _ _).trans (holds.fresh node late)
    · intro node lives
      have different : node ≠ entry.1 := by
        rintro rfl
        exact lives (Function.update_self _ _ _)
      have lived : heap.attrib node ≠ none := by
        intro dead
        exact lives ((Function.update_of_ne different _ _).trans dead)
      have own := holds.only node lived
      simp only [List.map_append, List.map_cons, List.mem_append, List.mem_cons] at own ⊢
      tauto

theorem Linked.created_late (linked : Linked heap entries) : sentinel < heap.created := by
  by_contra early
  have dead := linked.fresh sentinel (by omega)
  rw [linked.closed] at dead
  cases dead

theorem Linked.created_apart (linked : Linked heap entries) (member : entry ∈ entries) :
    entry.1 ≠ heap.created := by
  intro same
  have dead := linked.fresh entry.1 (by omega)
  rw [linked.found entry member] at dead
  cases dead

theorem Linked.ring_apart (linked : Linked heap entries) {node : Nat}
    (member : node ∈ sentinel :: entries.map Prod.fst) : node ≠ heap.created := by
  rcases List.mem_cons.mp member with rfl | listed
  · exact Nat.ne_of_lt linked.created_late
  · obtain ⟨entry, inside, rfl⟩ := List.mem_map.mp listed
    exact linked.created_apart inside

theorem new_linked (linked : Linked heap entries) (attrib : TiXmlAttribute) :
    Linked (heap.new attrib) entries := by
  have late := linked.created_late
  have early : 0 < heap.created := Nat.lt_of_lt_of_le Nat.zero_lt_one (Nat.le_of_lt late)
  constructor
  · apply linked.ring.frame
    · exact fun node member => Function.update_of_ne (linked.ring_apart member) _ _
    · exact fun node member => Function.update_of_ne (linked.ring_apart member) _ _
  · intro other member
    exact (Function.update_of_ne (linked.created_apart member) _ _).trans
      (linked.found other member)
  · exact (Function.update_of_ne (Nat.ne_of_lt late) _ _).trans linked.closed
  · exact (Function.update_of_ne (Nat.ne_of_lt early) _ _).trans linked.null
  · intro node behind
    have behind : heap.created + 1 ≤ node := behind
    exact (Function.update_of_ne (by omega) _ _).trans (linked.fresh node (by omega))

theorem append_holds (holds : Holds heap entries) (attrib : TiXmlAttribute) :
    ∃ next, (heap.new attrib).Add heap.created = .ok next ∧
      Holds next (entries ++ [(heap.created, attrib)]) := by
  have made := new_linked holds.toLinked attrib
  have here : (heap.new attrib).attrib heap.created = some attrib := Function.update_self _ _ _
  have last : (heap.new attrib).prev sentinel = (entries.map Prod.fst).getLast?.getD sentinel :=
    made.ring.prev_edge
  obtain ⟨_, usedLast⟩ := made.live (last ▸ last_cases sentinel _)
  have notMember : heap.created ∉ sentinel :: entries.map Prod.fst :=
    fun member => holds.ring_apart member rfl
  have notLast : (heap.new attrib).prev sentinel ≠ heap.created := by
    apply holds.ring_apart
    rw [last]
    exact List.mem_cons.mpr (last_cases sentinel _)
  refine ⟨{ heap.new attrib with
    next := Function.update (Function.update (heap.new attrib).next heap.created sentinel)
      ((heap.new attrib).prev sentinel) heap.created
    prev := Function.update (Function.update (heap.new attrib).prev heap.created
      ((heap.new attrib).prev sentinel)) sentinel heap.created }, ?_, ?_⟩
  · rw [AttributeHeap.Add, deref_ok here]
    simp only [bind, Except.bind, usedLast]
    rfl
  · constructor
    · constructor
      · have ring := made.ring
        rw [← List.append_nil (entries.map Prod.fst)] at ring
        have inserted := ring.insert (by simpa using notMember :
          heap.created ∉ sentinel :: (entries.map Prod.fst ++ []))
        rw [← last] at inserted
        simp only [Links.join, List.head?_nil, Option.getD_none] at inserted
        rw [Function.update_comm notLast] at inserted
        simpa [AttributeHeap.links] using inserted
      · intro other member
        rcases List.mem_append.mp member with old | new
        · exact made.found other old
        · rw [List.mem_singleton.mp new]
          exact here
      · exact made.closed
      · exact made.null
      · exact made.fresh
    · intro node lives
      rw [List.map_append, List.mem_append]
      by_cases same : node = heap.created
      · simp [same]
      · have lived : heap.attrib node ≠ none := by
          intro dead
          exact lives ((Function.update_of_ne same _ _).trans dead)
        exact (holds.only node lived).imp_right Or.inl

theorem write_holds (holds : Holds heap (before ++ entry :: after)) (attrib : TiXmlAttribute) :
    Holds { heap with attrib := Function.update heap.attrib entry.1 (some attrib) }
      (before ++ (entry.1, attrib) :: after) := by
  have member : entry ∈ before ++ entry :: after := by simp
  have pointers : (before ++ (entry.1, attrib) :: after).map Prod.fst =
      (before ++ entry :: after).map Prod.fst := by simp
  have distinct := holds.ring.distinct
  simp only [List.map_append, List.map_cons] at distinct
  constructor
  · constructor
    · rw [pointers]
      exact holds.ring
    · intro other listed
      rcases List.mem_append.mp listed with old | listed
      · have apart : other.1 ≠ entry.1 := by
          have inside := List.mem_map_of_mem (f := Prod.fst) old
          grind
        exact (Function.update_of_ne apart _ _).trans (holds.found other (by simp [old]))
      · rcases List.mem_cons.mp listed with rfl | old
        · exact Function.update_self _ _ _
        · have apart : other.1 ≠ entry.1 := by
            have inside := List.mem_map_of_mem (f := Prod.fst) old
            grind
          exact (Function.update_of_ne apart _ _).trans (holds.found other (by simp [old]))
    · exact (Function.update_of_ne (holds.not_sentinel member).symm _ _).trans holds.closed
    · exact (Function.update_of_ne (holds.not_null member).symm _ _).trans holds.null
    · intro node late
      have different : node ≠ entry.1 := by
        rintro rfl
        have dead := holds.fresh entry.1 late
        rw [holds.found entry member] at dead
        cases dead
      exact (Function.update_of_ne different _ _).trans (holds.fresh node late)
  · intro node lives
    rw [pointers]
    by_cases same : node = entry.1
    · right
      rw [same]
      exact List.mem_map_of_mem member
    · apply holds.only node
      intro dead
      exact lives ((Function.update_of_ne same _ _).trans dead)

theorem lookup_cases (entries : List Entry) (name : Str) :
    (lookup entries name = 0 ∧ (entries.map Prod.snd).any (called name) = false) ∨
      ∃ before entry after, entries = before ++ entry :: after ∧ called name entry.2 = true ∧
        lookup entries name = entry.1 := by
  cases found : entries.find? fun entry => called name entry.2 with
  | none =>
      left
      refine ⟨by rw [lookup, found]; rfl, ?_⟩
      rw [List.find?_eq_none] at found
      simpa using found
  | some entry =>
      right
      have looked : lookup entries name = entry.1 := by
        rw [lookup, found]
        rfl
      obtain ⟨named, before, after, split, -⟩ := List.find?_eq_some_iff_append.mp found
      exact ⟨before, entry, after, split, named, looked⟩

end

/-! The operations on the list. -/

section

variable {before after attribs : List TiXmlAttribute} {attrib : TiXmlAttribute} {name value : Str}

theorem Distinct.others (distinct : Distinct (before ++ attrib :: after))
    (named : called name attrib = true) {other : TiXmlAttribute}
    (member : other ∈ before ++ after) : called name other = false := by
  rw [called, decide_eq_true_eq] at named
  rw [called, decide_eq_false_iff_not]
  intro same
  have listed := List.mem_map_of_mem (f := fun attrib => Stream.cString attrib.name) member
  rw [Distinct, List.map_append, List.map_cons] at distinct
  rw [List.map_append] at listed
  grind

theorem assign_split (distinct : Distinct (before ++ attrib :: after))
    (named : called name attrib = true) :
    assign name value (before ++ attrib :: after) = before ++ { attrib with value } :: after := by
  have kept (part : List TiXmlAttribute) (inside : ∀ other ∈ part, other ∈ before ++ after) :
      (part.map fun attrib => if called name attrib then { attrib with value } else attrib) =
        part := by
    refine (List.map_congr_left ?_).trans (List.map_id part)
    intro other member
    simp [distinct.others named (inside other member)]
  have found : (before ++ attrib :: after).any (called name) = true := by simp [named]
  rw [assign, if_pos found, List.map_append, List.map_cons, if_pos named,
    kept before fun other member => List.mem_append_left _ member,
    kept after fun other member => List.mem_append_right _ member]

theorem filter_split (distinct : Distinct (before ++ attrib :: after))
    (named : called name attrib = true) :
    ((before ++ attrib :: after).filter fun attrib => !called name attrib) = before ++ after := by
  have kept (part : List TiXmlAttribute) (inside : ∀ other ∈ part, other ∈ before ++ after) :
      (part.filter fun attrib => !called name attrib) = part := by
    rw [List.filter_eq_self]
    intro other member
    simp [distinct.others named (inside other member)]
  rw [List.filter_append, List.filter_cons_of_neg (by simp [named]),
    kept before fun other member => List.mem_append_left _ member,
    kept after fun other member => List.mem_append_right _ member]

theorem append_distinct (distinct : Distinct attribs)
    (absent : attribs.any (called (Stream.cString attrib.name)) = false) :
    Distinct (attribs ++ [attrib]) := by
  rw [Distinct, List.map_append, List.map_cons, List.map_nil, List.nodup_append]
  refine ⟨distinct, by simp, ?_⟩
  intro known listed other single
  obtain ⟨owner, member, rfl⟩ := List.mem_map.mp listed
  rw [List.mem_singleton.mp single]
  have different := List.any_eq_false.mp absent owner member
  simpa [called] using different

theorem assign_distinct (distinct : Distinct attribs) (terminated : Stream.cString name = name) :
    Distinct (assign name value attribs) := by
  rw [assign]
  split_ifs with found
  · have names : (attribs.map fun attrib =>
        if called name attrib then { attrib with value } else attrib).map
          (fun attrib => Stream.cString attrib.name) =
        attribs.map fun attrib => Stream.cString attrib.name := by
      rw [List.map_map]
      apply List.map_congr_left
      intro attrib _
      dsimp only [Function.comp_apply]
      split_ifs <;> rfl
    rw [Distinct, names]
    exact distinct
  · apply append_distinct distinct
    rw [terminated]
    simpa using found

theorem setStep_distinct (distinct : Distinct attribs) (event : AttributeHeap.Event) :
    Distinct (setStep attribs event) := by
  cases event with
  | parsed attrib =>
      rw [setStep]
      split_ifs with found
      · exact distinct
      · exact append_distinct distinct (by simpa using found)
  | SetAttribute cname cvalue =>
      apply assign_distinct distinct
      exact List.takeWhile_idem
  | RemoveAttribute name =>
      exact distinct.sublist (List.Sublist.map _ List.filter_sublist)
  | ClearThis => exact List.nodup_nil

end

/-! The operations on the objects. -/

section

variable {heap : AttributeHeap} {entries : List Entry} {name value : Str} {fuel : Nat}

def Yields (result : Exec AttributeHeap) (attribs : List TiXmlAttribute) : Prop :=
  ∃ next entries, result = .ok next ∧ Holds next entries ∧ entries.map Prod.snd = attribs

theorem SetAttribute_yields (holds : Holds heap entries)
    (distinct : Distinct (entries.map Prod.snd)) (enough : entries.length < fuel) :
    Yields (heap.SetAttribute fuel name value) (assign name value (entries.map Prod.snd)) := by
  have looked : heap.Find fuel name = .ok (lookup entries name) :=
    Find_linked holds.toLinked enough
  rcases lookup_cases entries name with ⟨null, absent⟩ | ⟨before, entry, after, rfl, named, found⟩
  · obtain ⟨next, added, appended⟩ := append_holds holds blank
    have written := write_holds appended { blank with name }
    have valued := write_holds written { blank with name, value }
    have made := deref_ok (appended.found (heap.created, blank) (by simp))
    have renamed := deref_ok (written.found (heap.created, { blank with name }) (by simp))
    refine ⟨_, _, ?_, valued, ?_⟩
    · rw [AttributeHeap.SetAttribute, AttributeHeap.FindOrCreate, looked, null]
      simp only [bind, Except.bind, if_true, added, made, pure, Except.pure]
      dsimp only at renamed ⊢
      rw [renamed]
    · rw [assign, absent]
      simp
  · have member : entry ∈ before ++ entry :: after := by simp
    have valued := write_holds holds { entry.2 with value }
    refine ⟨_, _, ?_, valued, ?_⟩
    · rw [AttributeHeap.SetAttribute, AttributeHeap.FindOrCreate, looked, found]
      simp only [bind, Except.bind, if_neg (holds.not_null member), pure, Except.pure,
        deref_ok (holds.found entry member)]
    · rw [List.map_append, List.map_cons] at distinct ⊢
      rw [List.map_append, List.map_cons, assign_split distinct named]

theorem parsed_yields (holds : Holds heap entries) (attrib : TiXmlAttribute)
    (enough : entries.length < fuel) :
    Yields (heap.parsed fuel attrib) (setStep (entries.map Prod.snd) (.parsed attrib)) := by
  have made := new_linked holds.toLinked attrib
  have looked : (heap.new attrib).Find fuel (Stream.cString attrib.name) =
      .ok (lookup entries (Stream.cString attrib.name)) := Find_linked made enough
  rcases lookup_cases entries (Stream.cString attrib.name) with
    ⟨null, absent⟩ | ⟨before, entry, after, split, named, found⟩
  · obtain ⟨next, added, appended⟩ := append_holds holds attrib
    refine ⟨next, _, ?_, appended, ?_⟩
    · rw [AttributeHeap.parsed]
      simp only [bind, Except.bind, looked, null, ne_eq, not_true_eq_false, if_false]
      exact added
    · rw [setStep, absent]
      simp
  · have member : entry ∈ entries := by simp [split]
    have notNull := holds.not_null member
    have known : (entries.map Prod.snd).any (called (Stream.cString attrib.name)) = true := by
      simp [split, named]
    have here : (heap.new attrib).deref heap.created = .ok attrib :=
      deref_ok (Function.update_self _ _ _)
    -- the attribute is gone again, and only its address is used up
    refine ⟨{ heap.new attrib with
      attrib := Function.update (heap.new attrib).attrib heap.created none }, entries, ?_, ?_, ?_⟩
    · rw [AttributeHeap.parsed]
      simp only [bind, Except.bind, looked, found, ne_eq, notNull, not_false_eq_true, if_true,
        AttributeHeap.delete, here]
      rfl
    · have same : Function.update (heap.new attrib).attrib heap.created none = heap.attrib := by
        have dead := holds.fresh heap.created (Nat.le_refl _)
        rw [AttributeHeap.new, Function.update_idem, ← dead, Function.update_eq_self]
      rw [same]
      refine ⟨⟨made.ring, holds.found, holds.closed, holds.null, ?_⟩, holds.only⟩
      exact fun node late => holds.fresh node (Nat.le_of_succ_le late)
    · rw [setStep, if_pos known]

theorem RemoveAttribute_yields (holds : Holds heap entries)
    (distinct : Distinct (entries.map Prod.snd)) (enough : entries.length + 1 < fuel) :
    Yields (heap.RemoveAttribute fuel name)
      ((entries.map Prod.snd).filter fun attrib => !called name attrib) := by
  have looked : heap.Find fuel name = .ok (lookup entries name) :=
    Find_linked holds.toLinked (by omega : entries.length < fuel)
  rcases lookup_cases entries name with ⟨null, absent⟩ | ⟨before, entry, after, rfl, named, found⟩
  · refine ⟨heap, entries, ?_, holds, ?_⟩
    · rw [AttributeHeap.RemoveAttribute, looked, null]
      rfl
    · rw [List.any_eq_false] at absent
      exact (List.filter_eq_self.mpr fun attrib member => by simp [absent attrib member]).symm
  · have member : entry ∈ before ++ entry :: after := by simp
    rw [List.length_append, List.length_cons] at enough
    have removed := Remove_linked holds.toLinked (by omega : before.length + 1 < fuel)
    obtain ⟨next, dropped, rest⟩ := drop_holds holds
    refine ⟨next, _, ?_, rest, ?_⟩
    · rw [AttributeHeap.RemoveAttribute, looked, found]
      simp only [bind, Except.bind, if_neg (holds.not_null member), removed]
      exact dropped
    · rw [List.map_append, List.map_cons] at distinct
      rw [List.map_append, List.map_append, List.map_cons, filter_split distinct named]

theorem First_holds (holds : Holds heap entries) :
    heap.First = (entries.map Prod.fst).head?.getD 0 := by
  have first : heap.next sentinel = (entries.map Prod.fst).head?.getD sentinel :=
    holds.ring.next_edge
  rw [AttributeHeap.First, first]
  cases entries with
  | nil => rfl
  | cons entry entries => exact if_neg (holds.not_sentinel (by simp : entry ∈ entry :: entries))

theorem clear_yields (holds : Holds heap entries) {limit : Nat} (enough : entries.length < fuel)
    (bounded : 1 < limit) : Yields (heap.clear limit fuel) [] := by
  induction entries generalizing heap fuel with
  | nil =>
      obtain ⟨fuel, rfl⟩ := Nat.exists_eq_succ_of_ne_zero (by omega : fuel ≠ 0)
      exact ⟨heap, [], if_pos (First_holds holds), holds, rfl⟩
  | cons entry entries ih =>
      rw [List.length_cons] at enough
      obtain ⟨fuel, rfl⟩ := Nat.exists_eq_succ_of_ne_zero (by omega : fuel ≠ 0)
      have first : heap.First = entry.1 := First_holds holds
      have notNull := holds.not_null (by simp : entry ∈ entry :: entries)
      have whole : Holds heap ([] ++ entry :: entries) := holds
      have removed := Remove_linked whole.toLinked bounded
      obtain ⟨next, dropped, rest⟩ := drop_holds whole
      have shorter : entries.length < fuel := by omega
      obtain ⟨last, kept, cleared, emptied, same⟩ := ih rest shorter
      refine ⟨last, kept, ?_, emptied, same⟩
      rw [AttributeHeap.clear, first, if_neg notNull]
      simp only [bind, Except.bind, removed, dropped]
      exact cleared

theorem step_yields (holds : Holds heap entries) (distinct : Distinct (entries.map Prod.snd))
    (enough : entries.length + 1 < fuel) (event : AttributeHeap.Event) :
    Yields (heap.step fuel event) (setStep (entries.map Prod.snd) event) := by
  have short : entries.length < fuel := by omega
  cases event with
  | parsed attrib => exact parsed_yields holds attrib short
  | SetAttribute cname cvalue => exact SetAttribute_yields holds distinct short
  | RemoveAttribute name => exact RemoveAttribute_yields holds distinct enough
  | ClearThis => exact clear_yields holds short (by omega)

theorem setStep_length (attribs : List TiXmlAttribute) (event : AttributeHeap.Event) :
    (setStep attribs event).length ≤ attribs.length + 1 := by
  cases event with
  | parsed attrib =>
      rw [setStep]
      split_ifs <;> simp
  | SetAttribute cname cvalue =>
      rw [setStep, assign]
      split_ifs <;> simp
  | RemoveAttribute name =>
      exact Nat.le_succ_of_le (List.length_filter_le _ _)
  | ClearThis => exact Nat.zero_le _

theorem foldl_length (attribs : List TiXmlAttribute) (events : List AttributeHeap.Event) :
    (events.foldl setStep attribs).length ≤ attribs.length + events.length := by
  induction events generalizing attribs with
  | nil => exact Nat.le_refl _
  | cons event events ih =>
      have longer := setStep_length attribs event
      have rest := ih (setStep attribs event)
      rw [List.foldl_cons, List.length_cons]
      omega

/-! Runs and what is read. -/

theorem empty_holds : Holds AttributeHeap.empty [] := by
  constructor
  · constructor
    · exact ring_nil.mpr ⟨rfl, rfl⟩
    · exact fun _ member => absurd member List.not_mem_nil
    · rfl
    · rfl
    · intro node late
      have behind : 2 ≤ node := late
      exact if_neg (by rw [sentinel]; omega)
  · intro node lives
    left
    by_contra different
    exact lives (if_neg different)

theorem run_yields {events : List AttributeHeap.Event} (holds : Holds heap entries)
    (distinct : Distinct (entries.map Prod.snd))
    (enough : entries.length + events.length + 1 < fuel) :
    Distinct (events.foldl setStep (entries.map Prod.snd)) ∧
      Yields (Runs.run (AttributeHeap.step fuel) heap events)
        (events.foldl setStep (entries.map Prod.snd)) := by
  induction events generalizing heap entries with
  | nil => exact ⟨distinct, heap, entries, rfl, holds, rfl⟩
  | cons event events ih =>
      rw [List.length_cons] at enough
      obtain ⟨next, kept, taken, holding, same⟩ :=
        step_yields holds distinct (by omega : entries.length + 1 < fuel) event
      have longer := setStep_length (entries.map Prod.snd) event
      rw [← same, List.length_map, List.length_map] at longer
      have separate : Distinct (kept.map Prod.snd) := same ▸ setStep_distinct distinct event
      have later := ih holding separate (by omega : kept.length + events.length + 1 < fuel)
      rw [same] at later
      rw [Runs.run_cons, taken]
      exact later

theorem Attribute_holds (holds : Holds heap entries) (enough : entries.length < fuel) :
    heap.Attribute fuel name = .ok (((entries.map Prod.snd).find? (called name)).map
      fun attrib => Stream.cString attrib.value) := by
  have looked : heap.Find fuel name = .ok (lookup entries name) :=
    Find_linked holds.toLinked enough
  rw [AttributeHeap.Attribute, looked, List.find?_map]
  cases found : entries.find? fun entry => called name entry.2 with
  | none =>
      have null : lookup entries name = 0 := by
        rw [lookup, found]
        rfl
      have absent : entries.find? (called name ∘ Prod.snd) = none := found
      simp only [bind, Except.bind, null, if_true, absent]
      rfl
  | some entry =>
      have pointer : lookup entries name = entry.1 := by
        rw [lookup, found]
        rfl
      have member := List.mem_of_find?_eq_some found
      have present : entries.find? (called name ∘ Prod.snd) = some entry := found
      simp only [bind, Except.bind, pointer, if_neg (holds.not_null member),
        deref_ok (holds.found entry member), present]
      rfl

theorem Next_holds {before after : List Entry} {entry : Entry}
    (holds : Holds heap (before ++ entry :: after)) :
    heap.Next entry.1 = .ok (((after.head?.filter fun next => next.2 ≠ blank).map
      Prod.fst).getD 0) := by
  have next := holds.next
  cases after with
  | nil =>
      rw [List.map_nil, List.head?_nil, Option.getD_none] at next
      rw [AttributeHeap.Next, next, deref_ok holds.closed]
      rfl
  | cons second after =>
      rw [List.map_cons, List.head?_cons, Option.getD_some] at next
      have member : second ∈ before ++ entry :: second :: after := by simp
      rw [AttributeHeap.Next, next, deref_ok (holds.found second member)]
      simp only [bind, Except.bind, List.head?_cons]
      by_cases plain : second.2 = blank
      · rw [if_pos plain, Option.filter_some_neg (by simp [plain])]
        rfl
      · rw [if_neg plain, Option.filter_some_pos (by simp [plain])]
        rfl

theorem visit_holds {before after : List Entry} {entry : Entry}
    (holds : Holds heap (before ++ entry :: after)) (enough : after.length + 1 < fuel) :
    heap.visit fuel entry.1 = .ok (visited ((entry :: after).map Prod.snd)) := by
  have ended (fuel : Nat) (more : 0 < fuel) : heap.visit fuel 0 = .ok [] := by
    obtain ⟨fuel, rfl⟩ := Nat.exists_eq_succ_of_ne_zero (by omega : fuel ≠ 0)
    rfl
  induction after generalizing before entry fuel with
  | nil =>
      rw [List.length_nil] at enough
      obtain ⟨fuel, rfl⟩ := Nat.exists_eq_succ_of_ne_zero (by omega : fuel ≠ 0)
      have member : entry ∈ before ++ [entry] := by simp
      rw [AttributeHeap.visit, if_neg (holds.not_null member),
        deref_ok (holds.found entry member)]
      simp only [bind, Except.bind, Next_holds holds, List.head?_nil, Option.filter_none,
        Option.map_none, Option.getD_none, ended fuel (by omega)]
      rfl
  | cons second after ih =>
      rw [List.length_cons] at enough
      obtain ⟨fuel, rfl⟩ := Nat.exists_eq_succ_of_ne_zero (by omega : fuel ≠ 0)
      have member : entry ∈ before ++ entry :: second :: after := by simp
      rw [AttributeHeap.visit, if_neg (holds.not_null member),
        deref_ok (holds.found entry member)]
      simp only [bind, Except.bind, Next_holds holds, List.head?_cons]
      by_cases plain : second.2 = blank
      · rw [Option.filter_some_neg (by simp [plain])]
        simp [ended fuel (by omega), visited, plain, pure, Except.pure]
      · rw [List.append_cons] at holds
        have rest := ih holds (by omega : after.length + 1 < fuel)
        rw [Option.filter_some_pos (by simp [plain])]
        simp [rest, visited, plain, pure, Except.pure]

/-- In every run, the attributes that live are those of the list, each once and with a
name of its own. Each is found by its name, and the loop over them comes by those in
front of one that looks like the sentinel. -/
theorem attributes_run (events : List AttributeHeap.Event) :
    Distinct (events.foldl setStep []) ∧
      ∃ enough, ∀ fuel, enough ≤ fuel →
        ∃ heap nodes, Runs.run (AttributeHeap.step fuel) AttributeHeap.empty events = .ok heap ∧
          (sentinel :: nodes).Nodup ∧
          (∀ node, heap.attrib node ≠ none ↔ node ∈ sentinel :: nodes) ∧
          nodes.map heap.attrib = (events.foldl setStep []).map some ∧
          (∀ name, heap.Attribute fuel name =
            .ok (((events.foldl setStep []).find? (called name)).map
              fun attrib => Stream.cString attrib.value)) ∧
          heap.visit fuel heap.First = .ok (visited (events.foldl setStep [])) := by
  have empty : Distinct (([] : List Entry).map Prod.snd) := List.nodup_nil
  have distinct := (run_yields empty_holds empty
    (Nat.lt_succ_self _ : [].length + events.length + 1 < [].length + events.length + 2)).1
  have bound : (events.foldl setStep []).length ≤ events.length := by
    simpa using foldl_length [] events
  refine ⟨distinct, events.length + 2, ?_⟩
  intro fuel enough
  have more : ([] : List Entry).length + events.length + 1 < fuel := by
    rw [List.length_nil]
    omega
  obtain ⟨-, heap, entries, ends, holds, same⟩ := run_yields empty_holds empty more
  rw [List.map_nil] at same
  have short : entries.length ≤ events.length := by
    rw [← same, List.length_map] at bound
    exact bound
  refine ⟨heap, entries.map Prod.fst, ends, holds.ring.distinct, ?_, ?_, ?_, ?_⟩
  · intro node
    constructor
    · intro lives
      exact List.mem_cons.mpr (holds.only node lives)
    · intro member
      rcases List.mem_cons.mp member with rfl | listed
      · simp [holds.closed]
      · obtain ⟨entry, inside, rfl⟩ := List.mem_map.mp listed
        simp [holds.found entry inside]
  · rw [← same, List.map_map, List.map_map]
    exact List.map_congr_left holds.found
  · intro name
    rw [← same]
    exact Attribute_holds holds (by omega)
  · rw [First_holds holds, ← same]
    cases entries with
    | nil =>
        obtain ⟨fuel, rfl⟩ := Nat.exists_eq_succ_of_ne_zero (by omega : fuel ≠ 0)
        rfl
    | cons entry entries =>
        rw [List.length_cons] at short
        have whole : Holds heap ([] ++ entry :: entries) := holds
        exact visit_holds whole (by omega)

end

end Attributes

end TinyXml

end GraduationServer
