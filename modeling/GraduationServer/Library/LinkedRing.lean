import Mathlib.Data.List.Chain
import Mathlib.Logic.Function.Basic

/-!
Doubly linked lists that are closed by an edge. A list that ends with null
pointers is one too, with null as the edge and the two ends that its owner
keeps as the links of it.
-/

namespace LinkedRing

structure Links (Ptr : Type) where
  next : Ptr → Ptr
  prev : Ptr → Ptr

variable {Ptr : Type}

namespace Links

def Joined (links : Links Ptr) (first second : Ptr) : Prop :=
  links.next first = second ∧ links.prev second = first

/-- `first` is followed by `second`. -/
def join [DecidableEq Ptr] (links : Links Ptr) (first second : Ptr) : Links Ptr :=
  { next := Function.update links.next first second
    prev := Function.update links.prev second first }

end Links

/-- The links lead from the edge through the items and back. -/
structure Ring (links : Links Ptr) (edge : Ptr) (items : List Ptr) : Prop where
  chain : (edge :: (items ++ [edge])).IsChain links.Joined
  distinct : (edge :: items).Nodup

theorem chain_frame {links other : Links Ptr} {items : List Ptr}
    (chain : items.IsChain links.Joined)
    (next : ∀ item ∈ items.dropLast, other.next item = links.next item)
    (prev : ∀ item ∈ items.tail, other.prev item = links.prev item) :
    items.IsChain other.Joined := by
  induction items with
  | nil => exact List.isChain_nil
  | cons first rest ih =>
      cases rest with
      | nil => exact List.isChain_singleton first
      | cons second rest =>
          obtain ⟨joined, later⟩ := List.isChain_cons_cons.mp chain
          refine List.isChain_cons_cons.mpr ⟨⟨?_, ?_⟩, ih later ?_ ?_⟩
          · rw [next first (by simp), joined.1]
          · rw [prev second (by simp), joined.2]
          · intro item member
            exact next item (by simp [member])
          · intro item member
            exact prev item (List.mem_of_mem_tail (by simpa using member))

theorem Ring.frame {links other : Links Ptr} {edge : Ptr} {items : List Ptr}
    (ring : Ring links edge items)
    (next : ∀ item ∈ edge :: items, other.next item = links.next item)
    (prev : ∀ item ∈ edge :: items, other.prev item = links.prev item) :
    Ring other edge items := by
  refine ⟨chain_frame ring.chain ?_ ?_, ring.distinct⟩
  · intro item member
    rw [← List.cons_append, List.dropLast_concat] at member
    exact next item member
  · intro item member
    apply prev item
    simpa [or_comm] using member

section

variable {links : Links Ptr} {edge : Ptr} {items : List Ptr}

theorem ring_nil : Ring links edge [] ↔ links.next edge = edge ∧ links.prev edge = edge := by
  constructor
  · intro ring
    exact List.isChain_cons_cons.mp ring.chain |>.1
  · intro joined
    exact ⟨List.isChain_cons_cons.mpr ⟨joined, List.isChain_singleton edge⟩, by simp⟩

theorem Ring.joined {before after : List Ptr} (ring : Ring links edge (before ++ after)) :
    links.Joined (before.getLast?.getD edge) (after.head?.getD edge) := by
  have chain := ring.chain
  rw [List.append_assoc, ← List.cons_append] at chain
  have between := (List.isChain_append.mp chain).2.2
  apply between
  · rw [List.getLast?_cons]
    rfl
  · cases after <;> rfl

theorem Ring.next_edge (ring : Ring links edge items) :
    links.next edge = items.head?.getD edge := by
  have whole : Ring links edge ([] ++ items) := ring
  exact whole.joined.1

theorem Ring.prev_edge (ring : Ring links edge items) :
    links.prev edge = items.getLast?.getD edge := by
  have whole : Ring links edge (items ++ []) := by rwa [List.append_nil]
  exact whole.joined.2

theorem Ring.next_item {before after : List Ptr} {item : Ptr}
    (ring : Ring links edge (before ++ item :: after)) :
    links.next item = after.head?.getD edge := by
  have whole : Ring links edge ((before ++ [item]) ++ after) := by simpa using ring
  have joined := whole.joined.1
  simpa using joined

theorem Ring.prev_item {before after : List Ptr} {item : Ptr}
    (ring : Ring links edge (before ++ item :: after)) :
    links.prev item = before.getLast?.getD edge :=
  ring.joined.2

theorem Ring.parts {before after : List Ptr} (ring : Ring links edge (before ++ after)) :
    (edge :: before).IsChain links.Joined ∧ (after ++ [edge]).IsChain links.Joined := by
  have chain := ring.chain
  rw [List.append_assoc, ← List.cons_append] at chain
  obtain ⟨front, back, -⟩ := List.isChain_append.mp chain
  exact ⟨front, back⟩

theorem last_cases (edge : Ptr) (items : List Ptr) :
    items.getLast?.getD edge = edge ∨ items.getLast?.getD edge ∈ items := by
  cases last : items.getLast? with
  | none => exact Or.inl rfl
  | some item => exact Or.inr (List.mem_of_getLast? last)

theorem head_cases (edge : Ptr) (items : List Ptr) :
    items.head?.getD edge = edge ∨ items.head?.getD edge ∈ items := by
  cases items with
  | nil => exact Or.inl rfl
  | cons item items => exact Or.inr (by simp)

theorem last_once {before after : List Ptr} (distinct : (edge :: (before ++ after)).Nodup) :
    before.getLast?.getD edge ∉ (edge :: before).dropLast ∧
      before.getLast?.getD edge ∉ after := by
  cases before using List.reverseRecOn with
  | nil =>
      simp only [List.nil_append, List.nodup_cons] at distinct
      exact ⟨by simp, by simpa using distinct.1⟩
  | append_singleton before item =>
      rw [← List.cons_append, List.dropLast_concat]
      simp only [List.getLast?_append, List.getLast?_singleton, Option.some_or, Option.getD_some]
      grind

theorem head_once {before after : List Ptr} (distinct : (edge :: (before ++ after)).Nodup) :
    after.head?.getD edge ∉ before ∧ after.head?.getD edge ∉ (after ++ [edge]).tail := by
  cases after with
  | nil => grind
  | cons item after => grind

end

section

variable [DecidableEq Ptr] {links : Links Ptr} {edge : Ptr}

theorem joined_join (links : Links Ptr) (first second : Ptr) :
    (links.join first second).Joined first second := by
  simp [Links.join, Links.Joined]

theorem splice {front back : List Ptr} {first second : Ptr}
    (frontChain : front.IsChain links.Joined) (backChain : back.IsChain links.Joined)
    (last : front.getLast? = some first) (head : back.head? = some second)
    (firstOnce : first ∉ front.dropLast ∧ first ∉ back.dropLast)
    (secondOnce : second ∉ front.tail ∧ second ∉ back.tail) :
    (front ++ back).IsChain (links.join first second).Joined := by
  have other (item : Ptr) (different : item ≠ first) :
      (links.join first second).next item = links.next item :=
    Function.update_of_ne different _ _
  have another (item : Ptr) (different : item ≠ second) :
      (links.join first second).prev item = links.prev item :=
    Function.update_of_ne different _ _
  apply List.IsChain.append
  · apply chain_frame frontChain
    · intro item member
      exact other item fun same => firstOnce.1 (same ▸ member)
    · intro item member
      exact another item fun same => secondOnce.1 (same ▸ member)
  · apply chain_frame backChain
    · intro item member
      exact other item fun same => firstOnce.2 (same ▸ member)
    · intro item member
      exact another item fun same => secondOnce.2 (same ▸ member)
  · intro item ends item' begins
    rw [last, Option.mem_some_iff] at ends
    rw [head, Option.mem_some_iff] at begins
    subst ends begins
    exact joined_join links _ _

theorem Ring.remove {before after : List Ptr} {item : Ptr}
    (ring : Ring links edge (before ++ item :: after)) :
    Ring (links.join (links.prev item) (links.next item)) edge (before ++ after) := by
  have less : (edge :: (before ++ after)).Nodup := ring.distinct.sublist (by simp)
  have front := ring.parts.1
  have whole : Ring links edge ((before ++ [item]) ++ after) := by simpa using ring
  have back := whole.parts.2
  rw [ring.prev_item, ring.next_item]
  constructor
  · rw [List.append_assoc, ← List.cons_append]
    apply splice front back
    · exact List.getLast?_cons
    · cases after <;> rfl
    · rw [List.dropLast_concat]
      exact last_once less
    · exact head_once less
  · exact less

theorem Ring.insert {before after : List Ptr} {item : Ptr}
    (ring : Ring links edge (before ++ after)) (fresh : item ∉ edge :: (before ++ after)) :
    Ring ((links.join (before.getLast?.getD edge) item).join item (after.head?.getD edge)) edge
      (before ++ item :: after) := by
  obtain ⟨front, back⟩ := ring.parts
  have last := last_once ring.distinct
  have head := head_once ring.distinct
  simp only [List.mem_cons, List.mem_append, not_or] at fresh
  obtain ⟨notEdge, notBefore, notAfter⟩ := fresh
  have notSecond : after.head?.getD edge ≠ item := by
    cases after with
    | nil => exact Ne.symm notEdge
    | cons second after => exact fun same => notAfter (by simp [← same])
  have begun : (edge :: before ++ [item]).IsChain
      (links.join (before.getLast?.getD edge) item).Joined := by
    apply splice front (List.isChain_singleton item) List.getLast?_cons rfl
    · exact ⟨last.1, by simp⟩
    · exact ⟨notBefore, by simp⟩
  have kept : (after ++ [edge]).IsChain
      (links.join (before.getLast?.getD edge) item).Joined := by
    apply chain_frame back
    · intro other member
      rw [List.dropLast_concat] at member
      apply Function.update_of_ne
      rintro rfl
      exact last.2 member
    · intro other member
      apply Function.update_of_ne
      rintro rfl
      have inside := List.mem_of_mem_tail member
      simp [notAfter, notEdge] at inside
  constructor
  · have same : edge :: (before ++ item :: after ++ [edge]) =
        (edge :: before ++ [item]) ++ (after ++ [edge]) := by simp
    rw [same]
    refine splice begun kept List.getLast?_concat ?_ ⟨?_, ?_⟩ ⟨?_, head.2⟩
    · cases after <;> rfl
    · rw [List.dropLast_concat]
      exact not_or.mpr ⟨notEdge, notBefore⟩ ∘ List.mem_cons.mp
    · rw [List.dropLast_concat]
      exact notAfter
    · simp [notSecond, head.1]
  · have distinct := ring.distinct
    grind

end

end LinkedRing
