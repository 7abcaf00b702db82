import GraduationServer.Startup
import GraduationServer.TinyXmlChildren

/-!
The tree of a document as linked objects. The parser makes a node, reads what is in
it, and then links it behind the children of its parent; what the servers look up in
the objects is what they find in the lists of the tree.
-/

namespace GraduationServer

namespace TinyXml

namespace Nodes

def contentOf : TiXmlNode → Content
  | .TiXmlElement value _ _ => { type := .TINYXML_ELEMENT, value }
  | .TiXmlText value _ => { type := .TINYXML_TEXT, value }
  | .TiXmlComment value => { type := .TINYXML_COMMENT, value }
  | .TiXmlUnknown value => { type := .TINYXML_UNKNOWN, value }
  | .TiXmlDeclaration _ _ _ => { type := .TINYXML_DECLARATION, value := [] }

/-! What the parser does to the objects. -/

mutual

def size : TiXmlNode → Nat
  | .TiXmlElement _ _ children => sizeAll children + 1
  | .TiXmlText _ _ | .TiXmlComment _ | .TiXmlUnknown _ | .TiXmlDeclaration _ _ _ => 1

def sizeAll : List TiXmlNode → Nat
  | [] => 0
  | node :: rest => size node + sizeAll rest

end

/-- A text of an element is made without `Identify`. -/
def identified (this : NodePtr) (node : TiXmlNode) : NodePtr := if plainText node then 0 else this

mutual

def planting (created parent : NodePtr) : TiXmlNode → List NodeHeap.Event
  | .TiXmlElement value _ children =>
      .new { type := .TINYXML_ELEMENT, value } parent ::
        plantingAll created (created + 1) children
  | .TiXmlText value _ => [.new { type := .TINYXML_TEXT, value } parent]
  | .TiXmlComment value => [.new { type := .TINYXML_COMMENT, value } parent]
  | .TiXmlUnknown value => [.new { type := .TINYXML_UNKNOWN, value } parent]
  | .TiXmlDeclaration _ _ _ => [.new { type := .TINYXML_DECLARATION, value := [] } parent]

def plantingAll (this created : NodePtr) : List TiXmlNode → List NodeHeap.Event
  | [] => []
  | node :: rest =>
      planting created (identified this node) node ++
        .LinkEndChild this created :: plantingAll this (created + size node) rest

end

def plantingDocument (value : Str) (nodes : List TiXmlNode) : List NodeHeap.Event :=
  .new { type := .TINYXML_DOCUMENT, value } 0 :: plantingAll 1 2 nodes

mutual

/-- The node has the content of the tree, and its children are those of the tree. -/
def Shows (forest : Forest) (node : NodePtr) : TiXmlNode → Prop
  | .TiXmlElement value _ children =>
      forest.content node = some { type := .TINYXML_ELEMENT, value } ∧
        ShowsAll forest (forest.children node) children
  | .TiXmlText value _ =>
      forest.content node = some { type := .TINYXML_TEXT, value } ∧ forest.children node = []
  | .TiXmlComment value =>
      forest.content node = some { type := .TINYXML_COMMENT, value } ∧ forest.children node = []
  | .TiXmlUnknown value =>
      forest.content node = some { type := .TINYXML_UNKNOWN, value } ∧ forest.children node = []
  | .TiXmlDeclaration _ _ _ =>
      forest.content node = some { type := .TINYXML_DECLARATION, value := [] } ∧
        forest.children node = []

def ShowsAll (forest : Forest) : List NodePtr → List TiXmlNode → Prop
  | [], [] => True
  | node :: nodes, tree :: trees => Shows forest node tree ∧ ShowsAll forest nodes trees
  | _, _ => False

end

theorem shows_content {forest : Forest} {node : NodePtr} {tree : TiXmlNode}
    (shown : Shows forest node tree) : forest.content node = some (contentOf tree) := by
  cases tree <;> exact shown.1

section

variable {forest after : Forest} {low : NodePtr}

mutual

theorem shows_frame (sorted : ∀ node child, child ∈ forest.children node → node < child)
    (bounded : ∀ node child, child ∈ forest.children node → child < forest.created)
    (same : ∀ node, low ≤ node → node < forest.created →
      after.content node = forest.content node ∧ after.children node = forest.children node) :
    ∀ (tree : TiXmlNode) (node : NodePtr), low ≤ node → node < forest.created →
      Shows forest node tree → Shows after node tree
  | .TiXmlElement value _ children, node, above, inside, shown => by
      rw [Shows, (same node above inside).1, (same node above inside).2]
      refine ⟨shown.1, ?_⟩
      apply showsAll_frame sorted bounded same children _ _ shown.2
      intro child member
      exact ⟨Nat.le_trans above (Nat.le_of_lt (sorted node child member)),
        bounded node child member⟩
  | .TiXmlText _ _, node, above, inside, shown => by
      rwa [Shows, (same node above inside).1, (same node above inside).2]
  | .TiXmlComment _, node, above, inside, shown => by
      rwa [Shows, (same node above inside).1, (same node above inside).2]
  | .TiXmlUnknown _, node, above, inside, shown => by
      rwa [Shows, (same node above inside).1, (same node above inside).2]
  | .TiXmlDeclaration _ _ _, node, above, inside, shown => by
      rwa [Shows, (same node above inside).1, (same node above inside).2]

theorem showsAll_frame (sorted : ∀ node child, child ∈ forest.children node → node < child)
    (bounded : ∀ node child, child ∈ forest.children node → child < forest.created)
    (same : ∀ node, low ≤ node → node < forest.created →
      after.content node = forest.content node ∧ after.children node = forest.children node) :
    ∀ (trees : List TiXmlNode) (nodes : List NodePtr),
      (∀ node ∈ nodes, low ≤ node ∧ node < forest.created) →
        ShowsAll forest nodes trees → ShowsAll after nodes trees
  | [], [], _, _ => trivial
  | [], _ :: _, _, shown => shown.elim
  | _ :: _, [], _, shown => shown.elim
  | tree :: trees, node :: nodes, all, shown =>
      ⟨shows_frame sorted bounded same tree node (all node (by simp)).1 (all node (by simp)).2
        shown.1,
      showsAll_frame sorted bounded same trees nodes
        (fun other member => all other (by simp [member])) shown.2⟩

end

end

namespace Forest

def Sorted (forest : Forest) : Prop := ∀ node child, child ∈ forest.children node → node < child

def Becomes (forest : Forest) (events : List NodeHeap.Event) (after : Forest) : Prop :=
  forest.Legal events ∧ events.foldl Forest.step forest = after

variable {forest middle after : Forest} {events later : List NodeHeap.Event}
  {node child other : NodePtr}

theorem Sorted.below (sorted : forest.Sorted) (below : forest.Below node other) :
    node ≤ other := by
  induction below with
  | refl => exact Nat.le_refl _
  | tail _ member ih => exact Nat.le_trans ih (Nat.le_of_lt (sorted _ _ member))

theorem Becomes.cons {event : NodeHeap.Event} (allowed : forest.Allowed event)
    (becomes : (forest.step event).Becomes events after) :
    forest.Becomes (event :: events) after :=
  ⟨⟨allowed, becomes.1⟩, becomes.2⟩

theorem Becomes.append (first : forest.Becomes events middle)
    (second : middle.Becomes later after) : forest.Becomes (events ++ later) after := by
  induction events generalizing forest with
  | nil =>
      obtain ⟨-, rfl⟩ := first
      exact second
  | cons event events ih =>
      obtain ⟨⟨allowed, legal⟩, ends⟩ := first
      exact Becomes.cons allowed (ih ⟨legal, ends⟩)

theorem below_mono (more : ∀ node child, child ∈ forest.children node →
    child ∈ after.children node) (below : forest.Below node other) : after.Below node other :=
  Relation.ReflTransGen.mono more _ _ below

theorem WellFormed.bounded (wellFormed : forest.WellFormed)
    (lives : forest.content node ≠ none) : node < forest.created := by
  by_contra late
  exact lives (wellFormed.fresh node (Nat.le_of_not_lt late))

theorem WellFormed.child_bounded (wellFormed : forest.WellFormed)
    (member : child ∈ forest.children node) : child < forest.created :=
  wellFormed.bounded (wellFormed.owned node child member).2

end Forest

structure Planted (forest after : Forest) (tree : TiXmlNode) : Prop where
  wellFormed : after.WellFormed
  sorted : after.Sorted
  created : after.created = forest.created + size tree
  content : ∀ node, node < forest.created → after.content node = forest.content node
  children : ∀ node, node < forest.created → after.children node = forest.children node
  shown : Shows after forest.created tree
  below : ∀ node, forest.created ≤ node → node < after.created →
    after.Below forest.created node

structure PlantedAll (forest after : Forest) (this : NodePtr) (new : List NodePtr)
    (trees : List TiXmlNode) : Prop where
  wellFormed : after.WellFormed
  sorted : after.Sorted
  created : after.created = forest.created + sizeAll trees
  content : ∀ node, node < forest.created → after.content node = forest.content node
  others : ∀ node, node < forest.created → node ≠ this →
    after.children node = forest.children node
  own : after.children this = forest.children this ++ new
  shown : ShowsAll after new trees
  below : ∀ node, forest.created ≤ node → node < after.created →
    ∃ child ∈ new, after.Below child node

section

variable {forest after : Forest} {this : NodePtr}

theorem PlantedAll.more {new : List NodePtr} {trees : List TiXmlNode}
    (planted : PlantedAll forest after this new trees) (wellFormed : forest.WellFormed)
    (node child : NodePtr) (member : child ∈ forest.children node) :
    child ∈ after.children node := by
  by_cases same : node = this
  · rw [same, planted.own]
    exact List.mem_append_left _ (same ▸ member)
  · have early := wellFormed.bounded (wellFormed.owned node child member).1
    rwa [planted.others node early same]

theorem new_content (content : Content) (parent : NodePtr) {node : NodePtr}
    (early : node < forest.created) :
    (forest.step (.new content parent)).content node = forest.content node :=
  Function.update_of_ne (Nat.ne_of_lt early) _ _

theorem leaf_planted (tree : TiXmlNode) (wellFormed : forest.WellFormed)
    (sorted : forest.Sorted) (parent : NodePtr) (single : size tree = 1)
    (shown : ∀ {after : Forest} {node : NodePtr}, after.content node = some (contentOf tree) →
      after.children node = [] → Shows after node tree) :
    Planted forest (forest.step (.new (contentOf tree) parent)) tree := by
  have childless : forest.children forest.created = [] :=
    dead_childless wellFormed (wellFormed.fresh _ (Nat.le_refl _))
  constructor
  · exact new_wellFormed wellFormed (contentOf tree) parent
  · exact sorted
  · rw [single]
    rfl
  · exact fun node early => new_content (contentOf tree) parent early
  · exact fun _ _ => rfl
  · exact shown (Function.update_self _ _ _) childless
  · intro node late early
    obtain rfl : node = forest.created := Nat.le_antisymm (Nat.le_of_lt_succ early) late
    exact Forest.below_self _ _

theorem link_planted (wellFormed : forest.WellFormed) {tree : TiXmlNode}
    (planted : Planted forest after tree) (lives : forest.content this ≠ none) :
    after.Allowed (.LinkEndChild this forest.created) ∧
      after.step (.LinkEndChild this forest.created) =
        (after.adopt this forest.created).setChildren this
          (after.children this ++ [forest.created]) ∧
      (after.step (.LinkEndChild this forest.created)).WellFormed ∧
      (after.step (.LinkEndChild this forest.created)).Sorted := by
  have early := wellFormed.bounded lives
  have found := shows_content planted.shown
  have thisLives : after.content this ≠ none := by rwa [planted.content this early]
  have nodeLives : after.content forest.created ≠ none := by simp [found]
  have root : after.Root forest.created := by
    intro parent member
    by_cases old : parent < forest.created
    · rw [planted.children parent old] at member
      exact Nat.lt_irrefl _ (wellFormed.child_bounded member)
    · exact old (planted.sorted parent _ member)
  have apart : ¬ after.Below forest.created this := by
    intro below
    exact Nat.lt_irrefl _ (Nat.lt_of_lt_of_le early (planted.sorted.below below))
  have noDocument : ∀ content, after.content forest.created = some content →
      content.type ≠ .TINYXML_DOCUMENT := by
    intro content found' document
    rw [found, Option.some.injEq] at found'
    rw [← found'] at document
    cases tree <;> cases document
  have linked : after.step (.LinkEndChild this forest.created) =
      (after.adopt this forest.created).setChildren this
        (after.children this ++ [forest.created]) := by
    apply if_neg
    rintro ⟨content, found', document⟩
    exact noDocument content found' document
  refine ⟨⟨thisLives, nodeLives, root, apart, ?_⟩, linked, ?_, ?_⟩
  · exact fun content found' document => absurd document (noDocument content found')
  · rw [linked]
    exact Forest.link_wellFormed planted.wellFormed thisLives nodeLives root apart
  · rw [linked]
    intro node child member
    by_cases same : node = this
    · subst same
      simp only [Forest.setChildren, Function.update_self, List.mem_append,
        List.mem_singleton] at member
      rcases member with own | rfl
      · exact planted.sorted node child own
      · exact early
    · simp only [Forest.setChildren, Function.update_of_ne same] at member
      exact planted.sorted node child member

theorem cons_planted (wellFormed : forest.WellFormed) (lives : forest.content this ≠ none)
    {tree : TiXmlNode} {trees : List TiXmlNode} {middle : Forest} {new : List NodePtr}
    (first : Planted forest middle tree)
    (rest : PlantedAll (middle.step (.LinkEndChild this forest.created)) after this new trees) :
    PlantedAll forest after this (forest.created :: new) (tree :: trees) := by
  obtain ⟨-, linked, linkedWellFormed, -⟩ := link_planted wellFormed first lives
  have early := wellFormed.bounded lives
  have own : (middle.step (.LinkEndChild this forest.created)).children this =
      middle.children this ++ [forest.created] := by
    rw [linked]
    exact Function.update_self _ _ _
  have others (node : NodePtr) (different : node ≠ this) :
      (middle.step (.LinkEndChild this forest.created)).children node = middle.children node := by
    rw [linked]
    exact Function.update_of_ne different _ _
  have content : (middle.step (.LinkEndChild this forest.created)).content = middle.content := by
    rw [linked]
    rfl
  have created : (middle.step (.LinkEndChild this forest.created)).created = middle.created := by
    rw [linked]
    rfl
  have grown : forest.created ≤ middle.created := by
    rw [first.created]
    exact Nat.le_add_right _ _
  have grownNode : forest.created < middle.created := by
    apply first.wellFormed.bounded
    simp [shows_content first.shown]
  constructor
  · exact rest.wellFormed
  · exact rest.sorted
  · rw [rest.created, created, first.created, sizeAll, Nat.add_assoc]
  · intro node old
    have later := Nat.lt_of_lt_of_le old grown
    rw [← created] at later
    rw [rest.content node later, content, first.content node old]
  · intro node old different
    have later := Nat.lt_of_lt_of_le old grown
    rw [← created] at later
    rw [rest.others node later different, others node different, first.children node old]
  · rw [rest.own, own, first.children this early, List.append_assoc]
    rfl
  · refine ⟨?_, rest.shown⟩
    refine shows_frame first.sorted (fun _ _ => first.wellFormed.child_bounded) ?_ tree
      forest.created (Nat.le_refl _) grownNode first.shown
    intro node late inside
    have different : node ≠ this := Nat.ne_of_gt (Nat.lt_of_lt_of_le early late)
    rw [← created] at inside
    rw [rest.content node inside, content, rest.others node inside different,
      others node different]
    exact ⟨rfl, rfl⟩
  · intro node late inside
    by_cases old : node < middle.created
    · refine ⟨forest.created, by simp, ?_⟩
      apply Forest.below_mono _ (first.below node late old)
      intro parent child member
      apply rest.more linkedWellFormed
      by_cases same : parent = this
      · rw [same, own]
        exact List.mem_append_left _ (same ▸ member)
      · rwa [others parent same]
    · obtain ⟨child, listed, below⟩ := rest.below node (created ▸ Nat.le_of_not_lt old) inside
      exact ⟨child, by simp [listed], below⟩

mutual

theorem planting_becomes : ∀ (tree : TiXmlNode) (forest : Forest) (parent : NodePtr),
    forest.WellFormed → forest.Sorted →
      ∃ after, forest.Becomes (planting forest.created parent tree) after ∧
        Planted forest after tree
  | .TiXmlElement value attributes children, forest, parent, wellFormed, sorted => by
      have childless : forest.children forest.created = [] :=
        dead_childless wellFormed (wellFormed.fresh _ (Nat.le_refl _))
      have made : (forest.step (.new { type := .TINYXML_ELEMENT, value } parent)).content
          forest.created = some { type := .TINYXML_ELEMENT, value } := Function.update_self _ _ _
      obtain ⟨after, new, becomes, planted⟩ := plantingAll_becomes children
        (forest.step (.new { type := .TINYXML_ELEMENT, value } parent)) forest.created
        (new_wellFormed wellFormed _ parent) sorted (by simp [made])
      refine ⟨after, Forest.Becomes.cons trivial becomes, ?_⟩
      have own : after.children forest.created = new := by
        rw [planted.own]
        show forest.children forest.created ++ new = new
        rw [childless, List.nil_append]
      constructor
      · exact planted.wellFormed
      · exact planted.sorted
      · rw [planted.created, size]
        show forest.created + 1 + _ = _
        rw [Nat.add_assoc, Nat.add_comm 1]
      · intro node early
        rw [planted.content node (Nat.lt_succ_of_lt early), new_content _ parent early]
      · intro node early
        exact planted.others node (Nat.lt_succ_of_lt early) (Nat.ne_of_lt early)
      · rw [Shows, own, planted.content _ (Nat.lt_succ_self _), made]
        exact ⟨rfl, planted.shown⟩
      · intro node late inside
        by_cases same : node = forest.created
        · rw [same]
          exact Forest.below_self _ _
        · obtain ⟨child, listed, below⟩ :=
            planted.below node (Nat.lt_of_le_of_ne late (Ne.symm same)) inside
          exact Forest.below_child (own ▸ listed) below
  | .TiXmlText value cdata, _, parent, wellFormed, sorted =>
      ⟨_, ⟨⟨trivial, trivial⟩, rfl⟩,
        leaf_planted (.TiXmlText value cdata) wellFormed sorted parent rfl
          fun found childless => ⟨found, childless⟩⟩
  | .TiXmlComment value, _, parent, wellFormed, sorted =>
      ⟨_, ⟨⟨trivial, trivial⟩, rfl⟩,
        leaf_planted (.TiXmlComment value) wellFormed sorted parent rfl
          fun found childless => ⟨found, childless⟩⟩
  | .TiXmlUnknown value, _, parent, wellFormed, sorted =>
      ⟨_, ⟨⟨trivial, trivial⟩, rfl⟩,
        leaf_planted (.TiXmlUnknown value) wellFormed sorted parent rfl
          fun found childless => ⟨found, childless⟩⟩
  | .TiXmlDeclaration version encoding standalone, _, parent, wellFormed, sorted =>
      ⟨_, ⟨⟨trivial, trivial⟩, rfl⟩,
        leaf_planted (.TiXmlDeclaration version encoding standalone) wellFormed sorted parent rfl
          fun found childless => ⟨found, childless⟩⟩

theorem plantingAll_becomes : ∀ (trees : List TiXmlNode) (forest : Forest) (this : NodePtr),
    forest.WellFormed → forest.Sorted → forest.content this ≠ none →
      ∃ after new, forest.Becomes (plantingAll this forest.created trees) after ∧
        PlantedAll forest after this new trees
  | [], forest, this, wellFormed, sorted, _ => by
      refine ⟨forest, [], ⟨trivial, rfl⟩, ?_⟩
      constructor
      · exact wellFormed
      · exact sorted
      · rfl
      · exact fun _ _ => rfl
      · exact fun _ _ _ => rfl
      · exact (List.append_nil _).symm
      · trivial
      · exact fun node late early => absurd early (Nat.not_lt_of_le late)
  | tree :: trees, forest, this, wellFormed, sorted, lives => by
      obtain ⟨middle, becomes, first⟩ :=
        planting_becomes tree forest (identified this tree) wellFormed sorted
      obtain ⟨allowed, linked, linkedWellFormed, linkedSorted⟩ :=
        link_planted wellFormed first lives
      have thisLives := allowed.1
      obtain ⟨after, new, continues, rest⟩ := plantingAll_becomes trees
        (middle.step (.LinkEndChild this forest.created)) this linkedWellFormed linkedSorted (by
          rw [linked]
          exact thisLives)
      refine ⟨after, forest.created :: new, ?_, cons_planted wellFormed lives first rest⟩
      have created : (middle.step (.LinkEndChild this forest.created)).created =
          forest.created + size tree := by
        rw [linked]
        exact first.created
      rw [created] at continues
      exact becomes.append (Forest.Becomes.cons allowed continues)

end

end

/-! What is looked up. -/

/-- The text that a chain of names leads to: `FirstChildElement` for each, and then `GetText`. -/
def settingText (nodes : List TiXmlNode) (name : Str) : List Str → Exec Str
  | [] => do
      let elem ← Startup.notNull (Startup.FirstChildElement nodes name)
      Startup.notNull elem.GetText
  | next :: path => do
      let elem ← Startup.notNull (Startup.FirstChildElement nodes name)
      settingText elem.children next path

def NodeHeap.settingText (fuel : Nat) (heap : NodeHeap) (this : NodePtr) (name : Str) :
    List Str → Exec Str
  | [] => do
      let elem ← heap.FirstChildElement fuel this name
      Startup.notNull (← heap.GetText elem)
  | next :: path => do
      let elem ← heap.FirstChildElement fuel this name
      NodeHeap.settingText fuel heap elem next path

def ShowsElement (forest : Forest) (node : NodePtr) (elem : Startup.xmlNode_t) : Prop :=
  forest.content node = some { type := .TINYXML_ELEMENT, value := elem.value } ∧
    ShowsAll forest (forest.children node) elem.children

section

variable {forest : Forest} {node : NodePtr} {tree : TiXmlNode} {children : List NodePtr}
  {nodes : List TiXmlNode}

theorem shows_toElement (shown : Shows forest node tree) :
    isElement forest.content node = (Startup.ToElement tree).isSome ∧
      ∀ elem, Startup.ToElement tree = some elem → ShowsElement forest node elem := by
  have found := shows_content shown
  constructor
  · cases tree <;> simp [isElement, found, contentOf, Startup.ToElement]
  · intro elem made
    cases tree with
    | TiXmlElement value attributes children =>
        rw [Startup.ToElement, Option.some.injEq] at made
        subst made
        exact shown
    | TiXmlText value cdata => simp [Startup.ToElement] at made
    | TiXmlComment value => simp [Startup.ToElement] at made
    | TiXmlUnknown value => simp [Startup.ToElement] at made
    | TiXmlDeclaration version encoding standalone => simp [Startup.ToElement] at made

theorem shows_elements (shown : ShowsAll forest children nodes) :
    List.Forall₂ (ShowsElement forest) (children.filter (isElement forest.content))
      (Startup.elements nodes) := by
  induction nodes generalizing children with
  | nil =>
      cases children with
      | nil => exact List.Forall₂.nil
      | cons => exact shown.elim
  | cons tree nodes ih =>
      cases children with
      | nil => exact shown.elim
      | cons node children =>
          obtain ⟨here, rest⟩ := shown
          obtain ⟨kind, shows⟩ := shows_toElement here
          rw [Startup.elements, List.filterMap_cons]
          cases element : Startup.ToElement tree with
          | none =>
              rw [List.filter_cons_of_neg (by simp [kind, element])]
              exact ih rest
          | some elem =>
              rw [List.filter_cons_of_pos (by simp [kind, element])]
              exact List.Forall₂.cons (shows elem element) (ih rest)

theorem find_forall₂ {first : NodePtr → Bool} {second : Startup.xmlNode_t → Bool}
    {elems : List Startup.xmlNode_t} (same : ∀ node elem, ShowsElement forest node elem →
      first node = second elem)
    (shown : List.Forall₂ (ShowsElement forest) children elems) :
    Option.Rel (ShowsElement forest) (children.find? first) (elems.find? second) := by
  induction shown with
  | nil => exact Option.Rel.none
  | @cons node elem children elems here _ ih =>
      cases chosen : second elem with
      | true =>
          have alike := (same node elem here).trans chosen
          rw [List.find?_cons_of_pos alike, List.find?_cons_of_pos chosen]
          exact Option.Rel.some here
      | false =>
          have alike := (same node elem here).trans chosen
          rw [List.find?_cons_of_neg (by simp [alike]), List.find?_cons_of_neg (by simp [chosen])]
          exact ih

theorem shows_find (shown : ShowsAll forest children nodes) (value : Str) :
    Option.Rel (ShowsElement forest)
      (children.find? fun node => named forest.content value node && isElement forest.content node)
      (Startup.FirstChildElement nodes value) := by
  have kept : (children.filter (isElement forest.content)).find? (named forest.content value) =
      children.find? fun node =>
        named forest.content value node && isElement forest.content node := by
    rw [List.find?_filter]
    congr 1
    funext node
    rw [Bool.decide_and, Bool.decide_eq_true, Bool.decide_eq_true, Bool.and_comm]
  rw [← kept]
  refine find_forall₂ ?_ (shows_elements shown)
  intro node elem shown
  simp [named, shown.1]

end

section

variable {heap : NodeHeap} {forest : Forest} {this : NodePtr} {fuel : Nat}
  {nodes : List TiXmlNode}

theorem GetText_shows (represents : Represents heap forest)
    {elem : Startup.xmlNode_t} (shown : ShowsElement forest this elem) :
    heap.GetText this = .ok elem.GetText := by
  have lives : forest.content this ≠ none := by simp [shown.1]
  have here : heap.content this ≠ none := by rwa [represents.content]
  obtain ⟨_, -, used⟩ := deref_live here
  have first := represents.threaded.firstChild lives
  have inside := shown.2
  rw [NodeHeap.GetText, used, first, Startup.xmlNode_t.GetText]
  simp only [bind, Except.bind]
  cases children : forest.children this with
  | nil =>
      rw [children] at inside
      cases trees : elem.children with
      | nil => rfl
      | cons => exact (trees ▸ inside).elim
  | cons child rest =>
      rw [children] at inside
      cases trees : elem.children with
      | nil => exact (trees ▸ inside).elim
      | cons tree others =>
          rw [trees] at inside
          have notNull : child ≠ 0 := represents.threaded.not_null lives (by simp [children])
          have found := shows_content inside.1
          rw [← represents.content] at found
          simp only [List.head?_cons, Option.getD_some, if_neg notNull, deref_ok found]
          cases tree <;> rfl

theorem FirstChildElement_shows (wellFormed : forest.WellFormed)
    (represents : Represents heap forest) (enough : forest.created < fuel)
    (lives : forest.content this ≠ none) (shown : ShowsAll forest (forest.children this) nodes)
    (value : Str) :
    ∃ found, heap.FirstChildElement fuel this value = .ok (found.getD 0) ∧
      Option.Rel (ShowsElement forest) found (Startup.FirstChildElement nodes value) :=
  ⟨_, (represents_answers wellFormed represents lives enough).FirstChildElement value,
    shows_find shown value⟩

theorem deref_null (wellFormed : forest.WellFormed) (represents : Represents heap forest) :
    heap.deref 0 = .error .nullPointer := by
  rw [NodeHeap.deref, represents.content, wellFormed.null]
  rfl

/-- A chain of lookups gives the same text, or stops at the same null pointer. -/
theorem settingText_shows (wellFormed : forest.WellFormed)
    (represents : Represents heap forest) (enough : forest.created < fuel)
    (lives : forest.content this ≠ none) (shown : ShowsAll forest (forest.children this) nodes)
    (name : Str) (path : List Str) :
    heap.settingText fuel this name path = settingText nodes name path := by
  have null := deref_null wellFormed represents
  induction path generalizing this nodes name with
  | nil =>
      obtain ⟨found, looked, related⟩ :=
        FirstChildElement_shows wellFormed represents enough lives shown name
      rw [NodeHeap.settingText, settingText, looked]
      generalize Startup.FirstChildElement nodes name = element at related ⊢
      simp only [bind, Except.bind]
      cases related with
      | none =>
          rw [Option.getD_none, NodeHeap.GetText, null]
          rfl
      | some element =>
          rw [Option.getD_some, GetText_shows represents element]
          rfl
  | cons next path ih =>
      obtain ⟨found, looked, related⟩ :=
        FirstChildElement_shows wellFormed represents enough lives shown name
      rw [NodeHeap.settingText, settingText, looked]
      generalize Startup.FirstChildElement nodes name = element at related ⊢
      simp only [bind, Except.bind]
      cases related with
      | none =>
          rw [Option.getD_none]
          cases path <;>
            rw [NodeHeap.settingText, NodeHeap.FirstChildElement, NodeHeap.FirstChild, null] <;> rfl
      | some element =>
          rw [Option.getD_some]
          exact ih (by simp [element.1]) element.2 next

theorem elements_shows (wellFormed : forest.WellFormed) (represents : Represents heap forest)
    (enough : forest.created < fuel) (lives : forest.content this ≠ none)
    (shown : ShowsAll forest (forest.children this) nodes) :
    ∃ elems, heap.elements fuel this = .ok elems ∧
      List.Forall₂ (ShowsElement forest) elems (Startup.elements nodes) := by
  have short := Nat.lt_of_le_of_lt (children_bound wellFormed represents lives) enough
  have leads := leads_next wellFormed represents lives
  have here : heap.content this ≠ none := by rwa [represents.content]
  obtain ⟨_, -, used⟩ := deref_live here
  refine ⟨_, ?_, shows_elements shown⟩
  rw [NodeHeap.elements, used, represents.threaded.firstChild lives, ← represents.content]
  simp only [bind, Except.bind, nextElement_leads leads short]
  exact visitElements_leads leads short short

end

noncomputable def planted (value : Str) (nodes : List TiXmlNode) : Forest :=
  Forest.grown (plantingDocument value nodes)

theorem document_planted (value : Str) (nodes : List TiXmlNode) :
    Forest.empty.Legal (plantingDocument value nodes) ∧
      (planted value nodes).content 1 ≠ none ∧
      ShowsAll (planted value nodes) ((planted value nodes).children 1) nodes ∧
      ∀ node, (planted value nodes).content node ≠ none → (planted value nodes).Below 1 node := by
  have made : (Forest.empty.step (.new { type := .TINYXML_DOCUMENT, value } 0)).content 1 =
      some { type := .TINYXML_DOCUMENT, value } := rfl
  obtain ⟨after, new, ⟨legal, ends⟩, rest⟩ := plantingAll_becomes nodes
    (Forest.empty.step (.new { type := .TINYXML_DOCUMENT, value } 0)) 1
    (new_wellFormed Forest.empty_wellFormed _ 0)
    (fun _ _ member => absurd member List.not_mem_nil) (by simp [made])
  have same : planted value nodes = after := ends
  have own : after.children 1 = new := rest.own
  rw [same]
  refine ⟨⟨trivial, legal⟩, ?_, ?_, ?_⟩
  · rw [rest.content 1 Nat.one_lt_two, made]
    simp
  · rw [own]
    exact rest.shown
  · intro node lives
    by_cases first : node = 1
    · rw [first]
      exact Forest.below_self _ _
    · have positive : node ≠ 0 := by
        rintro rfl
        exact lives rest.wellFormed.null
      have late : 2 ≤ node :=
        Nat.lt_of_le_of_ne (Nat.one_le_iff_ne_zero.mpr positive) (Ne.symm first)
      obtain ⟨child, listed, below⟩ := rest.below node late (rest.wellFormed.bounded lives)
      exact Forest.below_child (own ▸ listed) below

structure LooksUp (fuel : Nat) (heap : NodeHeap) (forest : Forest) (this : NodePtr)
    (trees : List TiXmlNode) : Prop where
  texts : ∀ name path, heap.settingText fuel this name path = settingText trees name path
  elements : ∃ elems, heap.elements fuel this = .ok elems ∧
    List.Forall₂ (ShowsElement forest) elems (Startup.elements trees)

/-- Making a document stops at no point. It can be read like the list of its trees,
from every node in it, and where it is deleted no object is left. -/
theorem document_run (value : Str) (nodes : List TiXmlNode) :
    ShowsAll (planted value nodes) ((planted value nodes).children 1) nodes ∧
      ∃ enough heap, ∀ fuel, enough ≤ fuel →
        Runs.run (NodeHeap.step fuel) NodeHeap.empty (plantingDocument value nodes) = .ok heap ∧
          (∀ this trees, heap.content this ≠ none →
            ShowsAll (planted value nodes) ((planted value nodes).children this) trees →
              LooksUp fuel heap (planted value nodes) this trees) ∧
          ∃ after, heap.delete fuel 1 = .ok after ∧ after.content = fun _ => none := by
  obtain ⟨legal, lives, shown, below⟩ := document_planted value nodes
  obtain ⟨wellFormed, first, heap, ends, represents⟩ :=
    run_represents Forest.empty_wellFormed empty_represents legal
  obtain ⟨second, after, deleted, pruned⟩ := delete_represents wellFormed represents lives
  refine ⟨shown, max (max first second) ((planted value nodes).created + 1), heap, ?_⟩
  intro fuel enough
  refine ⟨ends fuel (by omega), ?_, after, deleted fuel (by omega), ?_⟩
  · intro this trees thisLives inside
    rw [represents.content] at thisLives
    have more : (planted value nodes).created < fuel :=
      Nat.lt_of_lt_of_le (Nat.lt_succ_self _) (Nat.le_trans (Nat.le_max_right _ _) enough)
    exact ⟨settingText_shows wellFormed represents more thisLives inside,
      elements_shows wellFormed represents more thisLives inside⟩
  · rw [pruned.content]
    funext node
    by_cases lives : (planted value nodes).content node = none
    · have dead : ((planted value nodes).prune [1]).content node = none := by
        simp only [Forest.prune, lives, ite_self]
      exact dead
    · exact if_pos ⟨1, List.mem_singleton.mpr rfl, below node lives⟩

end Nodes

end TinyXml

end GraduationServer
