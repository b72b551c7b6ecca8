import ScriptTyping.Check.Arguments
import ScriptTyping.Proofs.Syntax.Region

/-!
A part of an arena that is closed under children and holds all new nodes. Two arenas that agree on
such a part still agree after the same change inside it, and neither changes outside. Inside, nodes
stay of their kind, but for the few kinds that checking gives.
-/

namespace ScriptTyping

theorem Span.start_foldl_merge (spans : List Span) (first : Span) :
    ∃ span ∈ first :: spans, (spans.foldl merge first).start = span.start := by
  induction spans generalizing first with
  | nil => exact ⟨first, by simp, rfl⟩
  | cons next rest ih =>
      obtain ⟨span, member, same⟩ := ih (merge first next)
      rcases List.mem_cons.mp member with rfl | later
      · rcases Nat.le_total first.start next.start with less | greater
        · exact ⟨first, by simp, by rw [List.foldl_cons, same, merge, Nat.min_eq_left less]⟩
        · exact ⟨next, by simp, by rw [List.foldl_cons, same, merge, Nat.min_eq_right greater]⟩
      · exact ⟨span, by simp [later], same⟩

theorem Span.start_cover? {spans : List Span} {cover : Span} (covers : cover? spans = some cover) :
    ∃ span ∈ spans, cover.start = span.start := by
  unfold cover? at covers
  split at covers
  · simp at covers
  · rename_i first rest placed
    obtain ⟨span, member, same⟩ := start_foldl_merge rest first
    rw [Option.some.injEq] at covers
    rw [← placed] at member
    exact ⟨span, List.mem_of_mem_filter member, by rw [← covers, same]⟩

def Tag.isGiven : Tag → Bool
  | upCast => true
  | downCast => true
  | assign => true
  | text => true
  | _ => false

def Tag.Leads (first second : Tag) : Prop := second = first ∨ second.isGiven = true

theorem Tag.Leads.refl (tag : Tag) : tag.Leads tag := .inl rfl

theorem Tag.Leads.trans {first second third : Tag} (early : first.Leads second)
    (late : second.Leads third) : first.Leads third := by
  rcases late with rfl | given
  · exact early
  · exact .inr given

/-- A part of an arena, with the offsets at which its nodes may start in the source. -/
structure Realm where
  inside : NodeId → Prop
  starts : Nat → Prop
  source : Option String
  origin : starts 0

namespace Realm

structure Admits (realm : Realm) (node : Node) : Prop where
  start : realm.starts node.span.start
  kids : ∀ child ∈ node.children, realm.inside child.node

structure Closed (realm : Realm) (tree : Tree) : Prop where
  beyond : ∀ {id}, tree.nodes.size ≤ id → realm.inside id
  admits : ∀ {id}, realm.inside id → realm.Admits (tree.get id)
  source : tree.source = realm.source

structure Joins (realm : Realm) (left right : Tree) : Prop where
  closed : realm.Closed left
  size : right.nodes.size = left.nodes.size
  get : ∀ {id}, realm.inside id → right.get id = left.get id
  source : right.source = left.source

structure Moves (realm : Realm) (old new : Tree) : Prop where
  size : old.nodes.size ≤ new.nodes.size
  frame : ∀ {id}, ¬ realm.inside id → new.get id = old.get id
  kind : ∀ {id}, id < old.nodes.size → (old.tag id).Leads (new.tag id)

structure Shifts (realm : Realm) (left right newLeft newRight : Tree) : Prop where
  joins : realm.Joins newLeft newRight
  left : realm.Moves left newLeft
  right : realm.Moves right newRight

structure Gives {α : Type} (realm : Realm) (fits : α → Prop) (left right : Tree)
    (first second : α × Tree) : Prop where
  same : second.1 = first.1
  fits : fits first.1
  shifts : realm.Shifts left right first.2 second.2

variable {realm : Realm} {tree left right newLeft newRight lastLeft lastRight : Tree}
  {id kid : NodeId} {ids : List NodeId} {node : Node} {label : Label}

theorem Closed.childIds (closed : realm.Closed tree) (inside : realm.inside id) :
    ∀ kid ∈ tree.childIds id, realm.inside kid := by
  intro kid member
  obtain ⟨child, isChild, rfl⟩ := List.mem_map.mp member
  exact (closed.admits inside).kids child isChild

theorem Closed.childAt? (closed : realm.Closed tree) (inside : realm.inside id) {index : Nat}
    (found : tree.childAt? id index = some kid) : realm.inside kid := by
  obtain ⟨child, isChild, rfl⟩ := Option.map_eq_some_iff.mp found
  exact (closed.admits inside).kids child (List.mem_of_getElem? isChild)

theorem Closed.child? (closed : realm.Closed tree) (inside : realm.inside id)
    (found : tree.child? id label = some kid) : realm.inside kid := by
  obtain ⟨child, isChild, rfl⟩ := Option.map_eq_some_iff.mp found
  exact (closed.admits inside).kids child (List.mem_of_find?_eq_some isChild)

theorem Moves.refl (tree : Tree) : realm.Moves tree tree :=
  ⟨Nat.le_refl _, fun _ => rfl, fun _ => .refl _⟩

theorem Moves.trans {middle : Tree} (first : realm.Moves tree middle)
    (second : realm.Moves middle newLeft) : realm.Moves tree newLeft :=
  ⟨Nat.le_trans first.size second.size,
    fun outside => (second.frame outside).trans (first.frame outside),
    fun bound => (first.kind bound).trans (second.kind (Nat.lt_of_lt_of_le bound first.size))⟩

theorem Shifts.refl (joins : realm.Joins left right) : realm.Shifts left right left right :=
  ⟨joins, .refl left, .refl right⟩

theorem Shifts.trans (first : realm.Shifts left right newLeft newRight)
    (second : realm.Shifts newLeft newRight lastLeft lastRight) :
    realm.Shifts left right lastLeft lastRight :=
  ⟨second.joins, first.left.trans second.left, first.right.trans second.right⟩

theorem Joins.symm (joins : realm.Joins left right) : realm.Joins right left := by
  refine ⟨⟨fun beyond => joins.closed.beyond (by rwa [joins.size] at beyond), fun inside => ?_,
    joins.source.trans joins.closed.source⟩, joins.size.symm, fun inside => (joins.get inside).symm,
    joins.source.symm⟩
  rw [joins.get inside]
  exact joins.closed.admits inside

theorem Joins.trans {middle : Tree} (first : realm.Joins left middle)
    (second : realm.Joins middle right) : realm.Joins left right :=
  ⟨first.closed, second.size.trans first.size,
    fun inside => (second.get inside).trans (first.get inside), second.source.trans first.source⟩

theorem Joins.setRoot (joins : realm.Joins left right) (root : NodeId) :
    realm.Joins left (right.setRoot root) :=
  ⟨joins.closed, joins.size, joins.get, joins.source⟩

theorem Closed.modify_outside (closed : realm.Closed tree) (outside : ¬ realm.inside id)
    (change : Node → Node) : realm.Joins tree (tree.modify id change) :=
  ⟨closed, by simp, fun inside => tree.get_modify_other change fun same => outside (same ▸ inside),
    rfl⟩

/-! ### Single changes -/

theorem Moves.alloc (closed : realm.Closed tree) (node : Node) :
    realm.Moves tree (tree.alloc node).2 := by
  refine ⟨by simp, fun outside => tree.get_alloc_old node ?_, fun bound => .inl ?_⟩
  · exact Nat.lt_of_not_le fun beyond => outside (closed.beyond beyond)
  · rw [Tree.tag, tree.get_alloc_old node bound, Tree.tag]

theorem Moves.modify (inside : realm.inside id) {change : Node → Node}
    (kind : ∀ node : Node, node.tag.Leads (change node).tag) :
    realm.Moves tree (tree.modify id change) := by
  refine ⟨by simp, fun outside => tree.get_modify_other change ?_, fun {position} bound => ?_⟩
  · exact fun same => outside (same ▸ inside)
  · by_cases same : position = id
    · subst same
      rw [Tree.tag, Tree.tag, tree.get_modify_self change bound]
      exact kind _
    · rw [Tree.tag, Tree.tag, tree.get_modify_other change same]
      exact .refl _

theorem Joins.alloc (joins : realm.Joins left right) (admits : realm.Admits node) :
    realm.Gives realm.inside left right (left.alloc node) (right.alloc node) := by
  refine ⟨joins.size, joins.closed.beyond (Nat.le_refl _), ⟨⟨?_, ?_, joins.closed.source⟩, ?_, ?_,
    joins.source⟩, .alloc joins.closed node, .alloc joins.symm.closed node⟩
  · intro position beyond
    rw [Tree.size_alloc] at beyond
    exact joins.closed.beyond (by omega)
  · intro position inside
    by_cases same : position = left.nodes.size
    · rw [same, Tree.get_alloc_new]
      exact admits
    · rw [Tree.get_alloc_other left node same]
      exact joins.closed.admits inside
  · rw [Tree.size_alloc, Tree.size_alloc, joins.size]
  · intro position inside
    by_cases same : position = left.nodes.size
    · rw [same, Tree.get_alloc_new, ← joins.size, Tree.get_alloc_new]
    · rw [Tree.get_alloc_other left node same,
        Tree.get_alloc_other right node (by rw [joins.size]; exact same)]
      exact joins.get inside

theorem Joins.modify (joins : realm.Joins left right) (inside : realm.inside id)
    {change : Node → Node} (kind : ∀ node : Node, node.tag.Leads (change node).tag)
    (admits : realm.Admits (left.get id) → realm.Admits (change (left.get id))) :
    realm.Shifts left right (left.modify id change) (right.modify id change) := by
  refine ⟨⟨⟨fun beyond => joins.closed.beyond (by simpa using beyond), ?_, joins.closed.source⟩,
    by simpa using joins.size, ?_, joins.source⟩, .modify inside kind, .modify inside kind⟩
  · intro position member
    by_cases changed : position = id ∧ position < left.nodes.size
    · obtain ⟨rfl, bound⟩ := changed
      rw [left.get_modify_self change bound]
      exact admits (joins.closed.admits inside)
    · rw [Tree.get_modify_unchanged changed]
      exact joins.closed.admits member
  · intro position member
    by_cases changed : position = id ∧ position < left.nodes.size
    · obtain ⟨rfl, bound⟩ := changed
      rw [left.get_modify_self change bound, right.get_modify_self change (by rwa [joins.size]),
        joins.get inside]
    · rw [Tree.get_modify_unchanged changed, Tree.get_modify_unchanged (by rwa [joins.size])]
      exact joins.get member

/-! ### Nodes with other children -/

theorem Admits.same {other : Node} (admits : realm.Admits node) (span : other.span = node.span)
    (children : other.children = node.children) : realm.Admits other :=
  ⟨span ▸ admits.start, children ▸ admits.kids⟩

theorem Admits.push (admits : realm.Admits node) (inside : realm.inside kid)
    (label : Option Label) : realm.Admits (node.push label kid) := by
  refine ⟨admits.start, fun child member => ?_⟩
  rcases List.mem_append.mp member with old | new
  · exact admits.kids child old
  · rw [List.mem_singleton.mp new]
    exact inside

theorem Admits.modify (admits : realm.Admits node) (index : Nat) {change : Child → Child}
    (keeps : ∀ child ∈ node.children, realm.inside (change child).node) :
    realm.Admits { node with children := node.children.modify index change } := by
  refine ⟨admits.start, fun child member => ?_⟩
  obtain ⟨position, found⟩ := List.mem_iff_getElem?.mp member
  rw [List.getElem?_modify] at found
  obtain ⟨old, isOld, changed⟩ := Option.map_eq_some_iff.mp found
  have isChild := List.mem_of_getElem? isOld
  split at changed
  · exact changed ▸ keeps old isChild
  · exact changed ▸ admits.kids old isChild

theorem Admits.replaceAt (admits : realm.Admits node) (index : Nat) (inside : realm.inside kid) :
    realm.Admits (node.replaceAt index kid) :=
  admits.modify index fun _ _ => inside

theorem Admits.setChild (admits : realm.Admits node) (label : Label)
    (inside : realm.inside kid) : realm.Admits (node.setChild label kid) := by
  unfold Node.setChild
  split
  · exact admits.replaceAt _ inside
  · exact admits.push inside _

theorem Admits.relabel (admits : realm.Admits node) (label target : Label) :
    realm.Admits (node.relabel label target) := by
  unfold Node.relabel
  split
  · exact admits.modify _ fun child member => admits.kids child member
  · exact admits

theorem Admits.removeChild (admits : realm.Admits node) (label : Label) :
    realm.Admits (node.removeChild label) := by
  unfold Node.removeChild
  split
  · exact ⟨admits.start, fun child member => admits.kids child (List.mem_of_mem_eraseIdx member)⟩
  · exact admits

theorem Admits.withChildren (admits : realm.Admits node) {children : List Child}
    (inside : ∀ child ∈ children, realm.inside child.node) :
    realm.Admits { node with children } :=
  ⟨admits.start, inside⟩

theorem Joins.setChild (joins : realm.Joins left right) (inside : realm.inside id)
    (label : Label) (kidInside : realm.inside kid) :
    realm.Shifts left right (left.setChild id label kid) (right.setChild id label kid) :=
  joins.modify inside (fun _ => .inl (Node.tag_setChild _ label kid)) fun admits =>
    admits.setChild label kidInside

theorem Joins.relabel (joins : realm.Joins left right) (inside : realm.inside id)
    (label target : Label) :
    realm.Shifts left right (left.relabel id label target) (right.relabel id label target) :=
  joins.modify inside (fun _ => .inl (Node.tag_relabel _ label target)) fun admits =>
    admits.relabel label target

theorem Joins.removeChild (joins : realm.Joins left right) (inside : realm.inside id)
    (label : Label) :
    realm.Shifts left right (left.removeChild id label) (right.removeChild id label) :=
  joins.modify inside (fun _ => .inl (Node.tag_removeChild _ label)) fun admits =>
    admits.removeChild label

theorem Joins.setTag (joins : realm.Joins left right) (inside : realm.inside id) {tag : Tag}
    (given : tag.isGiven = true) :
    realm.Shifts left right (left.setTag id tag) (right.setTag id tag) :=
  joins.modify inside (fun _ => .inr given) fun admits => admits.same rfl rfl

theorem Joins.make (joins : realm.Joins left right) (inside : realm.inside id)
    {children : List (Label × NodeId)} (each : ∀ pair ∈ children, realm.inside pair.2) :
    realm.Shifts left right (left.make id children) (right.make id children) := by
  refine joins.modify inside (fun _ => .refl _) fun admits => ?_
  refine admits.withChildren fun child member => ?_
  obtain ⟨pair, isPair, rfl⟩ := List.mem_map.mp member
  exact each pair isPair

/-! ### Changes with a result -/

theorem Joins.tag (joins : realm.Joins left right) (inside : realm.inside id) :
    right.tag id = left.tag id := by
  rw [Tree.tag, joins.get inside, Tree.tag]

theorem Joins.text (joins : realm.Joins left right) (inside : realm.inside id) :
    right.text id = left.text id := by
  rw [Tree.text, joins.get inside, Tree.text]

theorem Joins.span (joins : realm.Joins left right) (inside : realm.inside id) :
    right.span id = left.span id := by
  rw [Tree.span, joins.get inside, Tree.span]

theorem Joins.childIds (joins : realm.Joins left right) (inside : realm.inside id) :
    right.childIds id = left.childIds id := by
  rw [Tree.childIds, joins.get inside, Tree.childIds]

theorem Joins.child? (joins : realm.Joins left right) (inside : realm.inside id) :
    right.child? id = left.child? id := by
  funext label
  rw [Tree.child?, joins.get inside, Tree.child?]

theorem Joins.childAt? (joins : realm.Joins left right) (inside : realm.inside id) :
    right.childAt? id = left.childAt? id := by
  funext index
  rw [Tree.childAt?, joins.get inside, Tree.childAt?]

theorem Joins.failure (joins : realm.Joins left right) {error : CheckError}
    (starts : realm.starts error.span.start) :
    realm.Gives (realm.inside ·.replacement) left right (Failure.ofError left error)
      (Failure.ofError right error) := by
  have admits : realm.Admits {
      tag := .error, span := error.span, text := some error.message, ty := some .never,
      done := true } := ⟨starts, by simp⟩
  obtain ⟨same, inside, shifts⟩ := joins.alloc admits
  refine ⟨?_, inside, shifts⟩
  unfold Failure.ofError
  simp only [same]

theorem Joins.convert (joins : realm.Joins left right) (inside : realm.inside id) (tag : Tag)
    (ty : Ty) (binding : Binding) : realm.Gives realm.inside left right
      (left.convert id tag ty binding) (right.convert id tag ty binding) := by
  rw [Tree.convert, Tree.convert, joins.span inside]
  refine joins.alloc ⟨(joins.closed.admits inside).start, ?_⟩
  simpa using inside

theorem Joins.branch (joins : realm.Joins left right) (tag : Tag) {children : List Child}
    (inside : ∀ child ∈ children, realm.inside child.node) :
    realm.Gives realm.inside left right (left.branch tag children) (right.branch tag children) := by
  have cover : right.coverOf children = left.coverOf children := by
    rw [Tree.coverOf, Tree.coverOf]
    congr 2
    exact List.map_congr_left fun child member => joins.span (inside child member)
  rw [Tree.branch, Tree.branch, cover]
  refine joins.alloc ⟨?_, inside⟩
  show realm.starts (left.coverOf children).start
  unfold Tree.coverOf
  cases covers : Span.cover? (children.map fun child => left.span child.node) with
  | none => exact realm.origin
  | some cover =>
      obtain ⟨span, member, same⟩ := Span.start_cover? covers
      obtain ⟨child, isChild, rfl⟩ := List.mem_map.mp member
      rw [Option.getD_some, same]
      exact (joins.closed.admits (inside child isChild)).start

theorem Joins.sequence (joins : realm.Joins left right) (tag : Tag)
    (inside : ∀ item ∈ ids, realm.inside item) :
    realm.Gives realm.inside left right (left.sequence tag ids) (right.sequence tag ids) := by
  refine joins.branch tag fun child member => ?_
  obtain ⟨item, isItem, rfl⟩ := List.mem_map.mp member
  exact inside item isItem

theorem Joins.labelled (joins : realm.Joins left right) (tag : Tag)
    {children : List (Label × NodeId)} (inside : ∀ pair ∈ children, realm.inside pair.2) :
    realm.Gives realm.inside left right (left.labelled tag children)
      (right.labelled tag children) := by
  refine joins.branch tag fun child member => ?_
  obtain ⟨pair, isPair, rfl⟩ := List.mem_map.mp member
  exact inside pair isPair

theorem Joins.argumentList (joins : realm.Joins left right) (inside : realm.inside id)
    (label : Label) : realm.Gives realm.inside left right (left.argumentList id label)
      (right.argumentList id label) := by
  have wrapped : ∀ items : List NodeId, (∀ item ∈ items, realm.inside item) →
      realm.Gives realm.inside left right
        ((left.sequence .list items).1,
          (left.sequence .list items).2.setChild id label (left.sequence .list items).1)
        ((right.sequence .list items).1,
          (right.sequence .list items).2.setChild id label (right.sequence .list items).1) := by
    intro items each
    obtain ⟨same, listInside, shifts⟩ := joins.sequence .list each
    refine ⟨same, listInside, ?_⟩
    simp only [same]
    exact shifts.trans (shifts.joins.setChild inside label listInside)
  unfold Tree.argumentList
  rw [joins.child? inside]
  cases found : left.child? id label with
  | none => exact wrapped [] (by simp)
  | some child =>
      have childInside := joins.closed.child? inside found
      simp only [joins.tag childInside]
      split
      · exact ⟨rfl, childInside, .refl joins⟩
      · exact wrapped [child] (by simpa using childInside)

theorem Joins.flatten (joins : realm.Joins left right) (inside : realm.inside id)
    (each : ∀ item ∈ ids, realm.inside item) :
    realm.Shifts left right (left.flatten id ids) (right.flatten id ids) := by
  have splice : right.splice ids = left.splice ids := by
    refine List.flatMap_congr fun item member => ?_
    rw [joins.tag (each item member), joins.childIds (each item member)]
  rw [Tree.flatten, Tree.flatten, splice]
  refine joins.modify inside (fun _ => .refl _) fun admits => ?_
  refine admits.withChildren fun child member => ?_
  obtain ⟨item, isItem, rfl⟩ := List.mem_map.mp member
  obtain ⟨whole, isWhole, spliced⟩ := List.mem_flatMap.mp isItem
  have wholeInside := each whole isWhole
  split at spliced
  · exact joins.closed.childIds wholeInside item spliced
  · rw [List.mem_singleton.mp spliced]
    exact wholeInside

theorem Joins.enforce (joins : realm.Joins left right) (inside : realm.inside id)
    (environment : Environment) (ty : Ty) :
    realm.Gives (fun result : Except Failure NodeId =>
      (∀ failure, result = .error failure → realm.inside failure.replacement) ∧
        ∀ coerced, result = .ok coerced → realm.inside coerced)
      left right (environment.enforce left id ty) (environment.enforce right id ty) := by
  have found : right.ty? id = left.ty? id := by rw [Tree.ty?, joins.get inside, Tree.ty?]
  have converted : ∀ (tag : Tag) (binding : Binding),
      realm.Gives (fun result : Except Failure NodeId =>
      (∀ failure, result = .error failure → realm.inside failure.replacement) ∧
        ∀ coerced, result = .ok coerced → realm.inside coerced) left right
      (.ok (left.convert id tag ty binding).1, (left.convert id tag ty binding).2)
      (.ok (right.convert id tag ty binding).1, (right.convert id tag ty binding).2) := by
    intro tag binding
    obtain ⟨same, wrapper, shifts⟩ := joins.convert inside tag ty binding
    exact ⟨by rw [same], ⟨by simp, by simpa using wrapper⟩, shifts⟩
  unfold Environment.enforce
  rw [found, joins.tag inside, joins.span inside]
  dsimp only
  split
  · exact ⟨rfl, ⟨by simp, by simpa using inside⟩, .refl joins⟩
  · split
    · refine ⟨rfl, ⟨by simp, by simpa using inside⟩, ?_⟩
      exact joins.modify inside (fun _ => .refl _) fun admits => admits.same rfl rfl
    · split
      · exact converted _ _
      · split
        · exact converted _ _
        · split
          · exact converted _ _
          · let error : CheckError :=
              ⟨.typeMismatch ty ((left.ty? id).getD .never), left.span id⟩
            have starts : realm.starts error.span.start := (joins.closed.admits inside).start
            obtain ⟨same, replacement, shifts⟩ := joins.failure starts
            exact ⟨by rw [same], ⟨by simpa using replacement, by simp⟩, shifts⟩

theorem Joins.copyChildren {depth : Nat} {children : List Child}
    (copies : ∀ {left right : Tree} {id : NodeId}, realm.Joins left right → realm.inside id →
      realm.Gives realm.inside left right (Tree.copy depth left id) (Tree.copy depth right id))
    (joins : realm.Joins left right) (inside : realm.inside id)
    (each : ∀ child ∈ children, realm.inside child.node) :
    realm.Shifts left right (Tree.copyChildren depth left id children)
      (Tree.copyChildren depth right id children) := by
  induction children generalizing left right with
  | nil =>
      rw [Tree.copyChildren, Tree.copyChildren]
      exact .refl joins
  | cons child rest ih =>
      rw [Tree.copyChildren, Tree.copyChildren]
      obtain ⟨same, inner, shifts⟩ := copies joins (each child (by simp))
      simp only [same]
      have pushed : realm.Shifts _ _
          ((Tree.copy depth left child.node).2.pushChild id child.label
            (Tree.copy depth left child.node).1)
          ((Tree.copy depth right child.node).2.pushChild id child.label
            (Tree.copy depth left child.node).1) :=
        shifts.joins.modify inside (fun _ => .refl _) fun admits => admits.push inner child.label
      exact (shifts.trans pushed).trans
        (ih pushed.joins fun other member => each other (List.mem_cons_of_mem _ member))

theorem Joins.copy {depth : Nat} (joins : realm.Joins left right) (inside : realm.inside id) :
    realm.Gives realm.inside left right (Tree.copy depth left id) (Tree.copy depth right id) := by
  induction depth generalizing left right id with
  | zero =>
      rw [Tree.copy, Tree.copy]
      exact joins.alloc ⟨realm.origin, by simp [default]⟩
  | succ depth ih =>
      rw [Tree.copy, Tree.copy, joins.get inside]
      have admits : realm.Admits {
          tag := (left.get id).tag, span := (left.get id).span, text := (left.get id).text } :=
        ⟨(joins.closed.admits inside).start, by simp⟩
      obtain ⟨same, top, shifts⟩ := joins.alloc admits
      refine ⟨same, top, shifts.trans ?_⟩
      simp only [same]
      exact shifts.joins.copyChildren ih top (joins.closed.admits inside).kids

theorem Joins.dup (joins : realm.Joins left right) (inside : realm.inside id) :
    realm.Gives realm.inside left right (left.dup id) (right.dup id) := by
  rw [Tree.dup, Tree.dup, joins.size]
  exact joins.copy inside

end Realm

end ScriptTyping
