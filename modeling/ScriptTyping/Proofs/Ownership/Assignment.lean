import ScriptTyping.Proofs.Ownership.Declaration

/-!
The rules for assignments stay within the place at which they work, also where parts of the target
move up into the assignment or a copy of the target becomes an operand.
-/

namespace ScriptTyping

namespace Rule

open Check

variable {site : Site} {now : Tree} {visit : Visit} {target receiver indices value : NodeId}

theorem aside_declareImplicit (target : NodeId) : Aside (declareImplicit target) := by
  refine aside_environment.bind fun environment => aside_scopes.bind fun scopes => ?_
  refine (aside_read _).bind fun tag => ?_
  split
  · refine (aside_textOf target).bind fun name => ?_
    split
    · split
      · exact aside_setEnvironment _
      · exact aside_pure _
    · exact aside_pure _
  · exact aside_pure _

/-! ### Stores through an indexer -/

theorem indexed_parts (keeps : site.Keeps now)
    (isTarget : now.child? site.id .left = some target)
    (isValue : now.child? site.id .right = some value)
    (isReceiver : receiver ∈ now.childIds target) (isIndices : indices ∈ now.childIds target)
    (different : receiver ≠ indices) :
    site.Parts now (receiver :: (now.childIds indices ++ [value])) := by
  have both : site.Parts now ([] ++ target :: [value]) := by
    refine keeps.pick (by simpa using keeps.distinct isTarget isValue (by decide)) ?_
    simp [Tree.mem_childIds_of_child? isTarget, Tree.mem_childIds_of_child? isValue]
  have opened := both.unfold
  have apart : ∀ kid ∈ now.childIds target, kid ≠ value := by
    have nodup := opened.nodup
    rw [List.nil_append, List.nodup_append] at nodup
    exact fun kid member => nodup.2.2 kid member value (by simp)
  have three : site.Parts now ([receiver] ++ indices :: [value]) := by
    refine opened.some (List.subperm_of_subset ?_ ?_)
    · simp [different, apart receiver isReceiver, apart indices isIndices]
    · simp [isReceiver, isIndices]
  exact three.unfold

/-- A store through an indexer takes its receiver, and a list of the indices and the value. -/
theorem indexed_keeps {items : List NodeId} (keeps : site.Keeps now)
    (parts : site.Parts now ([receiver] ++ (items ++ []))) :
    let made := (now.sequence .list items).2.make site.id
      [(.recv, receiver), (.param, (now.sequence .list items).1)]
    site.Keeps made ∧ made.child? site.id .recv = some receiver ∧
      site.Listed made (now.sequence .list items).1 (made.slots (now.sequence .list items).1) := by
  intro made
  have grown : site.Keeps (now.sequence .list items).2 := keeps.adds (now.alloc_adds _)
  have sameItems : (items.map fun item => (⟨none, item⟩ : Child)).map Child.node = items := by
    rw [List.map_map]
    exact List.map_id items
  have keepsMade : site.Keeps made :=
    grown.rearrange (parts.group keeps sameItems (.inr rfl)) rfl rfl grown.single
  have top : made.get site.id = { (now.sequence .list items).2.get site.id with
      children := [⟨some .recv, receiver⟩, ⟨some .param, (now.sequence .list items).1⟩] } :=
    Tree.get_modify_self _ _ grown.bound
  refine ⟨keepsMade, by rw [Tree.child?, top]; rfl, by rw [Tree.child?, top]; rfl, ?_,
    made.slotted_slots _⟩
  have isNew : (now.sequence .list items).1 ≠ site.id := Nat.ne_of_gt keeps.bound
  have same : made.get (now.sequence .list items).1 =
      (now.sequence .list items).2.get (now.sequence .list items).1 :=
    Tree.get_modify_other _ _ isNew
  rw [Tree.tag, same]
  exact congrArg Node.tag (now.get_alloc_new _)

theorem storeIndexed_stays (masters : Masters site.room visit) (keeps : site.Keeps now)
    (isTarget : now.child? site.id .left = some target) (isIndexer : now.tag target = .indexer) :
    Stays site (storeIndexed visit site.id target) now := by
  have member := Tree.mem_childIds_of_child? isTarget
  refine .bindRequired keeps fun receiver isReceiver => ?_
  have gathered : Works site (argumentList target) now fun indices tree =>
      site.Spares target now tree ∧ indices ∈ tree.childIds target ∧
        receiver ∈ tree.childIds target ∧ receiver ≠ indices := by
    refine .within keeps member (by rw [isIndexer]; rfl) fun inner same keeps _ => ?_
    subst same
    refine (argumentList_works keeps).mono fun indices tree keeps gathers => ⟨gathers.kind, ?_⟩
    rw [← gathers.others (by decide)] at isReceiver
    exact ⟨Tree.mem_childIds_of_child? gathers.found, Tree.mem_childIds_of_child? isReceiver,
      keeps.distinct isReceiver gathers.found (by decide)⟩
  refine .bind gathered fun indices tree keeps ⟨spares, isIndices, isReceiver, different⟩ => ?_
  rw [← spares.child?] at isTarget
  refine .bindRequired keeps fun value isValue => .bindChildIds (.bindBuild ?_)
  have parts : site.Parts tree ([receiver] ++ ((tree.childIds indices ++ [value]) ++ [])) := by
    rw [List.append_nil]
    exact indexed_parts keeps isTarget isValue isReceiver isIndices different
  obtain ⟨keepsMade, madeReceiver, listed⟩ := indexed_keeps keeps parts
  exact .bindModify (accessor_stays masters keepsMade listed madeReceiver "set" _ _ _)

/-! ### Stores into fields -/

theorem storeDynamic_stays (masters : Masters site.room visit) (keeps : site.Keeps now)
    (isTarget : now.child? site.id .left = some target) :
    Stays site (storeDynamic visit site.id target) now := by
  rw [storeDynamic_eq]
  refine .bindChildIds (.bind (enforce_works masters keeps .right .object) ?_)
  intro value tree keeps swaps
  have same := swaps.nodes (by decide) isTarget
  rw [← swaps.others (by decide)] at isTarget
  have both : site.Parts tree ([] ++ target :: [value]) := by
    refine keeps.pick (by simpa using keeps.distinct isTarget swaps.found (by decide)) ?_
    simp [Tree.mem_childIds_of_child? isTarget, swaps.mem]
  have parts : site.Parts tree (now.childIds target ++ [value]) := by
    rw [Tree.childIds, ← same]
    exact both.unfold
  exact flattenBound_stays keeps parts _

theorem storeMember_stays (keeps : site.Keeps now)
    (isTarget : now.child? site.id .left = some target) (member : MemberId) :
    Stays site (storeMember site.id target member) now := by
  refine .bindAside aside_environment fun environment => ?_
  dsimp only
  split
  · exact .failAt keeps target _
  · split
    · refine .bindChild? ?_
      split
      · rename_i receiver isReceiver
        obtain ⟨index, isIndex, found⟩ := Node.indexOf?_of_child? isTarget
        refine modifyTree_stays (Site.Keeps.relabel ?_ .left .recv)
        rw [Tree.setChild_of_indexOf? isIndex]
        exact keeps.hoist found (Tree.mem_childIds_of_child? isReceiver)
      · exact .pure keeps trivial
    · exact .pure keeps trivial

theorem bindPlace_stays (keeps : site.Keeps now) (place : FieldTarget) :
    Stays site (bindPlace site.id place) now :=
  .bind (modifyTree_stays (keeps.relabel .right .expr)) fun _ _ keeps _ =>
    (setBinding_works keeps _).stays

theorem bindStore_stays (keeps : site.Keeps now)
    (isTarget : now.child? site.id .left = some target) :
    Stays site (bindStore site.id target) now := by
  refine .bindAside (aside_read _) fun binding => ?_
  split
  · rename_i place
    cases place with
    | member member =>
        exact .bind (storeMember_stays keeps isTarget member) fun _ _ keeps _ =>
          bindPlace_stays keeps _
    | global globalId => exact bindPlace_stays keeps _
  · exact .pure keeps trivial

theorem assign_stays (masters : Masters site.room visit) (keeps : site.Keeps now) :
    Stays site (assign visit site.id) now := by
  refine .bindRequired keeps fun target isTarget => ?_
  refine .bindAside (aside_declareImplicit target) fun _ => .bindTag ?_
  split
  · rename_i isIndexer
    exact storeIndexed_stays masters keeps isTarget isIndexer
  · refine .bind (.check masters keeps (Tree.mem_childIds_of_child? isTarget)) ?_
    intro ty tree keeps spares
    rw [← spares.child?] at isTarget
    have aside : Aside (isDynamicRead target) := by
      refine (aside_read _).bind fun binding => ?_
      split <;> exact aside_pure _
    refine .bindAside aside fun isRead => ?_
    split
    · exact storeDynamic_stays masters keeps isTarget
    · refine .bind (enforce_works masters keeps .right ty) fun _ tree keeps swaps => ?_
      rw [← swaps.others (by decide)] at isTarget
      exact .bind (bindStore_stays keeps isTarget) fun _ _ keeps _ => .pure keeps trivial

end Rule

end ScriptTyping
