import ScriptTyping.Check.Cast
import ScriptTyping.Proofs.Rule.Lookup

/-!
Written casts and type tests.
-/

namespace ScriptTyping

namespace Rule

open Check

variable {premise : Premise} {calm : Calm} {first : Environment}
  {unseen : Nat → Option Label → Prop} {old : CheckState} {branch kid : Branch} {visit : Visit}
  {tag : Tag} {index : Nat}

/-- A written cast keeps nothing but its operand, which has all notes, and is a conversion to its
type. -/
theorem kept_yields (newTag : Tag) {β : Type} {next : Unit → Check β} {post : β → CheckState → Branch → Prop}
    (isOpen : Open premise calm first unseen old branch) (isKid : branch.Kid .expr index kid)
    (silent : ∀ position other, branch.kids[position]? = some other → position ≠ index →
      other.notes = 0)
    {alters : Tree → Tree} (inside : { branch.node with tag := newTag }.Inside)
    (alters_eq : alters old.tree = old.tree.modify branch.id fun node =>
      { node with tag := newTag, children := [⟨some .expr, kid.id⟩] })
    (rest : ∀ new after, Open premise calm first (fun _ _ => False) new after →
      after.id = branch.id → after.node.tag = newTag → after.kids = [kid] →
      new.environment = old.environment → (next ()).Yields calm new after post) :
    (modifyTree alters >>= next).Yields calm old branch post := by
  have parts : Parts premise first old old.tree branch [kid] :=
    (Parts.ofOpen isOpen).pick _ (List.nodup_singleton index) (.cons isKid.found .nil)
      (by simpa using silent)
  have children : [(⟨some .expr, kid.id⟩ : Child)] = [kid].map Branch.child := by
    simp only [List.map_cons, List.map_nil, Branch.child, isKid.label]
  refine .bindRearrange isOpen parts alters_eq children rfl
    (inside.alike rfl rfl) ?_
  intro new opens environment _
  exact rest new _ opens rfl rfl rfl environment

/-- Once the type of a cast was read and its operand visited, the operand has all notes. -/
theorem operand_silent {written : Branch} {place : Nat}
    (isOpen : Open premise calm first (Unseen [.expr, .type]) old branch)
    (isKid : branch.Kid .expr index kid) (isWritten : branch.Kid .type place written)
    (silent : written.notes = 0) :
    ∀ position other, branch.kids[position]? = some other → position ≠ index → other.notes = 0 := by
  intro position other isHere different
  by_cases isType : position = place
  · subst isType
    rw [isWritten.found, Option.some.injEq] at isHere
    exact isHere ▸ silent
  · refine isOpen.others_silent (.cons ⟨_, isKid⟩ (.cons ⟨_, isWritten⟩ .nil)) _ _ isHere ?_
    simp [different, isType]

theorem cast_yields (visits : Visits premise visit)
    (isOpen : Open premise calm first (Unseen []) old branch) (isTag : branch.node.tag = .cast)
    (unbound : branch.node.binding = .unbound)
    (aside : ∀ index kid, branch.Kid .type index kid → premise.aside kid.node.tag) :
    (cast visit branch.id).Yields calm old branch (Ruled premise first) := by
  refine .bindRequired isOpen.stands ?_
  intro place written isWritten
  refine .bindWritten isOpen isWritten (by decide) (aside place written isWritten) ?_
  intro target new _ _ _ opens
  refine .bindRequiredSlot opens.stands ?_
  intro index kid isKid
  refine .bindOccupant opens.stands isKid.found (.bindVisitKid visits opens isKid (by decide) ?_)
  intro found later newKid becomes typed opensLater
  have isKidLater := isKid.setKid_self becomes.turns.label
  have sameId : kid.id = newKid.id := becomes.turns.id.symm
  have isWrittenLater := (@Branch.Kid.setKid_self _ _ (written.typed target) _ _ isWritten rfl).setKid_other
    isKid.found becomes.turns.label (isKid.ne (isWritten.setKid_self rfl) (by decide))
  have silent := operand_silent opensLater isKidLater isWrittenLater ((Branch.notes_alter rfl).trans
    (isOpen.silent isWritten.found (unseen_kid isWritten (by decide))))
  have converts : ∀ after : Branch, after.kids = [newKid] → (after.typed target).Converts found target :=
    fun after kids => ⟨newKid, kids, isKidLater.label, typed, rfl⟩
  refine .bindRead opensLater.stands ?_
  rw [sameId]
  have top : ((branch.setKid place (written.typed target)).setKid index newKid).id = branch.id := rfl
  split
  · rename_i entry isEntry
    have inTable : CastEntry.find? found target = some entry := by
      rcases Option.or_eq_some_iff.mp isEntry with casts | ⟨_, converts⟩
      · exact (Option.filter_eq_some_iff.mp casts).1
      · exact (Option.filter_eq_some_iff.mp converts).1
    refine kept_yields .cast opensLater isKidLater silent
      (opensLater.inside.alike isTag.symm rfl) ?_ ?_
    · refine later.tree.modify_congr ?_
      have sameTag : (later.tree.get branch.id).tag = .cast := by
        rw [← top, opensLater.stands.holds.get_eq]
        exact isTag
      simp only [List.map_cons, List.map_nil, sameTag]
    · intro last after opensLast id isCast kids environment
      rw [← top, ← id]
      refine .bindModify opensLast rfl rfl
        (opensLast.inside.calling (by rw [isCast]; rfl) _ _ _) ?_
      intro final opensFinal _ _
      refine .pure opensFinal.stands (opensFinal.close ?_)
      unfold Branch.Facts
      simp only [Branch.typed, Branch.node_alter, isCast]
      exact ⟨found, target, entry, converts after kids, inTable, rfl⟩
  · split
    · rename_i assignable
      refine kept_yields .upCast opensLater isKidLater silent
        (.ofUnbound (by simp) (by simp) unbound) ?_ ?_
      · exact later.tree.modify_modify branch.id _ _
      · intro last after opensLast _ isUp kids environment
        refine .pure opensLast.stands (opensLast.close ?_)
        unfold Branch.Facts
        simp only [Branch.typed, Branch.node_alter, isUp]
        exact fun _ => ⟨found, target, converts after kids, by rw [environment]; exact assignable⟩
    · split
      · rename_i allowed
        refine kept_yields .downCast opensLater isKidLater silent
          (.ofUnbound (by simp) (by simp) unbound) ?_ ?_
        · exact later.tree.modify_modify branch.id _ _
        · intro last after opensLast _ isDown kids environment
          refine .pure opensLast.stands (opensLast.close ?_)
          unfold Branch.Facts
          simp only [Branch.typed, Branch.node_alter, isDown]
          rw [Bool.or_eq_true] at allowed
          exact fun _ => ⟨found, target, converts after kids, by rw [environment]; exact allowed.symm⟩
      · exact .failAt opensLater.stands _ rfl

theorem instanceOf_yields (visits : Visits premise visit)
    (isOpen : Open premise calm first (Unseen []) old branch) (isTag : branch.node.tag = tag)
    (free : tag.isFree = true)
    (aside : ∀ index kid, branch.Kid .right index kid → premise.aside kid.node.tag) :
    (instanceOf visit branch.id).Yields calm old branch (Ruled premise first) := by
  refine .bindRequired isOpen.stands ?_
  intro index kid isKid
  refine .bindVisitKid visits isOpen isKid (by decide) ?_
  intro found new newKid becomes _ opens
  refine .bindRequired opens.stands ?_
  intro place written isWritten
  have wasWritten := isWritten.of_setKid isKid becomes.turns.label (by decide)
  refine .bindWritten opens isWritten (by decide) (aside place written wasWritten) ?_
  intro target later _ _ _ opensLater
  refine .bindRead opensLater.stands ?_
  split
  · exact .pure opensLater.stands (opensLater.closeFree isTag free)
  · refine .bindWarnAt opensLater ?_
    intro last opensLast _ _
    refine .bindModify opensLast rfl rfl ((opensLast.inside.rebind rfl).alike rfl rfl) ?_
    intro final opensFinal _ _
    exact .pure opensFinal.stands (opensFinal.closeFree isTag free)

end Rule

end ScriptTyping
