import Mathlib.Data.List.Perm.Subperm
import Mathlib.Order.Preorder.Finite
import ScriptTyping.Proofs.Outcome.Reach

/-!
Failed statements in a checked tree. A sequence keeps its statements but for those that failed, and
each node that one of these left stands for an error of its own. The others were lost with the
statements around them, which failed later.
-/

namespace ScriptTyping

namespace Tree

structure IsFailed (tree : Tree) (id : NodeId) : Prop where
  tag : tree.tag id = .error
  ty : tree.ty? id = some .never
  done : (tree.get id).done = true

structure Reports (tree : Tree) (id : NodeId) (error : CheckError) : Prop where
  text : (tree.get id).text = some error.message
  span : tree.span id = error.span

/-- Whether a sequence has all the statements that it was loaded with, but for those that failed. One
that was copied has them at the positions that they were copied to, and all have the texts and the
spans of statements that were read. -/
structure Recovers (tree : Tree) (source : Option String) (stored : StoredNode) (id : NodeId) :
    Prop where
  loaded : id < (ofStored source stored).nodes.size →
    List.Forall₂ (fun kid statement => tree.IsFailed kid ∨ kid = statement) (tree.childIds id)
      ((ofStored source stored).childIds id)
  copied : ∃ sequence ∈ stored.all, sequence.tag = tree.tag id ∧
    List.Forall₂ (fun kid statement => tree.IsFailed kid ∨
      (tree.get kid).text = statement.text ∧ tree.span kid = statement.span) (tree.childIds id)
      sequence.children ∧
    List.Forall₂ (fun kid position => tree.IsFailed kid ∨ kid = position) (tree.childIds id)
      (StoredNode.positions (id + 1) sequence.children)

end Tree

/-- Whether the sequences of a checked tree have their statements, but for those that failed, and the
errors account for what these left. -/
structure Outcome.Recovers (outcome : Outcome) (source : Option String) (stored : StoredNode)
    (root : NodeId) : Prop where
  sequences : ∀ id, outcome.tree.Reaches root id → (outcome.tree.tag id).isSequence = true →
    outcome.tree.Recovers source stored id
  reports : ∃ place : NodeId → Nat,
    Set.InjOn place {id | outcome.tree.Reaches root id ∧ outcome.tree.tag id = .error} ∧
      ∀ id, outcome.tree.Reaches root id → outcome.tree.tag id = .error →
        ∃ error, outcome.errors[place id]? = some error ∧ outcome.tree.Reports id error
  fails : (∃ error ∈ outcome.errors, ∀ tag, error.cause ≠ .unsupportedConstruct tag) ↔
    ∃ id, outcome.tree.Reaches root id ∧ outcome.tree.tag id = .error

/-! ### Sequences -/

section Sequences

variable {premise : Premise} {first : Environment} {last : Moment} {returnType : Option Ty}
  {tree : Tree} {branch : Branch}

theorem Settled.recovers (settled : Settled premise first last returnType branch)
    (isSequence : branch.node.tag.isSequence = true) : branch.Recovers premise := by
  cases settled with
  | idle idle => exact idle.recovers isSequence
  | checked _ _ facts =>
      unfold Branch.Facts at facts
      cases isTag : branch.node.tag with
      | source | statementList | block => simpa only [isTag] using facts
      | _ => simp [isTag, Tag.isSequence] at isSequence

theorem Settled.done (settled : Settled premise first last returnType branch)
    (clean : premise.clean) (isError : branch.node.tag = .error) : branch.node.done = true := by
  cases settled with
  | idle idle => exact absurd isError (idle.clean clean)
  | checked _ _ facts =>
      unfold Branch.Facts at facts
      simp only [isError] at facts
      exact facts.2 clean

theorem Tree.Holds.isFailed (holds : tree.Holds branch) (failed : branch.IsFailed) :
    tree.IsFailed branch.id := by
  refine ⟨holds.tag_eq.trans failed.tag, holds.ty?_eq.trans failed.ty, ?_⟩
  rw [holds.get_eq]
  exact failed.done

theorem Tree.Holds.statements {α : Type} {others : List α} {isAs : Branch → α → Prop}
    {isSame : NodeId → α → Prop} (holds : tree.Holds branch)
    (same : ∀ kid other, tree.Holds kid → isAs kid other → isSame kid.id other)
    (kids : List.Forall₂ (fun kid other => kid.IsFailed ∨ isAs kid other) branch.kids others) :
    List.Forall₂ (fun kid other => tree.IsFailed kid ∨ isSame kid other)
      (tree.childIds branch.id) others := by
  rw [holds.childIds_eq, List.forall₂_map_left_iff]
  have both := (List.forall₂_and_left (p := tree.Holds) _ _).mpr
    ⟨fun kid member => holds.kid member, kids⟩
  exact both.imp fun kid other ⟨holdsKid, found⟩ =>
    found.imp holdsKid.isFailed (same kid other holdsKid)

end Sequences

/-! ### Errors -/

theorem ErrorCause.isFatal_iff (cause : ErrorCause) :
    cause.isFatal = true ↔ ∀ tag, cause ≠ .unsupportedConstruct tag := by
  cases cause <;> simp [isFatal]

theorem notesOf_ne_zero_iff {errors : List CheckError} : notesOf errors ≠ 0 ↔
    ∃ error ∈ errors, ∀ tag, error.cause ≠ .unsupportedConstruct tag := by
  simp [notesOf, List.filter_eq_nil_iff, ErrorCause.isFatal_iff]

theorem notesOf_le (errors : List CheckError) : notesOf errors ≤ (errors.map CheckError.note : List _) :=
  Multiset.coe_le.mpr (List.filter_sublist.map _).subperm

/-- What there is at some positions is matched by entries of a list at places of their own. -/
theorem exists_places {α β : Type} {ids : List NodeId} {entries : List α} {content : NodeId → β}
    {entry : α → β} (covered : (ids.map content).Subperm (entries.map entry)) :
    ∃ place : NodeId → Nat, Set.InjOn place {id | id ∈ ids} ∧
      ∀ id ∈ ids, ∃ found, entries[place id]? = some found ∧ entry found = content id := by
  obtain ⟨front, isFront, fewer⟩ := covered
  obtain ⟨embeds, isAt⟩ := List.sublist_iff_exists_orderEmbedding_getElem?_eq.mp fewer
  -- The positions in the front, in the order of the ids.
  have inOrder : List.Forall₂ (fun value position => front[position]? = some value) front
      (List.range front.length) := by
    refine List.forall₂_iff_get.mpr ⟨List.length_range.symm, fun position inFront _ => ?_⟩
    simp [inFront]
  obtain ⟨positions, isPosition, isRange⟩ := List.perm_comp_forall₂ isFront.symm inOrder
  have length : ids.length = positions.length := by
    rw [← isPosition.length_eq, List.length_map]
  have nodup : positions.Nodup := isRange.nodup_iff.mpr List.nodup_range
  have inRange : ∀ {id}, id ∈ ids → ids.idxOf id < positions.length := fun member =>
    length ▸ List.idxOf_lt_length_of_mem member
  refine ⟨fun id => embeds (positions.getD (ids.idxOf id) 0), ?_, ?_⟩
  · intro one isOne other isOther same
    have samePosition := embeds.injective same
    simp only [List.getD_eq_getElem?_getD, List.getElem?_eq_getElem, inRange isOne,
      inRange isOther, Option.getD_some] at samePosition
    exact (List.idxOf_inj isOne).mp (nodup.getElem_inj_iff.mp samePosition)
  · intro id member
    have isHere := (List.forall₂_iff_get.mp isPosition).2 (ids.idxOf id)
      (by simpa using List.idxOf_lt_length_of_mem member) (inRange member)
    simp only [List.get_eq_getElem, List.getElem_map, List.getElem_idxOf] at isHere
    rw [isAt, List.getElem?_map, Option.map_eq_some_iff] at isHere
    simpa only [List.getD_eq_getElem?_getD, List.getElem?_eq_getElem, inRange member,
      Option.getD_some] using isHere

def Tree.failures (tree : Tree) (branch : Branch) : List NodeId :=
  branch.ids.filter fun id => tree.tag id = .error

theorem Tree.mem_failures {tree : Tree} {branch : Branch} {id : NodeId} :
    id ∈ tree.failures branch ↔ id ∈ branch.ids ∧ tree.tag id = .error := by
  simp [failures]

/-- The notes of a branch are those of its nodes that failed statements left. -/
theorem Tree.Holds.notes_eq {tree : Tree} {branch : Branch} (holds : tree.Holds branch)
    (done : ∀ id ∈ tree.failures branch, (tree.get id).done = true) :
    branch.notes = ((tree.failures branch).map fun id => (tree.get id).note : List _) := by
  induction branch using Branch.induction with
  | mk branch ih =>
      have below : ∀ kids : List Branch, (∀ kid ∈ kids, kid ∈ branch.kids) →
          Branch.notesAll kids = (((kids.flatMap Branch.ids).filter fun id =>
            tree.tag id = .error).map fun id => (tree.get id).note : List _) := by
        intro kids areKids
        induction kids with
        | nil => rfl
        | cons kid rest ihRest =>
            have isKid := areKids kid List.mem_cons_self
            have doneKid : ∀ id ∈ tree.failures kid, (tree.get id).done = true := by
              intro id inside
              obtain ⟨inKid, isError⟩ := mem_failures.mp inside
              exact done id (mem_failures.mpr ⟨Branch.ids_subset isKid inKid, isError⟩)
            rw [Branch.notesAll, ih kid isKid (holds.kid isKid) doneKid,
              ihRest fun other member => areKids other (List.mem_cons_of_mem _ member),
              List.flatMap_cons, List.filter_append, List.map_append, ← Multiset.coe_add]
            rfl
      rw [Branch.notes_eq, below branch.kids fun _ member => member, failures, Branch.ids_eq]
      by_cases isError : branch.node.tag = .error
      · have isDone : branch.node.done = true := by
          rw [← holds.get_eq]
          exact done _ (mem_failures.mpr ⟨branch.id_mem_ids, holds.tag_eq.trans isError⟩)
        rw [List.filter_cons_of_pos (by simpa [holds.tag_eq] using isError), List.map_cons,
          holds.get_eq, Node.notes, if_pos ⟨isError, isDone⟩]
        rfl
      · rw [List.filter_cons_of_neg (by simpa [holds.tag_eq] using isError),
          Node.notes_other isError, zero_add]

/-! ### Checked trees -/

section Checked

variable {premise : Premise} {start : Environment} {outcome : Outcome} {events : List Event}
  {top : Branch} {id : NodeId}

theorem Outcome.Settles.mem_failures (settles : outcome.Settles premise start events top) :
    id ∈ outcome.tree.failures top ↔
      outcome.tree.Reaches top.id id ∧ outcome.tree.tag id = .error :=
  Tree.mem_failures.trans <| and_congr_left fun _ =>
    ⟨settles.stands.holds.reaches, (·.mem_ids settles.stands.holds)⟩

theorem Outcome.Settles.notes_eq (settles : outcome.Settles premise start events top)
    (clean : premise.clean) : top.notes =
      ((outcome.tree.failures top).map fun id => (outcome.tree.get id).note : List _) := by
  refine settles.stands.holds.notes_eq fun id inside => ?_
  obtain ⟨reaches, isError⟩ := settles.mem_failures.mp inside
  obtain ⟨_, below, rfl, holds, settled⟩ := settles.reached settles.root reaches
  rw [holds.get_eq]
  exact settled.done clean (holds.tag_eq.symm.trans isError)

/-- What failed statements left is covered by errors, and some of it is there if one was fatal. -/
theorem Outcome.Settles.balance (settles : outcome.Settles premise start events top)
    (clean : premise.clean) :
    ((outcome.tree.failures top).map fun id => (outcome.tree.get id).note).Subperm
        (outcome.errors.map CheckError.note) ∧
      (notesOf outcome.errors ≠ 0 ↔ outcome.tree.failures top ≠ []) := by
  obtain ⟨errors, same, covered, kept⟩ := settles.accounts
  rw [List.nil_append] at same
  rw [zero_add, ← same, settles.notes_eq clean] at covered kept
  refine ⟨Multiset.coe_le.mp (covered.trans (notesOf_le _)), fun some none => ?_,
    fun some none => some ?_⟩
  · exact kept some (by rw [none]; rfl)
  · simpa [none] using covered

end Checked

def Premise.recovering (source : Option String) (stored : StoredNode) : Premise where
  plain := False
  lone := False
  tidy := False
  aside := fun _ => True
  clean := True
  known := fun tag statements => ∃ sequence ∈ stored.all,
    sequence.tag = tag ∧ sequence.children = statements
  loaded := .ofStored source stored

namespace Tree

theorem Holds.recovers {tree : Tree} {branch : Branch} {source : Option String}
    {stored : StoredNode} (holds : tree.Holds branch)
    (recovers : branch.Recovers (.recovering source stored)) :
    tree.Recovers source stored branch.id := by
  obtain ⟨⟨_, ⟨sequence, inside, isTag, rfl⟩, copied, places⟩, loaded⟩ := recovers
  refine ⟨fun isLoaded => ?_, sequence, inside, isTag.trans holds.tag_eq.symm, ?_, ?_⟩
  · exact holds.statements (fun _ _ _ same => same) (loaded isLoaded)
  · refine holds.statements (fun kid statement holdsKid same => ?_) copied
    rw [span, holdsKid.get_eq]
    exact Prod.mk.inj same
  · exact holds.statements (fun _ _ _ same => same) places

/-- In a checked tree each sequence has its statements but for those that failed, and what these left
stands for errors of its own, if nothing was left in the tree before. Some of it is there whenever an
error was found that ended a statement. -/
theorem check_recovers {environment : Environment} {source : Option String} {stored : StoredNode}
    {outcome : Outcome} (clean : ∀ node ∈ stored.all, node.tag ≠ .error)
    (checked : (ofStored source stored).check environment = .ok outcome) :
    ∃ root, outcome.tree.root = some root ∧ outcome.Recovers source stored root := by
  have allows : ∀ node ∈ stored.all, (Premise.recovering source stored).Allows node :=
    fun node inside => ⟨False.elim, False.elim, False.elim, fun _ _ => trivial,
      fun _ => clean node inside, fun _ => ⟨node, inside, rfl, rfl⟩, fun _ => trivial⟩
  have settles := check_settles allows source (.inr rfl) environment
  rw [checked] at settles
  obtain ⟨events, top, logged, settles⟩ := settles
  obtain ⟨covered, left⟩ := settles.balance trivial
  refine ⟨top.id, settles.root, ?_, ?_, ?_⟩
  · intro id reaches isSequence
    obtain ⟨_, below, rfl, holds, settled⟩ := settles.reached settles.root reaches
    rw [holds.tag_eq] at isSequence
    exact holds.recovers (settled.recovers isSequence)
  · obtain ⟨place, apart, isAt⟩ := exists_places covered
    have isDomain : {id | id ∈ outcome.tree.failures top} =
        {id | outcome.tree.Reaches top.id id ∧ outcome.tree.tag id = .error} :=
      Set.ext fun _ => settles.mem_failures
    refine ⟨place, isDomain ▸ apart, fun id reaches isError => ?_⟩
    obtain ⟨error, found, same⟩ := isAt id (settles.mem_failures.mpr ⟨reaches, isError⟩)
    obtain ⟨text, span⟩ := Prod.mk.inj same
    exact ⟨error, found, text.symm, span.symm⟩
  · rw [← notesOf_ne_zero_iff, left, Ne, List.eq_nil_iff_forall_not_mem, not_forall_not]
    exact exists_congr fun _ => settles.mem_failures

end Tree

/-- A block with a failed statement that is lost when the negation around it fails, and one that is
not lost. -/
def StoredNode.losing : StoredNode :=
  let unknown := mk none .name (some "nope") .nowhere []
  let text := mk none .text (some "text") .nowhere []
  mk none .source none .nowhere [
    mk none .negation none .nowhere [mk (some .expr) .block none .nowhere [unknown, text]],
    mk none .block none .nowhere [text, unknown]]

/-- Three errors are found, and two of them left something. -/
theorem Tree.check_recovers_losing : ∃ outcome,
    (ofStored none .losing).check (.ofOptions {}) = .ok outcome ∧ outcome.errors.length = 3 ∧
      outcome.tree.childIds 0 = [9, 5] ∧ outcome.tree.childIds 5 = [6, 10] ∧
      outcome.Recovers none .losing 0 := by
  let test (outcome : Outcome) : Bool := decide (outcome.tree.root = some 0 ∧
    outcome.errors.length = 3 ∧ outcome.tree.childIds 0 = [9, 5] ∧
    outcome.tree.childIds 5 = [6, 10])
  have run : ((ofStored none .losing).check (.ofOptions {})).toOption.any test = true := by
    decide +kernel
  obtain ⟨outcome, checked, holds⟩ := exists_outcome run
  obtain ⟨isRoot, found, front, back⟩ := of_decide_eq_true holds
  obtain ⟨root, isTop, recovers⟩ := check_recovers (by decide) checked
  obtain rfl : root = 0 := Option.some.inj (isTop.symm.trans isRoot)
  exact ⟨outcome, checked, found, front, back, recovers⟩

end ScriptTyping
