import Mathlib.Data.List.Perm.Subperm
import ScriptTyping.Proofs.Outcome.Frame

/-!
Checking a loaded tree comes to an end. Whatever the environment, each child is where it is looked
for, each scope that is closed is open, and the line and the column of a node that starts within the
source fit 32 bits.
-/

namespace ScriptTyping

/-! ### Lines and columns -/

theorem lt_of_mem_lineStartsFrom {offset start : Nat} {chars : List Char}
    (member : start ∈ lineStartsFrom offset chars) : offset < start := by
  induction chars generalizing offset with
  | nil => simp [lineStartsFrom] at member
  | cons char rest ih =>
      have size := char.utf8Size_pos
      rw [lineStartsFrom] at member
      have later : start ∈ lineStartsFrom (offset + char.utf8Size) rest → offset < start :=
        fun inRest => Nat.lt_of_le_of_lt (Nat.le_add_right _ _) (ih inRest)
      split at member
      · rcases List.mem_cons.mp member with rfl | inRest
        · omega
        · exact later inRest
      · exact later member

theorem nodup_lineStartsFrom (offset : Nat) (chars : List Char) :
    (lineStartsFrom offset chars).Nodup := by
  induction chars generalizing offset with
  | nil => exact List.nodup_nil
  | cons char rest ih =>
      rw [lineStartsFrom]
      split
      · refine List.nodup_cons.mpr ⟨fun again => ?_, ih _⟩
        exact Nat.lt_irrefl _ (lt_of_mem_lineStartsFrom again)
      · exact ih _

namespace LineIndex

def Locates (index : LineIndex) (offset : Nat) : Prop :=
  ∃ line start, index.starts[line]? = some start ∧ start ≤ offset ∧
    index.position? offset = some (line + 1, offset - start + 1) ∧
    line + 1 < 2 ^ 32 ∧ offset - start + 1 < 2 ^ 32

/-- No more lines start up to an offset than there are offsets. -/
theorem ofSource_locates (text : String) {offset : Nat} (bound : offset + 1 < 2 ^ 32) :
    (ofSource text).Locates offset := by
  let before := (lineStartsFrom 0 text.toList).takeWhile (· ≤ offset)
  have reached : (ofSource text).starts.takeWhile (· ≤ offset) = 0 :: before := by
    simp [ofSource, before]
  have isBefore : ∀ start ∈ 0 :: before, start ≤ offset := by
    intro start member
    rw [← reached] at member
    exact of_decide_eq_true (List.all_eq_true.mp List.all_takeWhile start member)
  have nodup : (0 :: before).Nodup := by
    refine List.nodup_cons.mpr ⟨fun again => ?_, ?_⟩
    · exact Nat.lt_irrefl _ (lt_of_mem_lineStartsFrom (List.takeWhile_subset _ again))
    · exact (List.takeWhile_sublist _).nodup (nodup_lineStartsFrom 0 text.toList)
  -- the line starts up to an offset are different numbers, so that their count is bounded by it
  have few : before.length + 1 ≤ offset + 1 := by
    have inRange : 0 :: before ⊆ List.range (offset + 1) := fun start member =>
      List.mem_range.mpr (Nat.lt_succ_of_le (isBefore start member))
    simpa using (List.subperm_of_subset nodup inRange).length_le
  let last := (0 :: before).getLast (List.cons_ne_nil _ _)
  have isLast : last ≤ offset := isBefore last (List.getLast_mem _)
  refine ⟨before.length, last, ?_, isLast, ?_, by omega, by omega⟩
  · obtain ⟨_, whole⟩ : 0 :: before <+: (ofSource text).starts :=
      reached ▸ List.takeWhile_prefix _
    rw [← whole, List.getElem?_append_left (by simp), ← List.getLast?_eq_some_getLast,
      List.getLast?_eq_getElem?]
    simp
  · have found : (0 :: before).getLastD 0 = last := by
      rw [List.getLastD_eq_getLast?, List.getLast?_eq_some_getLast (List.cons_ne_nil _ _)]
      rfl
    have fits : before.length + 1 < 2 ^ 32 ∧ offset - last + 1 < 2 ^ 32 := by omega
    simp only [position?, position, reached, found, List.length_cons]
    exact if_pos fits

end LineIndex

/-- Whether a span starts within a text, or just after one that could be longer. -/
def Span.StartsIn (span : Span) (text : String) : Prop :=
  span.start < text.utf8ByteSize ∨
    span.start = text.utf8ByteSize ∧ text.utf8ByteSize + 1 < 2 ^ 32

/-! ### Arities -/

theorem Member.arity_pos {member : Member} {element : Ty}
    (variadic : member.variadicElement? = some element) : 0 < member.arity := by
  rw [variadicElement?] at variadic
  split at variadic
  · obtain ⟨last, isLast, _⟩ := Option.bind_eq_some_iff.mp variadic
    exact List.length_pos_of_mem (List.mem_of_getLast? isLast)
  · simp at variadic

/-! ### Checking -/

namespace Tree

section Located

variable {tree : Tree} {branch : Branch} {id : NodeId} {starts : Nat → Prop}

theorem Holds.mem_stored (holds : tree.Holds branch) (inside : id ∈ branch.ids) :
    ∃ node ∈ branch.stored.all, node.span = tree.span id := by
  induction branch using Branch.induction with
  | mk branch ih =>
      rw [Branch.ids_eq, List.mem_cons, List.mem_flatMap] at inside
      rcases inside with rfl | ⟨kid, isKid, below⟩
      · refine ⟨branch.stored, branch.stored.mem_all_self, ?_⟩
        rw [span, holds.get_eq, Branch.stored_eq]
        rfl
      · obtain ⟨node, isNode, same⟩ := ih kid isKid (holds.kid isKid) below
        refine ⟨node, StoredNode.all_subset ?_ isNode, same⟩
        rw [Branch.children_stored]
        exact List.mem_map_of_mem isKid

/-- Checking does not stop where all nodes start at offsets with a line and a column: new nodes
start where old ones do, or at the beginning. -/
theorem Stands.check_located (stands : tree.Stands branch) (isRoot : tree.root = some branch.id)
    (origin : starts 0) (placed : ∀ id ∈ branch.ids, starts (tree.span id).start)
    (located : ∀ text start, tree.source = some text → starts start →
      (LineIndex.ofSource text).Locates start) (environment : Environment) :
    ∃ outcome, tree.check environment = .ok outcome := by
  have ends := stands.check_stands isRoot environment
  let realm := Realm.below tree [branch.id] starts origin
  have joins : realm.Joins tree tree := by
    refine Realm.below_joins fun top isTop id reaches => placed id ?_
    rw [List.mem_singleton.mp isTop] at reaches
    exact reaches.mem_ids stands.holds
  have inside : realm.inside branch.id := .inr ⟨_, List.mem_singleton_self _, .refl _⟩
  have runs := (visit_agrees (Nat.le_refl tree.visitDepth) inside).ends { tree, environment }
    { tree, environment } ⟨joins, rfl, rfl⟩
  cases checked : tree.check environment with
  | ok outcome => exact ⟨outcome, rfl⟩
  | error fault =>
      rw [checked] at ends
      subst ends
      rw [check_eq isRoot] at checked
      split at checked
      · rename_i fault stopped
        rw [Except.error.inj checked] at stopped
        rw [stopped] at runs
        cases runs with
        | stops allowed =>
            obtain ⟨text, start, isSource, isStart, overflow⟩ := allowed
            obtain ⟨_, _, _, _, found, _⟩ := located text start isSource isStart
            rw [overflow] at found
            simp at found
      · cases checked
      · cases checked

end Located

theorem ofStored_source (source : Option String) (stored : StoredNode) :
    (ofStored source stored).source = source := by
  obtain ⟨_, builds⟩ := load_builds { source } stored
  exact builds.adds.source

/-- Whatever the environment, checking a loaded tree comes to an end if its nodes start within the
source: no child, argument or scope is missing where a rule counts on it. A member that takes up all
further arguments has a parameter for them, and an offset within the source has a line and a
column. -/
theorem check_completes {source : Option String} {stored : StoredNode}
    (short : ∀ text, source = some text → text.utf8ByteSize < 2 ^ 32)
    (placed : ∀ text, source = some text → ∀ node ∈ stored.all, node.span.StartsIn text) :
    (∀ environment, ∃ outcome, (ofStored source stored).check environment = .ok outcome) ∧
    (∀ (member : Member) element, member.variadicElement? = some element → 0 < member.arity) ∧
    ∀ text, source = some text → ∀ span : Span, span.StartsIn text →
      (LineIndex.ofSource text).Locates span.start := by
  have bound : ∀ text, source = some text → ∀ span : Span, span.StartsIn text →
      span.start + 1 < 2 ^ 32 := by
    rintro text isSource span (within | ⟨atEnd, longer⟩)
    · have := short text isSource
      omega
    · omega
  refine ⟨fun environment => ?_, fun _ _ => Member.arity_pos, fun text isSource span within =>
    LineIndex.ofSource_locates text (bound text isSource span within)⟩
  obtain ⟨branch, isRoot, stands, rfl, _⟩ := ofStored_stands source stored
  have isSource := ofStored_source source branch.stored
  let starts (start : Nat) : Prop := ∀ text, source = some text → start + 1 < 2 ^ 32
  have origin : starts 0 := fun _ _ => by omega
  refine stands.check_located isRoot origin ?_ ?_ environment
  · intro id inside text known
    obtain ⟨node, isNode, same⟩ := stands.holds.mem_stored inside
    exact same ▸ bound text known node.span (placed text known node isNode)
  · intro text start known isStart
    exact LineIndex.ofSource_locates text (isStart text (isSource ▸ known))

end Tree

def StoredNode.asserting : StoredNode :=
  mk none .source none ⟨1, 12⟩ [
    mk none .assertion none ⟨1, 12⟩ [mk (some .cond) .trueValue none ⟨8, 12⟩ []]]

/-- The assertion is checked, and its condition has a line and a column. -/
theorem Tree.check_completes_asserting :
    (∃ outcome, (ofStored (some "\nassert true") .asserting).check (.ofOptions {}) =
      .ok outcome) ∧ (LineIndex.ofSource "\nassert true").Locates 8 := by
  have size : "\nassert true".utf8ByteSize = 12 := by decide
  have early : ∀ node ∈ StoredNode.asserting.all, node.span.start < 12 := by decide
  have short : ∀ text, some "\nassert true" = some text → text.utf8ByteSize < 2 ^ 32 := by
    intro text same
    rw [← Option.some.inj same]
    omega
  have placed : ∀ text, some "\nassert true" = some text →
      ∀ node ∈ StoredNode.asserting.all, node.span.StartsIn text := by
    intro text same node inside
    rw [← Option.some.inj same]
    exact .inl (size ▸ early node inside)
  obtain ⟨completes, _, locates⟩ := check_completes short placed
  exact ⟨completes _, locates _ rfl ⟨8, 12⟩ (.inl (by rw [size]; decide))⟩

end ScriptTyping
