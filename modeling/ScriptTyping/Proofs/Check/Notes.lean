import Mathlib.Data.Multiset.OrderedMonoid
import ScriptTyping.Finding.Basic
import ScriptTyping.Proofs.Syntax.Stored

/-!
Accounts of failures. A failed statement leaves a node with the text and the span of its error, and
the error is recorded. Such a node may be lost again when the statement around it fails, but then
that statement leaves one.
-/

namespace ScriptTyping

def ErrorCause.isFatal : ErrorCause → Bool
  | unsupportedConstruct _ => false
  | _ => true

def CheckError.note (error : CheckError) : Option String × Span := (some error.message, error.span)

def notesOf (errors : List CheckError) : Multiset (Option String × Span) :=
  ((errors.filter (·.cause.isFatal)).map CheckError.note : List _)

@[simp]
theorem notesOf_nil : notesOf [] = 0 := rfl

@[simp]
theorem notesOf_append (errors more : List CheckError) :
    notesOf (errors ++ more) = notesOf errors + notesOf more := by
  rw [notesOf, List.filter_append, List.map_append, ← Multiset.coe_add]
  rfl

theorem notesOf_fatal {error : CheckError} (fatal : error.cause.isFatal = true) :
    notesOf [error] = {error.note} := by
  rw [notesOf, List.filter_cons_of_pos (by simpa using fatal)]
  rfl

theorem notesOf_other {error : CheckError} (other : error.cause.isFatal = false) :
    notesOf [error] = 0 := by
  rw [notesOf, List.filter_cons_of_neg (by simp [other])]
  rfl

/-! ### Notes in a branch -/

def Node.notes (node : Node) : Multiset (Option String × Span) :=
  if node.tag = .error ∧ node.done = true then {node.note} else 0

theorem Node.notes_other {node : Node} (other : node.tag ≠ .error) : node.notes = 0 :=
  if_neg fun both => other both.1

theorem Node.notes_open {node : Node} (isOpen : node.done = false) : node.notes = 0 :=
  if_neg fun both => by simp [isOpen] at both

namespace Branch

mutual

def notes : Branch → Multiset (Option String × Span)
  | mk _ _ node kids => node.notes + notesAll kids

def notesAll : List Branch → Multiset (Option String × Span)
  | [] => 0
  | kid :: rest => notes kid + notesAll rest

end

section Notes

variable {branch kid newKid : Branch} {kids others : List Branch} {index : Nat}

theorem notesAll_append (kids others : List Branch) :
    notesAll (kids ++ others) = notesAll kids + notesAll others := by
  induction kids with
  | nil => rw [List.nil_append, notesAll, zero_add]
  | cons kid rest ih => rw [List.cons_append, notesAll, notesAll, ih, add_assoc]

theorem notesAll_singleton (kid : Branch) : notesAll [kid] = kid.notes := by
  rw [notesAll, notesAll, add_zero]

theorem notesAll_perm (perm : kids.Perm others) : notesAll kids = notesAll others := by
  induction perm with
  | nil => rfl
  | cons kid _ ih => rw [notesAll, notesAll, ih]
  | swap first second rest => simp only [notesAll, add_left_comm]
  | trans _ _ early late => exact early.trans late

theorem notesAll_eq_zero (silent : ∀ kid ∈ kids, kid.notes = 0) : notesAll kids = 0 := by
  induction kids with
  | nil => rfl
  | cons kid rest ih =>
      rw [notesAll, silent kid List.mem_cons_self, zero_add]
      exact ih fun other member => silent other (List.mem_cons_of_mem _ member)

theorem notesAll_eraseIdx (found : kids[index]? = some kid) (silent : kid.notes = 0) :
    notesAll (kids.eraseIdx index) = notesAll kids := by
  obtain ⟨inRange, isHere⟩ := List.getElem?_eq_some_iff.mp found
  have perm := List.getElem_cons_eraseIdx_perm inRange
  rw [isHere] at perm
  rw [← notesAll_perm perm, notesAll, silent, zero_add]

/-- Children at several places have all notes if the others have none. -/
theorem notesAll_pick {indices : List Nat} (nodup : indices.Nodup)
    (found : List.Forall₂ (fun index kid => kids[index]? = some kid) indices others)
    (silent : ∀ index kid, kids[index]? = some kid → index ∉ indices → kid.notes = 0) :
    notesAll others = notesAll kids := by
  have inside : indices ⊆ List.range kids.length := by
    intro index member
    obtain ⟨place, inRange, rfl⟩ := List.mem_iff_getElem.mp member
    have inOthers : place < others.length := found.length_eq ▸ inRange
    have isHere := (List.forall₂_iff_get.mp found).2 place inRange inOthers
    exact List.mem_range.mpr (List.getElem?_eq_some_iff.mp isHere).1
  obtain ⟨front, isFront, fewer⟩ := nodup.subperm inside
  obtain ⟨rest, perm⟩ := fewer.exists_perm_append
  have whole := perm.trans (isFront.append_right rest)
  have apart := (List.nodup_append'.mp (whole.nodup_iff.mp List.nodup_range)).2.2
  let kidAt (index : Nat) : Branch := kids.getD index default
  have isAll : kids = (List.range kids.length).map kidAt := by
    refine List.ext_getElem (by simp) fun index inKids _ => ?_
    simp [kidAt, inKids]
  have isOthers : others = indices.map kidAt := by
    refine List.ext_getElem (by simp [found.length_eq]) fun place inOthers inMap => ?_
    have inIndices : place < indices.length := found.length_eq ▸ inOthers
    have isHere := (List.forall₂_iff_get.mp found).2 place inIndices inOthers
    simp only [List.get_eq_getElem] at isHere
    simp [kidAt, isHere]
  have none : notesAll (rest.map kidAt) = 0 := by
    refine notesAll_eq_zero fun kid member => ?_
    obtain ⟨index, isRest, rfl⟩ := List.mem_map.mp member
    have inRange := List.mem_range.mp (whole.mem_iff.mpr (List.mem_append_right _ isRest))
    refine silent index _ ?_ fun isIndex => apart isIndex isRest
    simp [kidAt, inRange]
  have sum := notesAll_perm (whole.map kidAt)
  rw [← isAll, List.map_append, notesAll_append, ← isOthers, none, add_zero] at sum
  exact sum.symm

theorem notes_eq (branch : Branch) : branch.notes = branch.node.notes + notesAll branch.kids := by
  cases branch
  rw [notes, node_mk, kids_mk]

theorem notes_below (other : branch.node.tag ≠ .error) : branch.notes = notesAll branch.kids := by
  rw [notes_eq, Node.notes_other other, zero_add]

@[simp]
theorem notes_under (branch : Branch) (label : Option Label) :
    (branch.under label).notes = branch.notes := by
  rw [notes_eq, notes_eq, node_under, kids_under]

theorem notes_alter {change : Node → Node} (same : (change branch.node).notes = branch.node.notes) :
    (branch.alter change).notes = branch.notes := by
  rw [notes_eq, notes_eq, node_alter, kids_alter, same]

theorem notes_withKids (same : notesAll kids = notesAll branch.kids) :
    (branch.withKids kids).notes = branch.notes := by
  rw [notes_eq, notes_eq, kids_withKids, same]
  rfl

/-- The rest of a branch is the same whatever stands in the place of a child. -/
theorem notes_setKid (found : branch.kids[index]? = some kid) :
    ∃ rest, branch.notes = rest + kid.notes ∧
      ∀ newKid, (branch.setKid index newKid).notes = rest + newKid.notes := by
  obtain ⟨inRange, isHere⟩ := List.getElem?_eq_some_iff.mp found
  refine ⟨branch.node.notes + (notesAll (branch.kids.take index) +
    notesAll (branch.kids.drop (index + 1))), ?_, fun newKid => ?_⟩
  · have parts := List.take_append_drop index branch.kids
    rw [List.drop_eq_getElem_cons inRange, isHere] at parts
    rw [notes_eq, ← parts, notesAll_append, notesAll, parts]
    simp only [add_assoc, add_comm]
  · rw [notes_eq, kids_setKid, List.set_eq_take_append_cons_drop, if_pos inRange, notesAll_append,
      notesAll]
    have top : (branch.setKid index newKid).node.notes = branch.node.notes := rfl
    rw [top]
    simp only [add_assoc, add_comm]

theorem notes_setKid_same (found : branch.kids[index]? = some kid)
    (same : newKid.notes = kid.notes) : (branch.setKid index newKid).notes = branch.notes := by
  obtain ⟨rest, isBefore, isAfter⟩ := notes_setKid found
  rw [isAfter, isBefore, same]

theorem Blank.notes_eq (blank : branch.Blank) : branch.notes = 0 := by
  induction branch using Branch.induction with
  | mk branch ih =>
      rw [Branch.notes_eq, Node.notes_open blank.done_eq, zero_add]
      exact notesAll_eq_zero fun kid member => ih kid member (blank.kid member)

end Notes

end Branch

/-! ### Accounts -/

/-- Whether the notes after a step are covered by those before it and the errors that it recorded,
and some are left if there were any. -/
def Accounts (old new : List CheckError) (before after : Multiset (Option String × Span)) : Prop :=
  ∃ added, new = old ++ added ∧ after ≤ before + notesOf added ∧
    (before + notesOf added ≠ 0 → after ≠ 0)

section Accounts

variable {old middle new : List CheckError} {before between after : Multiset (Option String × Span)}

theorem Accounts.same (errors : new = old) (notes : after = before) :
    Accounts old new before after := by
  subst errors notes
  exact ⟨[], (List.append_nil _).symm, by simp, by simp⟩

theorem Accounts.trans (early : Accounts old middle before between)
    (late : Accounts middle new between after) : Accounts old new before after := by
  obtain ⟨first, rfl, covered, kept⟩ := early
  obtain ⟨second, rfl, coveredLate, keptLate⟩ := late
  refine ⟨first ++ second, List.append_assoc _ _ _, ?_, ?_⟩
  · rw [notesOf_append, ← add_assoc]
    exact coveredLate.trans (add_le_add_left covered _)
  · rw [notesOf_append, ← add_assoc]
    intro some
    refine keptLate fun none => some ?_
    rw [add_eq_zero] at none ⊢
    exact ⟨Classical.not_not.mp fun others => kept others none.1, none.2⟩

/-- Notes that are kept do not change the account of the others. -/
theorem Accounts.frame (accounts : Accounts old new before after)
    (rest : Multiset (Option String × Span)) : Accounts old new (rest + before) (rest + after) := by
  obtain ⟨added, rfl, covered, kept⟩ := accounts
  refine ⟨added, rfl, ?_, ?_⟩
  · rw [add_assoc]
    exact add_le_add_right covered rest
  · rw [add_assoc]
    intro some none
    rw [add_eq_zero] at none
    exact some (by rw [none.1, zero_add]; exact Classical.not_not.mp fun others => kept others none.2)

/-- A fatal error is recorded, and all notes give way to its own. -/
theorem Accounts.replaced {error : CheckError} (grows : old <+: new)
    (fatal : error.cause.isFatal = true) :
    Accounts old (new ++ [error]) before {error.note} := by
  obtain ⟨added, rfl⟩ := grows
  refine ⟨added ++ [error], List.append_assoc _ _ _, ?_, fun _ => Multiset.singleton_ne_zero _⟩
  rw [notesOf_append, notesOf_fatal fatal, ← add_assoc]
  exact le_add_self

/-- An error that is not fatal changes no account. -/
theorem Accounts.recorded {error : CheckError} (other : error.cause.isFatal = false) :
    Accounts old (old ++ [error]) before before := by
  refine ⟨[error], rfl, ?_, ?_⟩
  · rw [notesOf_other other, add_zero]
  · rw [notesOf_other other, add_zero]
    exact id

end Accounts

end ScriptTyping
