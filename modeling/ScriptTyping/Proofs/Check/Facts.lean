import ScriptTyping.Proofs.Check.Premise

/-!
What the rules ensure of a branch that was checked, one statement for each kind of node, and what is
left of a branch that was not visited.
-/

namespace ScriptTyping

def Binding.isTied : Binding → Bool
  | .invoke _ (.selfCall _) _ => true
  | .invoke _ (.member _) _ => true
  | .field .get _ => true
  | _ => false

def Tag.isCalling : Tag → Bool
  | assign => true
  | assertion => true
  | forEach => true
  | field => true
  | indexer => true
  | apply => true
  | methodApply => true
  | interpolation => true
  | cast => true
  | binary _ => true
  | unary _ => true
  | _ => false

def Binding.isCall : Binding → Bool
  | .invoke _ _ _ => true
  | _ => false

def Binding.callee? (binding : Binding) (tag : Tag) : Option MemberId :=
  match binding, tag with
  | .invoke .staticInvocation (.member member) _, .binary _ => some member
  | .invoke .staticInvocation (.member member) _, .unary _ => some member
  | .invoke .staticInvocation (.member member) _, .assertion => some member
  | .invoke hint (.member member) _, tag =>
    if hint ∈ [.apply, .methodApply] ∧ tag ∈ [.apply, .methodApply, .indexer, .assign]
    then some member else none
  | .construct construction, .new => some construction.constructor
  | _, _ => none

/-- Whether a node converts an expression or calls a member. It need only be right in the environment
in which it got its type. -/
def Node.isDated (node : Node) : Bool :=
  node.tag ∈ [.upCast, .downCast, .cast] || (node.binding.callee? node.tag).isSome

/-- The runtime's members for indices on a dynamic value, with the kind of the node that is bound to
one, and how many children that node has besides the receiver and the indices. -/
inductive Tag.Hooks : Tag → MemberId → Nat → Prop where
  | get : Hooks indexer RuntimeMember.indexGetter 0
  | set : Hooks assign RuntimeMember.indexSetter 1

theorem Tag.Hooks.isCalling {tag : Tag} {hook : MemberId} {more : Nat}
    (hooks : tag.Hooks hook more) : tag.isCalling = true := by
  cases hooks <;> rfl

theorem Tag.Hooks.inert {tag : Tag} {hook : MemberId} {more : Nat} (hooks : tag.Hooks hook more) :
    RuntimeMember.fieldSetter < hook ∧ hook ≤ RuntimeMember.interpolation := by
  cases hooks <;> decide

namespace Node

structure Applies (node : Node) : Prop where
  selfCall : ∀ hint name typeArgs, node.binding = .invoke hint (.selfCall name) typeArgs →
    node.tag = .apply
  reads : ∀ place, node.binding = .field .get place → node.tag = .name ∨ node.tag = .field
  calls : ∀ hint member typeArgs, node.binding = .invoke hint (.member member) typeArgs →
    node.tag.isCalling = true

def Inside (node : Node) : Prop := node.tag ≠ .funcDecl ∧ node.tag ≠ .error ∧ node.Applies

theorem Inside.opened {node : Node} (inside : node.Inside) : node.tag ≠ .funcDecl := inside.1

theorem Inside.sound {node : Node} (inside : node.Inside) : node.tag ≠ .error := inside.2.1

theorem Inside.applies {node : Node} (inside : node.Inside) : node.Applies := inside.2.2

theorem Applies.ofOther {node : Node} (other : node.binding.isTied = false) : node.Applies := by
  refine ⟨fun hint name typeArgs bound => ?_, fun place bound => ?_,
    fun hint member typeArgs bound => ?_⟩ <;> simp [bound, Binding.isTied] at other

theorem Applies.alike {node other : Node} (applies : node.Applies) (tag : other.tag = node.tag)
    (binding : other.binding = node.binding) : other.Applies := by
  obtain ⟨selfCall, reads, calls⟩ := applies
  rw [← tag, ← binding] at selfCall reads calls
  exact ⟨selfCall, reads, calls⟩

theorem Applies.calling {node : Node} {hint : Hint} {member : MemberId} {typeArgs : List Ty}
    (isCalling : node.tag.isCalling = true)
    (bound : node.binding = .invoke hint (.member member) typeArgs) : node.Applies :=
  ⟨fun _ _ _ other => by simp [bound] at other, fun _ other => by simp [bound] at other,
    fun _ _ _ _ => isCalling⟩

theorem Inside.ofUnbound {node : Node} (opened : node.tag ≠ .funcDecl) (sound : node.tag ≠ .error)
    (unbound : node.binding = .unbound) : node.Inside :=
  ⟨opened, sound, .ofOther (by rw [unbound]; rfl)⟩

theorem Inside.alike {node other : Node} (inside : node.Inside) (tag : other.tag = node.tag)
    (binding : other.binding = node.binding) : other.Inside := by
  obtain ⟨opened, sound, applies⟩ := inside
  rw [← tag] at opened sound
  exact ⟨opened, sound, applies.alike tag binding⟩

theorem Inside.rebind {node : Node} {binding : Binding} (inside : node.Inside)
    (other : binding.isTied = false) : { node with binding }.Inside :=
  ⟨inside.opened, inside.sound, .ofOther other⟩

theorem Inside.retag {node : Node} {tag : Tag} (inside : node.Inside) (opened : tag ≠ .funcDecl)
    (sound : tag ≠ .error) (silent : node.tag.isCalling = false) (unnamed : node.tag ≠ .name) :
    { node with tag }.Inside := by
  refine ⟨opened, sound, fun hint name typeArgs bound => ?_, fun place bound => ?_,
    fun hint member typeArgs bound => ?_⟩
  · simp [inside.applies.selfCall hint name typeArgs bound, Tag.isCalling] at silent
  · rcases inside.applies.reads place bound with isName | isField
    · exact absurd isName unnamed
    · simp [isField, Tag.isCalling] at silent
  · simp [inside.applies.calls hint member typeArgs bound] at silent

theorem Inside.reading {node : Node} (inside : node.Inside)
    (isRead : node.tag = .name ∨ node.tag = .field) (place : FieldTarget) :
    { node with binding := .field .get place }.Inside :=
  ⟨inside.opened, inside.sound, fun _ _ _ bound => by simp at bound, fun _ _ => isRead,
    fun _ _ _ bound => by simp at bound⟩

theorem Inside.calling {node : Node} (inside : node.Inside) (isCalling : node.tag.isCalling = true)
    (hint : Hint) (member : MemberId) (typeArgs : List Ty) :
    { node with binding := .invoke hint (.member member) typeArgs }.Inside :=
  ⟨inside.opened, inside.sound, .calling isCalling rfl⟩

end Node

theorem Raw.applies {premise : Premise} {branch : Branch} (raw : Raw premise branch) :
    branch.node.Applies :=
  .ofOther (by rw [raw.blank.binding_eq]; rfl)

def Member.isDispatcher (member : Member) : Bool :=
  member.kind == .method &&
    ["getField", "setField", "invokeFunction", "invokeDynamic"].contains member.name

namespace Environment

variable {environment : Environment} {owner : Ty} {name : String} {kind : MemberKind} {id : MemberId}

theorem lt_of_mem_members (found : id ∈ environment.members owner name kind) :
    id < environment.registry.members.size := by
  unfold members at found
  split at found
  · exact Registry.lt_of_mem_candidates found
  · simp at found

theorem name_of_mem_members (found : id ∈ environment.members owner name kind) :
    (environment.registry.member id).name = name := by
  unfold members at found
  split at found
  · exact Registry.name_of_mem_candidates found
  · simp at found

theorem ne_never_of_mem_members (found : id ∈ environment.members owner name kind) :
    owner ≠ .never := by
  rintro rfl
  simp [members, Ty.headName?] at found

theorem isDynamic_of_mem_members (found : id ∈ environment.members owner name kind) :
    owner.isDynamic = false := by
  cases owner with
  | dynamic => simp [members, Ty.headName?] at found
  | _ => rfl

theorem isDispatcher_of_mem_functions (found : id ∈ environment.registry.functions name) :
    (environment.registry.member id).isDispatcher = false := by
  have isFunction := (List.mem_filter.mp found).2
  simp only [Bool.and_eq_true, beq_iff_eq] at isFunction
  simp [Member.isDispatcher, isFunction.1]

end Environment

inductive RuntimeMember.Dispatches (most : Nat) : Hint → MemberId → List Ty → Ty → Prop where
  | getField : Dispatches most .staticInvocation fieldGetter [.dynamic, .string] .dynamic
  | setField : Dispatches most .staticInvocation fieldSetter [.dynamic, .string, .object] .void
  | invokeFunction {arity : Nat} {member : MemberId} :
      functionInvoker? most arity = some member →
      Dispatches most .staticInvocation member (.callable :: List.replicate arity .object) .object
  | invokeDynamic {arity : Nat} {member : MemberId} :
      dynamicInvoker? most arity = some member →
      Dispatches most .dynamicInvocation member
        (.dynamic :: .string :: List.replicate arity .object) .dynamic

/-- The members for conversions, assertions, indices and interpolations take no other children. -/
theorem RuntimeMember.not_dispatches {most : Nat} {hint : Hint} {member : MemberId} {params : List Ty}
    {result : Ty} (other : member < fieldGetter ∨ fieldSetter < member ∧ member ≤ interpolation) :
    ¬ Dispatches most hint member params result := by
  have bounds : member < assertion + 1 ∨ assertion + 2 < member ∧ member ≤ assertion + 5 := other
  have apart : ∀ base position start more : Nat, 6 ≤ start →
      (position < base + 1 ∨ base + 2 < position ∧ position ≤ base + 5) →
        base + start + more ≠ position := by omega
  intro dispatches
  cases dispatches with
  | getField =>
      rcases bounds with low | ⟨high, _⟩
      · exact Nat.lt_irrefl _ low
      · exact Nat.not_succ_lt_self high
  | setField =>
      rcases bounds with low | ⟨high, _⟩
      · exact Nat.not_succ_lt_self low
      · exact Nat.lt_irrefl _ high
  | @invokeFunction arity _ found =>
      have isAt := Option.some.inj (Option.ite_none_right_eq_some.mp found).2
      exact apart assertion member 7 (2 * arity) (by decide) bounds isAt
  | @invokeDynamic arity _ found =>
      have isAt := Option.some.inj (Option.ite_none_right_eq_some.mp found).2
      exact apart assertion member 6 (2 * arity) (by decide) bounds isAt

/-- The runtime's field getter takes a dynamic value and a name. -/
theorem RuntimeMember.Dispatches.getField_params {most : Nat} {hint : Hint} {params : List Ty}
    {result : Ty} (dispatches : Dispatches most hint fieldGetter params result) :
    params = [.dynamic, .string] := by
  have apart : ∀ base start more : Nat, 6 ≤ start → base + start + more ≠ base + 1 := by omega
  generalize isGetter : fieldGetter = member at dispatches
  cases dispatches with
  | getField => rfl
  | setField => exact absurd isGetter.symm (Nat.succ_ne_self _)
  | @invokeFunction arity _ found =>
      have isAt := Option.some.inj (Option.ite_none_right_eq_some.mp found).2
      exact absurd (isAt.trans isGetter.symm) (apart assertion 7 (2 * arity) (by decide))
  | @invokeDynamic arity _ found =>
      have isAt := Option.some.inj (Option.ite_none_right_eq_some.mp found).2
      exact absurd (isAt.trans isGetter.symm) (apart assertion 6 (2 * arity) (by decide))

theorem CastEntry.member_lt {entry : CastEntry} (isEntry : entry ∈ CastEntry.all) :
    entry.member < RuntimeMember.assertion := by
  obtain ⟨⟨conversion, index⟩, inside, rfl⟩ := List.mem_map.mp isEntry
  have found := List.mk_mem_zipIdx_iff_getElem?.mp inside
  exact Nat.add_lt_add_left (List.getElem?_eq_some_iff.mp found).1 Builtin.firstConversion

namespace Branch

def arguments (branch : Branch) : List Branch :=
  match branch.node.tag with
  | .binary _ => [Label.left, .right].filterMap branch.first?
  | .unary _ => [Label.expr].filterMap branch.first?
  | .assertion => [Label.cond, .msg].filterMap branch.first?
  | _ => ((branch.first? .param).map kids).getD []

theorem arguments_of_hooks {branch : Branch} {hook : MemberId} {more : Nat}
    (hooks : branch.node.tag.Hooks hook more) :
    branch.arguments = ((branch.first? .param).map kids).getD [] := by
  unfold arguments
  generalize branch.node.tag = tag at hooks
  cases hooks <;> rfl

def Suits (branch : Branch) (ty : Ty) : Prop :=
  ∃ found, branch.node.ty = some found ∧ ((found == ty) = true ∨ found.isNever = true)

theorem Suits.ofTyped {branch : Branch} {ty : Ty} (typed : branch.node.ty = some ty) :
    branch.Suits ty :=
  ⟨ty, typed, .inl BEq.rfl⟩

theorem Suits.ofCallable {branch : Branch} {ty : Ty} (typed : branch.node.ty = some ty)
    (isCallable : ty.isCallable = true) : branch.Suits .callable :=
  ⟨ty, typed, .inl (Ty.beq_callable_of_isCallable isCallable)⟩

end Branch

structure Resolved (environment : Environment) (arguments : List Branch)
    (resolution : Resolution) (receiver types : List Ty) (candidates : List MemberId) : Prop where
  found : (environment.resolve receiver candidates types).found = some resolution
  registered : ∀ id ∈ candidates, id < environment.registry.members.size
  length : types.length = arguments.length
  kept : ∀ index arg ty, arguments[index]? = some arg → types[index]? = some ty →
    index ∉ resolution.coercions → arg.Suits ty
  converted : ∀ index arg ty, arguments[index]? = some arg → resolution.params[index]? = some ty →
    index ∈ resolution.coercions → arg.Suits ty

namespace Branch

def HasResult (environment : Environment) (resolution : Resolution) (branch : Branch) : Prop :=
  branch.node.ty = some resolution.result ∧
    ∃ receiver types candidates,
      Resolved environment branch.arguments resolution receiver types candidates

def Calls (environment : Environment) (hints : List Hint) (branch : Branch) : Prop :=
  ∀ hint member typeArgs, branch.node.binding = .invoke hint (.member member) typeArgs →
    hint ∈ hints → ∃ resolution, resolution.member = member ∧
      branch.HasResult environment resolution

def CallsSelf (returnType : Option Ty) (branch : Branch) : Prop :=
  ∀ hint name typeArgs, branch.node.binding = .invoke hint (.selfCall name) typeArgs →
    ∃ ty, returnType = some ty ∧ branch.node.ty = some ty

def Names (kids : List Branch) : Prop :=
  ∃ receiver name arguments, kids = receiver :: name :: arguments ∧
    receiver.node.ty = some .dynamic ∧ receiver.node.tag ≠ .list ∧ name.node.tag ≠ .list

/-- Whether a branch hands its children, one by one, to parameters of these types, and has the
result as its type. Where a name is looked up when the script runs, a dynamic value comes first. -/
structure Supplies (params : List Ty) (result : Ty) (branch : Branch) : Prop where
  suits : List.Forall₂ Suits branch.kids params
  typed : branch.node.ty = some result
  names : params.head? = some .dynamic → Names branch.kids

/-- Whether a lookup may find a member for a branch: an application as a method of a child, unless
the member is none that the runtime calls by itself. -/
def Finds (environment : Environment) (hint : Hint) (member : MemberId) (branch : Branch) : Prop :=
  (environment.registry.member member).isDispatcher = false ∨
    hint ∈ [.apply, .methodApply] ∧ ∃ kid ∈ branch.kids, kid.node.tag ≠ .list ∧
      ∃ ty name, kid.node.ty = some ty ∧ member ∈ environment.members ty name .method

/-- How a branch comes to be bound to a member: the runtime takes its children, a lookup found the
member, or the member takes no other node's children. An assignment through a field getter that a
lookup found, and whatever follows an error, is bound to the field setter all the same. -/
inductive Invokes (environment : Environment) (errors : List CheckError) (hint : Hint)
    (member : MemberId) (branch : Branch) : Prop where
  | dispatched {params : List Ty} {result : Ty} :
      RuntimeMember.Dispatches environment.options.maxInvokeArity hint member params result →
      branch.Supplies params result → Invokes environment errors hint member branch
  | found : branch.Finds environment hint member → Invokes environment errors hint member branch
  | inert : (∀ hint params result, ¬ RuntimeMember.Dispatches environment.options.maxInvokeArity hint
      member params result) → Invokes environment errors hint member branch
  | stray {applied : Hint} : member = RuntimeMember.fieldSetter → branch.node.tag = .assign →
      branch.Finds environment applied RuntimeMember.fieldGetter →
      Invokes environment errors hint member branch
  | loud : errors ≠ [] → Invokes environment errors hint member branch

def Serves (environment : Environment) (errors : List CheckError) (branch : Branch) : Prop :=
  ∀ hint member typeArgs, branch.node.binding = .invoke hint (.member member) typeArgs →
    branch.Invokes environment errors hint member

theorem Serves.under {environment : Environment} {errors : List CheckError} {branch : Branch}
    (serves : branch.Serves environment errors) (label : Option Label) :
    (branch.under label).Serves environment errors := by
  intro hint member typeArgs bound
  cases serves hint member typeArgs bound with
  | dispatched dispatches supplies =>
      exact .dispatched dispatches ⟨supplies.suits, supplies.typed, supplies.names⟩
  | found finds => exact .found finds
  | inert none => exact .inert none
  | stray isSetter isAssign finds => exact .stray isSetter isAssign finds
  | loud isLoud => exact .loud isLoud

def Converts (branch : Branch) (found ty : Ty) : Prop :=
  ∃ kid, branch.kids = [kid] ∧ kid.label = some .expr ∧ kid.node.ty = some found ∧
    branch.node.ty = some ty

def Returns (returnType : Option Ty) (branch : Branch) : Prop :=
  ∃ ty, returnType = some ty ∧
    (ty = .void → ∀ kid ∈ branch.kids, kid.label = some .expr → kid.Suits .void) ∧
    (ty ≠ .void → ∃ kid, branch.first? .expr = some kid ∧ kid.Suits ty)

def Declares (environment : Environment) (returnType : Option Ty) (branch : Branch) : Prop :=
  (branch.node.binding = .unbound ∨
    ∃ globalId, branch.node.binding = .field .set (.global globalId)) ∧
  ((branch.first? .body).isSome = true → ∃ globalId params,
    branch.node.binding = .field .set (.global globalId) ∧
    globalId < environment.globals.size ∧
    ((environment.global globalId).ty == .fn params (returnType.getD .void)) = true ∧
    (((branch.first? .param).map kids).getD []).map (·.node.ty) = params.map some ∧
    ∀ kid, branch.first? .type = some kid → kid.node.ty = some (returnType.getD .void) ∧
      ∃ earlier, Environment.Leads earlier environment ∧
        earlier.resolveType (kid.node.text.getD "") = .ok (returnType.getD .void))

def NotesOfReceiver (branch : Branch) : Prop :=
  ∀ index kid, branch.kids[index]? = some kid → roleAt branch.kids index ≠ some .recv →
    kid.notes = 0

def Reads (environment : Environment) (branch : Branch) : Prop :=
  (∀ place, branch.node.binding = .field .get place → branch.NotesOfReceiver) ∧
  (∀ globalId, branch.node.binding = .field .get (.global globalId) →
    globalId < environment.globals.size ∧
      branch.node.ty = some (environment.global globalId).ty) ∧
  ∀ memberId, branch.node.binding = .field .get (.member memberId) →
    memberId < environment.registry.members.size

theorem Reads.ofOther {environment : Environment} {branch : Branch}
    (other : ∀ place, branch.node.binding ≠ .field .get place) : branch.Reads environment :=
  ⟨fun _ bound => absurd bound (other _), fun _ bound => absurd bound (other _),
    fun _ bound => absurd bound (other _)⟩

theorem Reads.mono {old new : Environment} {branch : Branch} (reads : branch.Reads old)
    (grows : old.Grows new) : branch.Reads new := by
  refine ⟨reads.1, fun globalId bound => ?_, fun memberId bound => ?_⟩
  · obtain ⟨inRange, typed⟩ := reads.2.1 globalId bound
    exact ⟨grows.lt_globals inRange, by rw [grows.global_eq inRange]; exact typed⟩
  · exact Nat.lt_of_lt_of_le (reads.2.2 memberId bound) grows.registry.size_members

def value? (branch : Branch) : Option Branch := (branch.first? .expr).or (branch.first? .right)

def Stores (environment : Environment) (branch : Branch) : Prop :=
  (branch.node.binding.isCall = false →
    ∃ kid ty, branch.value? = some kid ∧ branch.node.ty = some ty ∧ kid.Suits ty) ∧
  (∀ globalId, branch.node.binding = .field .set (.global globalId) →
    globalId < environment.globals.size ∧
      ∃ ty, branch.node.ty = some ty ∧ ((environment.global globalId).ty == ty) = true) ∧
  ∀ memberId, branch.node.binding = .field .set (.member memberId) →
    memberId < environment.registry.members.size ∧
      (environment.registry.member memberId).isReadonly = false

/-- Whether the children of a branch are a dynamic value, all index expressions that were written,
however many, and some more, all of them objects but the first. -/
def Spreads (premise : Premise) (more : Nat) (branch : Branch) : Prop :=
  ∃ receiver items count, branch.kids = receiver :: items ∧ receiver.node.ty = some .dynamic ∧
    List.Forall₂ Suits items (List.replicate (count + more) .object) ∧
    premise.Indexes branch.id count

def Indexed (premise : Premise) (hook : MemberId) (more : Nat) (branch : Branch) : Prop :=
  (∃ receiver ty, branch.first? .recv = some receiver ∧ receiver.node.ty = some ty ∧
    ty.isDynamic = false) ∨
  branch.node.binding = .static hook ∧ branch.Spreads premise more

def Consists (branch : Branch) (element : Ty) : Prop := ∀ kid ∈ branch.kids, kid.Suits element

def Alternates (branch : Branch) (value : Ty) : Prop :=
  ∀ (index : Nat) (kid : Branch), branch.kids[index]? = some kid →
    kid.Suits (if index % 2 = 0 then .string else value)

def Tests (branch : Branch) (labels : List Label) : Prop :=
  ∀ label ∈ labels, ∃ kid, branch.first? label = some kid ∧ kid.Suits .bool

def Chooses (branch : Branch) : Prop :=
  ∃ ty chosen other, branch.node.ty = some ty ∧ branch.first? .thenBranch = some chosen ∧
    chosen.node.ty = some ty ∧ branch.first? .elseBranch = some other ∧ other.Suits ty

theorem Tests.congr {branch after : Branch} {labels : List Label} (tests : branch.Tests labels)
    (same : ∀ label ∈ labels, after.first? label = branch.first? label) : after.Tests labels := by
  intro label member
  obtain ⟨kid, found, suits⟩ := tests label member
  exact ⟨kid, (same label member).trans found, suits⟩

theorem Tests.mono {branch : Branch} {labels fewer : List Label} (tests : branch.Tests labels)
    (within : fewer ⊆ labels) : branch.Tests fewer :=
  fun label member => tests label (within member)

structure IsFailed (branch : Branch) : Prop where
  tag : branch.node.tag = .error
  ty : branch.node.ty = some .never
  done : branch.node.done = true

def Remains (after before : Branch) : Prop :=
  after.IsFailed ∨ after.id = before.id ∧ after.node.note = before.node.note

theorem Remains.rfl {branch : Branch} : branch.Remains branch := .inr ⟨Eq.refl _, Eq.refl _⟩

theorem forall₂_remains (kids : List Branch) : List.Forall₂ Remains kids kids :=
  List.forall₂_same.mpr fun _ _ => .rfl

/-- A statement among others. -/
theorem forall₂_remains_set {branch kid newKid after : Branch} {index : Nat}
    (found : branch.kids[index]? = some kid) (remains : newKid.Remains kid)
    (here : after.kids[index]? = some newKid)
    (others : List.Forall₂ Remains after.kids (branch.setKid index newKid).kids) :
    List.Forall₂ Remains after.kids branch.kids := by
  have length := others.length_eq
  rw [kids_setKid, List.length_set] at length
  refine List.forall₂_iff_get.mpr ⟨length, fun position inAfter inBefore => ?_⟩
  by_cases same : index = position
  · subst same
    rw [List.getElem?_eq_getElem inAfter, Option.some.injEq] at here
    rw [List.getElem?_eq_getElem inBefore, Option.some.injEq] at found
    simp only [List.get_eq_getElem, here, found]
    exact remains
  · have other := (List.forall₂_iff_get.mp others).2 position inAfter (by simpa using inBefore)
    simpa [same] using other

/-- Whether a sequence has, for each statement that it was read, loaded or copied with, that
statement or what was left when it failed. -/
def Recovers (premise : Premise) (branch : Branch) : Prop :=
  (∃ statements, premise.known branch.node.tag statements ∧
    List.Forall₂ (fun kid statement => kid.IsFailed ∨ kid.node.note = statement.note) branch.kids
      statements ∧
    List.Forall₂ (fun kid id => kid.IsFailed ∨ kid.id = id) branch.kids
      (StoredNode.positions (branch.id + 1) statements)) ∧
  (branch.id < premise.loaded.nodes.size →
    List.Forall₂ (fun kid id => kid.IsFailed ∨ kid.id = id) branch.kids
      (premise.loaded.childIds branch.id))

/-- What the rule for its kind ensures of a checked branch. -/
def Facts (premise : Premise) (environment : Environment) (errors : List CheckError)
    (returnType : Option Ty) (branch : Branch) : Prop :=
  match branch.node.tag with
  | .binary _ => branch.Calls environment [.staticInvocation] ∧ branch.Serves environment errors
  | .unary _ => branch.Calls environment [.staticInvocation] ∧ branch.Serves environment errors
  | .assertion => branch.node.binding = .static RuntimeMember.assertion ∧
      branch.node.ty = some .void ∧
      ∃ condition message, branch.arguments = [condition, message] ∧ condition.Suits .bool ∧
        message.Suits .string
  | .apply => branch.Calls environment [.apply, .methodApply] ∧ branch.CallsSelf returnType ∧
      branch.Serves environment errors
  | .methodApply => branch.Calls environment [.apply, .methodApply] ∧
      branch.Serves environment errors
  | .indexer => branch.Calls environment [.apply, .methodApply] ∧
      branch.Serves environment errors ∧
      (branch.node.binding.isCall = true → branch.Indexed premise RuntimeMember.indexGetter 0)
  | .assign => branch.Calls environment [.apply, .methodApply] ∧
      (premise.tidy → branch.Stores environment) ∧ branch.Serves environment errors ∧
      (branch.node.binding.isCall = true →
        branch.node.binding ≠ .static RuntimeMember.fieldSetter →
        branch.Indexed premise RuntimeMember.indexSetter 1)
  | .new => ∀ construction, branch.node.binding = .construct construction →
      ∃ resolution, construction = resolution.construction ∧
        branch.HasResult environment resolution
  | .upCast => premise.plain → ∃ found ty, branch.Converts found ty ∧
      environment.isAssignable ty found = true
  | .downCast => premise.plain → ∃ found ty, branch.Converts found ty ∧
      (found.isDynamic = true ∨ environment.isAssignable found ty = true)
  | .cast => ∃ found ty entry, branch.Converts found ty ∧
      CastEntry.find? found ty = some entry ∧ branch.node.binding = .static entry.member
  | .returnStmt => premise.lone → branch.Returns returnType
  | .funcDecl => branch.Declares environment returnType
  | .name => branch.Reads environment
  | .field => branch.Reads environment ∧ branch.Serves environment errors
  | .interpolation => branch.Serves environment errors ∧ branch.Consists .object
  | .forEach => branch.Serves environment errors
  | .list => branch.node.ty = some .never ∧ errors ≠ []
  | .source => branch.Recovers premise
  | .statementList => branch.Recovers premise
  | .block => branch.Recovers premise
  | .error => branch.node.binding = .unbound ∧ (premise.clean → branch.node.done = true)
  | .array => ∃ element, branch.node.ty = some (.array element) ∧ branch.Consists element
  | .set => ∃ element, branch.node.ty = some (.set element) ∧ branch.Consists element
  | .dict => ∃ value, branch.node.ty = some (.dict value) ∧ branch.Alternates value
  | .conditional => branch.Tests [.cond] ∧ branch.Chooses
  | .conjunction => branch.Tests [.left, .right]
  | .disjunction => branch.Tests [.left, .right]
  | .negation => branch.Tests [.expr]
  | .ifStmt => branch.Tests [.cond]
  | .whileLoop => branch.Tests [.cond]
  | .forLoop => branch.first? .cond = none ∨ branch.Tests [.cond]
  | _ => True

structure Idle (premise : Premise) (branch : Branch) : Prop where
  unbound : branch.node.binding = .unbound
  plain : premise.plain → branch.node.tag ≠ .upCast ∧ branch.node.tag ≠ .downCast
  aside : branch.node.ty.isSome = true → premise.aside branch.node.tag
  clean : premise.clean → branch.node.tag ≠ .error
  recovers : branch.node.tag.isSequence = true → branch.Recovers premise

end Branch

section Facts

variable {premise : Premise} {environment : Environment} {errors : List CheckError}
  {returnType laterType : Option Ty} {branch : Branch}

theorem Branch.Facts.mono (facts : branch.Facts premise environment errors returnType)
    (opened : branch.node.tag ≠ .funcDecl)
    (fixed : ∀ ty, returnType = some ty → laterType = some ty) :
    branch.Facts premise environment errors laterType := by
  unfold Branch.Facts at *
  split at facts
  case h_4 =>
    refine ⟨facts.1, ?_, facts.2.2⟩
    intro hint name typeArgs bound
    obtain ⟨ty, isType, typed⟩ := facts.2.1 hint name typeArgs bound
    exact ⟨ty, fixed ty isType, typed⟩
  case h_12 =>
    intro lone
    obtain ⟨ty, isType, rest⟩ := facts lone
    exact ⟨ty, fixed ty isType, rest⟩
  case h_13 tag => exact absurd tag opened
  all_goals exact facts

theorem Branch.Facts.under (facts : branch.Facts premise environment errors returnType)
    (label : Option Label) : (branch.under label).Facts premise environment errors returnType := by
  unfold Branch.Facts at facts ⊢
  rw [Branch.node_under]
  split at facts
  case h_1 | h_2 | h_5 | h_15 => exact ⟨facts.1, facts.2.under label⟩
  case h_4 => exact ⟨facts.1, facts.2.1, facts.2.2.under label⟩
  case h_6 => exact ⟨facts.1, facts.2.1.under label, facts.2.2⟩
  case h_7 => exact ⟨facts.1, facts.2.1, facts.2.2.1.under label, facts.2.2.2⟩
  case h_16 => exact ⟨facts.1.under label, facts.2⟩
  case h_17 => exact facts.under label
  all_goals exact facts

end Facts

end ScriptTyping
