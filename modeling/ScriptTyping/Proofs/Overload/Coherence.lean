import ScriptTyping.Proofs.Plain.Types
import ScriptTyping.Proofs.Registry.Signature

/-!
The parts of a resolution belong together: parameters, result and type arguments come from one
substitution into the signature of the chosen member. Bindings are found argument by argument, but
nothing is ever bound anew, and the parts are made from the last bindings.
-/

namespace ScriptTyping

namespace Ty

theorem within_args {count : Nat} {ty : Ty} (inside : ty.within count = true) :
    allWithin count ty.args = true := by
  cases ty with
  | applied head args => exact inside
  | _ => rfl

theorem within_of_mem {count : Nat} {types : List Ty} {ty : Ty}
    (inside : allWithin count types = true) (member : ty ∈ types) : ty.within count = true := by
  rw [allWithin_eq_all, List.all_eq_true] at inside
  exact inside ty member

end Ty

theorem Member.within_variadicElement {member : Member} {count : Nat} {element : Ty}
    (inside : Ty.allWithin count member.params = true)
    (isElement : member.variadicElement? = some element) : element.within count = true := by
  simp only [variadicElement?] at isElement
  split at isElement
  · obtain ⟨last, isLast, isHead⟩ := Option.bind_eq_some_iff.mp isElement
    have lastInside := Ty.within_of_mem inside (List.mem_of_getLast? isLast)
    exact Ty.within_of_mem (Ty.within_args lastInside) (List.mem_of_head? isHead)
  · cases isElement

/-- Spreading the last parameter brings in no further variables. -/
theorem Member.expand_within {member : Member} {count args : Nat} {expected : List Ty}
    (inside : Ty.allWithin count member.params = true)
    (expands : member.expand args = .ok expected) : Ty.allWithin count expected = true := by
  simp only [expand] at expands
  split at expands
  · rename_i element isElement
    split at expands
    · cases expands
    · rw [← Except.ok.inj expands, Ty.allWithin_eq_all, List.all_eq_true]
      intro ty member
      rcases List.mem_append.mp member with fixed | spread
      · exact Ty.within_of_mem inside (List.mem_of_mem_take fixed)
      · rw [List.eq_of_mem_replicate spread]
        exact within_variadicElement inside isElement
  · split at expands
    · rwa [← Except.ok.inj expands]
    · cases expands

/-- Whether the parts of a resolution come from one substitution into the signature of its member,
for `count` arguments and a receiver with the generic arguments `receiver`. -/
structure Resolution.Coherent (resolution : Resolution) (member : Member) (receiver : List Ty)
    (count : Nat) : Prop where
  /-- Each variable of the signature has a type argument, at its own position. -/
  length : resolution.typeArgs.length = member.vars.length
  plain : ∀ ty ∈ resolution.typeArgs, ty.hasVar = false
  /-- A parameter of the owner stands for the generic argument of the receiver, if it has one. -/
  owner : ∀ index ty, index < member.ownerVars → receiver[index]? = some ty →
    resolution.typeArgs[index]? = some ty
  params : (member.expand count).map (List.map (Ty.substitute (resolution.typeArgs[·]?))) =
    .ok resolution.params
  result : resolution.result = member.result.substitute (resolution.typeArgs[·]?)

namespace Environment

variable {environment : Environment} {receiver args expected : List Ty} {resolution : Resolution}
  {bindings : Bindings}

/-- What the arguments bind leaves the bindings of the receiver alone. -/
theorem Attempted.later
    (attempted : environment.Attempted receiver args resolution expected bindings) :
    ((environment.registry.member resolution.member).receiverBindings receiver).Extends
      bindings := by
  obtain ⟨converting, fitted⟩ := attempted.fitted
  exact fitted.later

theorem Attempted.typeArg
    (attempted : environment.Attempted receiver args resolution expected bindings) {index : Nat}
    (inside : index < (environment.registry.member resolution.member).vars.length) :
    resolution.typeArgs[index]? = some (bindings.finish (.var index)) := by
  rw [attempted.typeArgs, List.getElem?_map, List.getElem?_range inside, Option.map_some]

/-- Finishing a type of the signature puts the type arguments into it. -/
theorem Attempted.finish_eq
    (attempted : environment.Attempted receiver args resolution expected bindings) {ty : Ty}
    (inside : ty.within (environment.registry.member resolution.member).vars.length = true) :
    bindings.finish ty = ty.substitute (resolution.typeArgs[·]?) := by
  rw [Bindings.finish, Bindings.instantiate, Ty.close_substitute, Ty.substitute_eq_iff]
  intro index member
  have bound := attempted.typeArg ((Ty.within_iff ty).mp inside index member)
  rw [Bindings.finish, Bindings.instantiate, Ty.close_substitute] at bound
  rw [Ty.substitute, Ty.substitute, bound]
  rfl

theorem Attempted.owner
    (attempted : environment.Attempted receiver args resolution expected bindings)
    (inScope : (environment.registry.member resolution.member).Scoped)
    (plain : ∀ ty ∈ receiver, ty.hasVar = false) {index : Nat} {ty : Ty}
    (isOwner : index < (environment.registry.member resolution.member).ownerVars)
    (isArg : receiver[index]? = some ty) : resolution.typeArgs[index]? = some ty := by
  have bound : index < (environment.registry.member resolution.member).vars.length :=
    Nat.lt_of_lt_of_le isOwner inScope.2.2
  have known : ((environment.registry.member resolution.member).receiverBindings
      receiver).instantiate (.var index) = ty := by
    simp only [Bindings.instantiate, Ty.substitute, Bindings.get?, Member.receiverBindings,
      List.getElem?_map, List.getElem?_range bound, Option.map_some, isOwner, if_true, isArg,
      Option.join_some, Option.getD_some]
  have ground := plain ty (List.mem_of_getElem? isArg)
  rw [attempted.typeArg bound, Bindings.finish_eq_instantiate attempted.later, known]
  rwa [known]

/-- The choice of a member whose types have no variables but its own is coherent, whatever its
arguments are. -/
theorem Attempted.coherent
    (attempted : environment.Attempted receiver args resolution expected bindings)
    (inScope : (environment.registry.member resolution.member).Scoped)
    (plain : ∀ ty ∈ receiver, ty.hasVar = false) :
    resolution.Coherent (environment.registry.member resolution.member) receiver args.length := by
  constructor
  · rw [attempted.typeArgs, List.length_map, List.length_range]
  · exact attempted.plain.typeArgs
  · intro index ty isOwner isArg
    exact attempted.owner inScope plain isOwner isArg
  · have inside := Member.expand_within inScope.1 attempted.expands
    rw [attempted.expands, attempted.params, Except.map, Except.ok.injEq]
    apply List.map_congr_left
    intro ty member
    exact (attempted.finish_eq (Ty.within_of_mem inside member)).symm
  · rw [attempted.result]
    exact attempted.finish_eq inScope.2.1

theorem Built.scoped_member (built : environment.Built) {id : MemberId}
    (registered : id < environment.registry.members.size) :
    (environment.registry.member id).Scoped := by
  rw [Registry.member, Array.getElem?_eq_getElem registered, Option.getD_some]
  exact built.member_scoped _ (Array.getElem_mem_toList registered)

/-- A lookup on a receiver without type variables, or on none, finds one of the candidates, and the
parts of what it finds come from one substitution into the signature of that member. -/
theorem resolve_coherent {receiver : Option Ty} {args : List Ty} {candidates : List MemberId}
    {resolution : Resolution} (built : environment.Built)
    (registered : ∀ id ∈ candidates, id < environment.registry.members.size)
    (plain : ∀ ty, receiver = some ty → ty.hasVar = false)
    (found : (environment.resolve ((receiver.map Ty.args).getD []) candidates args).found =
      some resolution) :
    resolution.member ∈ candidates ∧
      resolution.Coherent (environment.registry.member resolution.member)
        ((receiver.map Ty.args).getD []) args.length := by
  obtain ⟨isCandidate, expected, bindings, attempted⟩ := resolve_attempted found
  refine ⟨isCandidate, attempted.coherent (built.scoped_member (registered _ isCandidate)) ?_⟩
  cases receiver with
  | none => exact fun _ member => absurd member List.not_mem_nil
  | some ty => exact Ty.Plain.args (plain ty rfl)

def crating : NamespaceDecl where
  path := "crating"
  types := [{
    name := "Crate"
    params := ["T"]
    methods := [{
      name := "fill", params := ["T", "U[]"], returns := "Crate<(T) -> U>", generics := ["U"]
      isVariadic := true }] }]

def crates : Environment :=
  (((Environment.ofOptions { maxInvokeArity := 0 }).addNamespace crating).importNamespace
    "crating").1

/-- The receiver tells the type of the first argument, and the others agree on theirs. -/
theorem resolve_coherent_filling :
    let receiver := Ty.generic "Crate" [.double]
    let candidates := crates.registry.candidates "Crate" "fill" .method
    ∃ resolution,
      (crates.resolve receiver.args candidates [.int, .string, .string]).found = some resolution ∧
      resolution.Coherent (crates.registry.member resolution.member) [.double] 3 := by
  intro receiver candidates
  have built : crates.Built := .step (.addNamespace crating (.start _)) (.importNamespace _ _)
  have isFill : candidates = [181] := by
    simp only [candidates, Registry.candidates, Registry.declared, Registry.positions_eq_walk]
    decide +kernel
  have finds : (crates.resolve receiver.args candidates
      [.int, .string, .string]).found.isSome = true := by
    rw [isFill]
    decide +kernel
  obtain ⟨resolution, found⟩ := Option.isSome_iff_exists.mp finds
  have plain : ∀ ty, some receiver = some ty → ty.hasVar = false := by
    rintro ty ⟨⟩
    rfl
  have coherent := resolve_coherent built (fun _ => Registry.lt_of_mem_candidates) plain found
  exact ⟨resolution, found, coherent.2⟩

end Environment

end ScriptTyping
