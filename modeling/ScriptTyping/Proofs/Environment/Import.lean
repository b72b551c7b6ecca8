import ScriptTyping.Environment.Basic
import ScriptTyping.Proofs.Registry.Growth

/-!
What an import that stops at a bad signature leaves behind, and what comes of a second import.
-/

namespace ScriptTyping

namespace NamespaceDecl

def StopsAt (decl : NamespaceDecl) (before : List Member) (error : TypeTextError) : Prop :=
  ∃ rest, decl.members = before.map .ok ++ .error error :: rest

def Reads (decl : NamespaceDecl) (members : List Member) : Prop :=
  decl.members = members.map .ok

end NamespaceDecl

namespace Registry

variable {registry : Registry} {decl : NamespaceDecl} {members before : List Member}
  {error : TypeTextError}

theorem addReadable_ok (registry : Registry) (members : List Member) :
    registry.addReadable (members.map .ok) = (registry.addMembers members, none) := by
  induction members generalizing registry with
  | nil => rfl
  | cons member rest ih => exact ih (registry.addMember member)

theorem addReadable_error (registry : Registry) (before : List Member) (error : TypeTextError)
    (rest : List (Except TypeTextError Member)) :
    registry.addReadable (before.map .ok ++ .error error :: rest) =
      (registry.addMembers before, some error) := by
  induction before generalizing registry with
  | nil => rfl
  | cons member others ih => exact ih (registry.addMember member)

/-- A namespace is registered as a whole, or up to its first bad signature. -/
theorem addNamespace_cases (registry : Registry) (decl : NamespaceDecl) :
    (∃ members, decl.Reads members ∧ registry.addNamespace decl =
        ((registry.addTypes decl.typeDefs).addMembers members, none)) ∨
      ∃ before error, decl.StopsAt before error ∧ registry.addNamespace decl =
        ((registry.addTypes decl.typeDefs).addMembers before, some error) := by
  have split : ∀ list : List (Except TypeTextError Member),
      (∃ members : List Member, list = members.map .ok) ∨
        ∃ (before : List Member) (error : TypeTextError) (rest : List (Except TypeTextError Member)),
          list = before.map .ok ++ .error error :: rest := by
    intro list
    induction list with
    | nil => exact .inl ⟨[], rfl⟩
    | cons first list ih =>
        cases first with
        | error error => exact .inr ⟨[], error, list, rfl⟩
        | ok member =>
            rcases ih with ⟨members, rfl⟩ | ⟨before, error, rest, rfl⟩
            · exact .inl ⟨member :: members, rfl⟩
            · exact .inr ⟨member :: before, error, rest, rfl⟩
  unfold addNamespace
  rcases split decl.members with ⟨members, reads⟩ | ⟨before, error, rest, stops⟩
  · refine .inl ⟨members, reads, ?_⟩
    rw [reads, addReadable_ok]
  · refine .inr ⟨before, error, ⟨rest, stops⟩, ?_⟩
    rw [stops, addReadable_error]

theorem addNamespace_reads (reads : decl.Reads members) :
    registry.addNamespace decl = ((registry.addTypes decl.typeDefs).addMembers members, none) := by
  rw [addNamespace, reads, addReadable_ok]

end Registry

namespace Environment

variable {environment : Environment} {path : String} {decl : NamespaceDecl} {members : List Member}

theorem importNamespace_reads (fresh : environment.isImported path = false)
    (known : environment.library.get? path = some decl) (reads : decl.Reads members) :
    environment.importNamespace path = ({ environment with
      registry := (environment.registry.addTypes decl.typeDefs).addMembers members
      imported := path :: environment.imported }, none) := by
  unfold importNamespace
  simp only [fresh, known, Registry.addNamespace_reads reads, Bool.false_eq_true, if_false]

/-- An import that fails at a signature leaves all types of the namespace and the members before
that signature in the registry, and nothing else. When the declaration is put right and imported
again, these members come a second time, before those that were missing. -/
theorem importNamespace_stops {error : ImportError}
    (failed : (environment.importNamespace path).2 = some error) :
    (error = .undefinedNamespace path ∧ environment.library.get? path = none ∧
      (environment.importNamespace path).1 = environment) ∨
    ∃ decl before bad, environment.library.get? path = some decl ∧ decl.StopsAt before bad ∧
      error = .badSignature bad ∧
      (environment.importNamespace path).1 = { environment with
        registry := (environment.registry.addTypes decl.typeDefs).addMembers before } ∧
      ∀ corrected missing, corrected.path = path → corrected.Reads (before ++ missing) →
        let again := ((environment.importNamespace path).1.addNamespace corrected).importNamespace
          path
        again.2 = none ∧ again.1.registry.members.toList =
          environment.registry.members.toList ++ before ++ (before ++ missing) := by
  cases imported : environment.isImported path with
  | true => simp [importNamespace, imported] at failed
  | false =>
      cases known : environment.library.get? path with
      | none =>
          have run : environment.importNamespace path =
              (environment, some (.undefinedNamespace path)) := by
            simp only [importNamespace, imported, known, Bool.false_eq_true, if_false]
          rw [run] at failed ⊢
          exact .inl ⟨(Option.some.inj failed).symm, rfl, rfl⟩
      | some decl =>
          rcases environment.registry.addNamespace_cases decl with
            ⟨members, reads, _⟩ | ⟨before, bad, stops, added⟩
          · rw [importNamespace_reads imported known reads] at failed
            simp at failed
          · have run : environment.importNamespace path = ({ environment with
                registry := (environment.registry.addTypes decl.typeDefs).addMembers before },
                some (.badSignature bad)) := by
              simp only [importNamespace, imported, known, added, Bool.false_eq_true, if_false]
            rw [run] at failed ⊢
            refine .inr ⟨decl, before, bad, rfl, stops, (Option.some.inj failed).symm, rfl, ?_⟩
            intro corrected missing samePath reads
            subst samePath
            let stopped : Environment := { environment with
              registry := (environment.registry.addTypes decl.typeDefs).addMembers before }
            have fresh : (stopped.addNamespace corrected).isImported corrected.path = false :=
              imported
            have again := importNamespace_reads fresh (Table.get?_insert_self _ _ _) reads
            change ((stopped.addNamespace corrected).importNamespace corrected.path).2 = none ∧
              ((stopped.addNamespace corrected).importNamespace
                corrected.path).1.registry.members.toList =
                  environment.registry.members.toList ++ before ++ (before ++ missing)
            rw [again]
            refine ⟨rfl, ?_⟩
            simp only [stopped, addNamespace, Registry.toList_addMembers, Registry.members_addTypes]

def halfRead : NamespaceDecl where
  path := "tools"
  types := [{ name := "Box" }]
  functions := [{ name := "first", params := ["int"] }, { name := "second", params := ["Array<"] }]

/-- The first function stays registered without its namespace, and is there twice after the second
signature is put right. -/
theorem importNamespace_stops_halfRead :
    let environment := addNamespace { registry := {} } halfRead
    let failed := (environment.importNamespace "tools").1
    (environment.importNamespace "tools").2.isSome = true ∧ failed.isImported "tools" = false ∧
      failed.registry.hasType "Box" = true ∧ failed.registry.functions "first" = [0] ∧
      ∀ corrected, corrected.path = "tools" → corrected.Reads (failed.registry.members.toList) →
        ((failed.addNamespace corrected).importNamespace "tools").1.registry.members.toList =
          failed.registry.members.toList ++ failed.registry.members.toList := by
  intro environment failed
  have stops : (environment.importNamespace "tools").2 =
      some (.badSignature .missingName) := by decide
  refine ⟨by rw [stops]; rfl, by decide, by decide, by decide, ?_⟩
  intro corrected samePath reads
  rcases importNamespace_stops stops with ⟨absurd, _⟩ | ⟨decl, before, bad, _, _, _, run, again⟩
  · simp at absurd
  · have left : failed.registry.members.toList = before := by
      simp only [failed, run, Registry.toList_addMembers, Registry.members_addTypes]
      rfl
    rw [left] at reads ⊢
    obtain ⟨_, members⟩ := again corrected [] samePath (by rw [List.append_nil]; exact reads)
    rw [List.append_nil] at members
    exact members
end Environment

end ScriptTyping
