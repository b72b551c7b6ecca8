import ScriptTyping.Proofs.Findings.Session
import ScriptTyping.Proofs.Outcome.Safety
import ScriptTyping.Proofs.Syntax.Dump

/-!
Dumping a tree and loading the dump. What the dump says of types and bindings is passed over, and
what is stored of the tree comes back, position by position.
-/

namespace ScriptTyping

/-! ### Positions -/

structure Spot where
  label : Option Label
  tag : Tag
  text : Option String
  span : Span
  arity : Nat
  deriving DecidableEq, Repr

def StoredNode.spot (node : StoredNode) : Spot :=
  ⟨node.label, node.tag, node.text, node.span, node.children.length⟩

namespace Tree

def at? (tree : Tree) : List Nat → Child → Option Child
  | [], child => some child
  | index :: path, child => (tree.get child.node).children[index]?.bind (tree.at? path)

def spot (tree : Tree) (child : Child) : Spot :=
  let node := tree.get child.node
  ⟨child.label, node.tag, node.text, node.span, node.children.length⟩

def spot? (tree : Tree) (path : List Nat) : Option Spot :=
  tree.root.bind fun root => (tree.at? path ⟨none, root⟩).map tree.spot

theorem Holds.map_spot {tree : Tree} {branch : Branch} (holds : tree.Holds branch)
    (path : List Nat) :
    (tree.at? path branch.child).map tree.spot = (branch.stored.at? path).map StoredNode.spot := by
  induction path generalizing branch with
  | nil =>
      simp [at?, StoredNode.at?, spot, Branch.child, holds.get_eq, holds.children_eq,
        Branch.stored_eq, StoredNode.spot, StoredNode.label, StoredNode.tag, StoredNode.text,
        StoredNode.span, StoredNode.children]
  | cons index path ih =>
      rw [at?, StoredNode.at?, Branch.children_stored, List.getElem?_map]
      show ((tree.get branch.id).children[index]?.bind (tree.at? path)).map tree.spot = _
      rw [holds.get_eq, holds.children_eq, List.getElem?_map]
      cases found : branch.kids[index]? with
      | none => rfl
      | some kid => exact ih (holds.kid (List.mem_of_getElem? found))

/-- What stands at a path is what is stored there. -/
theorem Stands.spot?_eq {tree : Tree} {branch : Branch} (stands : tree.Stands branch)
    (isRoot : tree.root = some branch.id) (path : List Nat) :
    tree.spot? path = ((branch.under none).stored.at? path).map StoredNode.spot := by
  rw [spot?, isRoot, Option.bind_some]
  exact (stands.under none).holds.map_spot path

/-- The dump of a tree is that of the branch below its root. -/
theorem Stands.toJson?_eq {tree : Tree} {branch : Branch} (stands : tree.Stands branch)
    (isRoot : tree.root = some branch.id) :
    tree.toJson? = some (.ofBranch (branch.under none)) := by
  rw [toJson?, isRoot, Option.map_some, stands.below_eq]

/-! ### Trees that come about -/

/-- Trees that are loaded, and what checking makes of them, however often and in whatever
environments they are checked. -/
inductive Arises : Tree → Prop where
  | loaded {text : String} {tree : Tree} : ofText? text = some tree → Arises tree
  | checked {tree : Tree} {environment : Environment} {outcome : Outcome} : Arises tree →
      tree.check environment = .ok outcome → Arises outcome.tree

end Tree

def Places.storable : Places where
  holds := Span.IsStorable
  nowhere := Span.isStorable_nowhere
  merge left right isLeft isRight := by
    simp only [Span.IsStorable, Span.merge] at *
    omega

namespace Places

variable {places : Places}

mutual

theorem Cover.load {tree : Tree} (cover : places.Cover tree) : (stored : StoredNode) →
    (∀ inner ∈ stored.all, places.holds inner.span) → places.Cover (tree.load stored).2
  | .mk label tag text span children, placed => by
    have isPlaced : places.holds span := placed _ (StoredNode.mem_all_self _)
    rw [Tree.load]
    exact (cover.alloc isPlaced).loadChildren _ children fun child member inner inside =>
      placed inner (StoredNode.all_subset member inside)

theorem Cover.loadChildren {tree : Tree} (cover : places.Cover tree) (parent : NodeId) :
    (children : List StoredNode) →
    (∀ child ∈ children, ∀ inner ∈ child.all, places.holds inner.span) →
      places.Cover (tree.loadChildren parent children)
  | [], _ => by
    rw [Tree.loadChildren]
    exact cover
  | stored :: rest, placed => by
    obtain ⟨first, others⟩ := List.forall_mem_cons.mp placed
    rw [Tree.loadChildren]
    have loaded := cover.load stored first
    exact (loaded.same fun _ => Tree.span_pushChild _ _).loadChildren parent rest others

end

end Places

namespace Tree

theorem cover_empty (places : Places) (source : Option String) : places.Cover { source } :=
  fun _ => places.nowhere

theorem ofStored_cover {stored : StoredNode} (located : stored.Located) (source : Option String) :
    Places.storable.Cover (ofStored source stored) := by
  have cover := (cover_empty Places.storable source).load stored located
  exact cover.same fun _ => span_setRoot _

theorem located_of_ofText? {text : String} {tree : Tree} (loads : ofText? text = some tree) :
    ∃ source stored, tree = ofStored source stored ∧ stored.Located := by
  obtain ⟨json, _, loads⟩ := Option.bind_eq_some_iff.mp loads
  unfold ofJson? at loads
  split at loads
  · simp only [Option.bind_eq_bind, Option.bind_eq_some_iff, Option.some.injEq] at loads
    obtain ⟨source, _, stored, reads, same⟩ := loads
    exact ⟨source, stored, same.symm, StoredNode.located_of_ofJson? reads⟩
  · cases loads

/-- A tree that arises hangs together as a tree, and its offsets fit 32 bits. -/
theorem Arises.stands {tree : Tree} (arises : tree.Arises) : ∃ branch,
    tree.root = some branch.id ∧ tree.Stands branch ∧ Places.storable.Cover tree := by
  induction arises with
  | loaded loads =>
      obtain ⟨source, stored, rfl, located⟩ := located_of_ofText? loads
      obtain ⟨branch, isRoot, stands, _⟩ := ofStored_stands source stored
      exact ⟨branch, isRoot, stands, ofStored_cover located source⟩
  | @checked tree environment outcome _ checked ih =>
      obtain ⟨branch, isRoot, stands, cover⟩ := ih
      have after := stands.check_stands isRoot environment
      rw [checked] at after
      obtain ⟨top, isTop, standsAfter⟩ := after
      refine ⟨top, isTop, standsAfter, ?_⟩
      obtain ⟨⟨result, last⟩, run, isOutcome⟩ := Except.bind_eq_ok.mp checked
      have tells : Check.Tells Places.storable checkRoot := checkRoot_tells
      rw [← Except.ok.inj isOutcome]
      exact tells.covers cover run

theorem Holds.located {tree : Tree} {branch : Branch} (holds : tree.Holds branch)
    (cover : Places.storable.Cover tree) : branch.stored.Located := by
  induction branch using Branch.induction with
  | mk branch ih =>
      have storable := cover branch.id
      rw [span, holds.get_eq] at storable
      rw [Branch.stored_eq]
      refine StoredNode.located_mk storable fun child isChild => ?_
      obtain ⟨kid, member, rfl⟩ := List.mem_map.mp isChild
      exact ih kid member (holds.kid member)

/-! ### Loading a dump -/

open JsonText

def envelope (before : List (String × Json)) (text : String) (after : List (String × Json)) :
    String :=
  "\x7b" ++ ",".intercalate
    (compactMembers before ++ ("\"root\":" ++ text) :: compactMembers after) ++ "\x7d"

section Envelope

variable {before after : List (String × Json)}

theorem ofText?_envelope {text : String} {json : Json} (reads : Reads text.toList json)
    (writable : ∀ member ∈ before ++ after, member.2.Writable) :
    Json.ofText? (envelope before text after) =
      some (.object (before ++ ("root", json) :: after)) := by
  have written (members : List (String × Json)) (inside : members ⊆ before ++ after) :
      List.Forall₂ ReadsMember ((members.map compactMember).map String.toList) members :=
    forall₂_map fun member isMember =>
      readsMember_compact (reads_compact (writable member (inside isMember)))
  have root : ReadsMember ("\"root\":" ++ text).toList ("root", json) :=
    ⟨[], _, isGap_nil, reads, by simp [show (quote "root").toList = "\"root\"".toList from rfl]⟩
  have all := List.rel_append (written before (List.subset_append_left _ _))
    (.cons root (written after (List.subset_append_right _ _)))
  have whole := reads_object isGap_nil isGap_nil all (by simp)
  refine Reads.ofText? ?_
  rw [envelope, compactMembers_eq_map, compactMembers_eq_map]
  simpa [String.toList_intercalate] using whole

theorem ofJson?_envelope {source : Option String} {json : Json}
    (unnamed : ∀ member ∈ before ++ after, member.1 ≠ "root")
    (named : (Json.single? (before ++ after) "source").bind (optionalField (·.string?)) =
      some source) :
    ofJson? (.object (before ++ ("root", json) :: after)) =
      (StoredNode.ofJson? (maxDepth - 1) json).map (ofStored source) := by
  have root : Json.single? (before ++ ("root", json) :: after) "root" = some (some json) := by
    have none (members : List (String × Json)) (inside : members ⊆ before ++ after) :
        members.filter (·.1 == "root") = [] := by
      rw [List.filter_eq_nil_iff]
      exact fun member isMember same => unnamed member (inside isMember) (eq_of_beq same)
    simp [Json.single?, none before (by simp), none after (by simp)]
  have others : Json.single? (before ++ ("root", json) :: after) "source" =
      Json.single? (before ++ after) "source" := by
    simp [Json.single?]
  obtain ⟨field, isField, isSource⟩ := Option.bind_eq_some_iff.mp named
  simp only [ofJson?, Json.record?, List.mapM_cons, List.mapM_nil, others, isField, root, isSource,
    Option.bind_eq_bind, Option.bind_some, Option.pure_def]
  cases StoredNode.ofJson? (maxDepth - 1) json <;> rfl

end Envelope

theorem Stands.fits {tree : Tree} {branch : Branch} (stands : tree.Stands branch)
    (isRoot : tree.root = some branch.id)
    (fits : ∀ path, (tree.spot? path).isSome → 2 * path.length + 3 ≤ maxDepth) :
    (branch.under none).stored.Fits (maxDepth - 1) := by
  intro path reached
  have enough := fits path (by rw [stands.spot?_eq isRoot]; simpa using reached)
  omega

theorem Holds.length_lt {tree : Tree} {branch : Branch} {path : List Nat} (holds : tree.Holds branch)
    (reached : (branch.stored.at? path).isSome) : path.length < branch.ids.length := by
  induction path generalizing branch with
  | nil => exact List.length_pos_of_mem branch.id_mem_ids
  | cons index path ih =>
      rw [StoredNode.at?, Branch.children_stored, List.getElem?_map] at reached
      cases found : branch.kids[index]? with
      | none => simp [found] at reached
      | some kid =>
          have isKid := List.mem_of_getElem? found
          rw [found, Option.map_some, Option.bind_some] at reached
          have shorter := ih (holds.kid isKid) reached
          have fewer := Branch.length_ids_lt isKid
          rw [List.length_cons]
          omega

/-- A tree of few nodes is not nested too deep. -/
theorem Arises.fits {tree : Tree} (arises : tree.Arises)
    (few : 2 * tree.nodes.size + 1 ≤ maxDepth) (path : List Nat)
    (reached : (tree.spot? path).isSome) : 2 * path.length + 3 ≤ maxDepth := by
  obtain ⟨branch, isRoot, stands, _⟩ := arises.stands
  rw [stands.spot?_eq isRoot, Option.isSome_map] at reached
  have short := (stands.under none).holds.length_lt reached
  have size := (stands.under none).length_ids
  omega

/-- The dump of a tree that arises, put under the key `root` of an object, is loaded, as long as its
brackets are not nested too deep, and the loaded tree says the same at every position. -/
theorem Arises.reloads {tree : Tree} (arises : tree.Arises)
    (fits : ∀ path, (tree.spot? path).isSome → 2 * path.length + 3 ≤ maxDepth)
    {before after : List (String × Json)} {source : Option String}
    (writable : ∀ member ∈ before ++ after, member.2.Writable)
    (unnamed : ∀ member ∈ before ++ after, member.1 ≠ "root")
    (named : (Json.single? (before ++ after) "source").bind (optionalField (·.string?)) =
      some source) :
    ∃ json, tree.toJson? = some json ∧
      ∃ rebuilt, ofText? (envelope before json.prettyText after) = some rebuilt ∧
        rebuilt.source = source ∧ ∀ path, rebuilt.spot? path = tree.spot? path := by
  obtain ⟨branch, isRoot, stands, cover⟩ := arises.stands
  have located : (branch.under none).stored.Located := (stands.under none).holds.located cover
  have reads := reads_pretty (Json.writable_ofBranch (branch.under none)) 0
  have stored := StoredNode.ofJson?_ofBranch (stands.fits isRoot fits) located
  refine ⟨_, stands.toJson?_eq isRoot, ofStored source (branch.under none).stored, ?_, ?_, ?_⟩
  · rw [ofText?, Json.prettyText, ofText?_envelope reads writable, Option.bind_some,
      ofJson?_envelope unnamed named, stored, Option.map_some]
  · exact ofStored_source source _
  · intro path
    obtain ⟨copy, isTop, standsAgain, same, _⟩ :=
      ofStored_stands source (branch.under none).stored
    have unlabelled : copy.label = none := by
      rw [← copy.label_stored, same, Branch.label_stored, Branch.label_under]
    rw [standsAgain.spot?_eq isTop, stands.spot?_eq isRoot, Branch.under_eq unlabelled, same]

def listing : Json :=
  .object [("source", .string "x = [0.5, 1]"), ("root", .object [("tag", .string "Source"),
    ("children", .array [.object [("tag", .string "VarDecl"),
      ("span", .object [("start", .integer 0), ("end", .integer 12)]),
      ("children", .array [
        .object [("tag", .string "Name"), ("label", .string "name"), ("text", .string "x")],
        .object [("tag", .string "Array"), ("label", .string "expr"), ("children", .array [
          .object [("tag", .string "Double"), ("text", .string "0.5")],
          .object [("tag", .string "Integer"), ("text", .string "1")]])]])]])])]

theorem ofText?_listing : ofText? listing.text = ofJson? listing := by
  have writable : listing.Writable := by simp [listing]
  rw [ofText?, writable.ofText?_text, Option.bind_some]

/-- The declaration becomes a store and the integer is converted, and the dump is loaded as that. -/
theorem Arises.reloads_listing : ∃ loaded outcome, ofText? listing.text = some loaded ∧
    loaded.check (.ofOptions {}) = .ok outcome ∧
    outcome.tree.spot? [0] = some ⟨none, .assign, none, ⟨0, 12⟩, 2⟩ ∧
    outcome.tree.spot? [0, 1, 1] = some ⟨none, .upCast, none, .nowhere, 1⟩ ∧
    ∃ json, outcome.tree.toJson? = some json ∧
      ∃ rebuilt, ofText? (envelope [("version", .integer 1)] json.prettyText
          [("source", .string "x = [0.5, 1]")]) = some rebuilt ∧
        rebuilt.source = some "x = [0.5, 1]" ∧
        ∀ path, rebuilt.spot? path = outcome.tree.spot? path := by
  let test (outcome : Outcome) : Bool := decide (
    outcome.tree.spot? [0] = some ⟨none, .assign, none, ⟨0, 12⟩, 2⟩ ∧
    outcome.tree.spot? [0, 1, 1] = some ⟨none, .upCast, none, .nowhere, 1⟩ ∧
    2 * outcome.tree.nodes.size + 1 ≤ maxDepth)
  have run : (ofJson? listing).any (fun loaded =>
      (loaded.check (.ofOptions {})).toOption.any test) = true := by decide +kernel
  rw [← ofText?_listing] at run
  obtain ⟨loaded, loads, checks⟩ := (Option.any_eq_true _ _).mp run
  obtain ⟨outcome, checked, holds⟩ := exists_outcome checks
  obtain ⟨store, converted, few⟩ := of_decide_eq_true holds
  have arises : outcome.tree.Arises := .checked (.loaded loads) checked
  refine ⟨loaded, outcome, loads, checked, store, converted, ?_⟩
  exact arises.reloads (arises.fits few) (by simp) (by simp) rfl

end Tree

end ScriptTyping
