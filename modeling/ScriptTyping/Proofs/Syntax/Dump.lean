import ScriptTyping.Proofs.Json.Value
import ScriptTyping.Proofs.Syntax.Stored

/-!
Reading a dump. Whatever types and bindings it carries, a dump is a value that can be written, and
the reader finds in it what is stored of the dumped branch.
-/

namespace ScriptTyping

/-! ### What is dumped can be written -/

namespace Json

@[simp]
theorem writable_null : Writable .null := .null

@[simp]
theorem writable_bool (value : Bool) : Writable (.bool value) := .bool value

@[simp]
theorem writable_integer (value : Int) : Writable (.integer value) := .integer value

@[simp]
theorem writable_string (value : String) : Writable (.string value) := .string value

@[simp]
theorem writable_array_iff {items : List Json} :
    Writable (.array items) ↔ ∀ item ∈ items, item.Writable := by
  constructor
  · intro writable
    cases writable
    assumption
  · exact .array

@[simp]
theorem writable_object_iff {members : List (String × Json)} :
    Writable (.object members) ↔ ∀ member ∈ members, member.2.Writable := by
  constructor
  · intro writable
    cases writable
    assumption
  · exact .object

@[simp]
theorem mem_optionalMember {name other : String} {value : Json} {json : Option Json} :
    (name, value) ∈ optionalMember other json ↔ name = other ∧ json = some value := by
  cases json <;> simp [optionalMember, eq_comm]

theorem writable_ofName (tyName : TyName) : (ofName tyName).Writable := by
  simp only [ofName, writable_object_iff, List.forall_mem_singleton, List.forall_mem_cons,
    writable_string, true_and]
  rintro ⟨name, value⟩ inside
  obtain ⟨_, isHome⟩ := mem_optionalMember.mp inside
  obtain ⟨home, _, rfl⟩ := Option.map_eq_some_iff.mp isHome
  exact writable_string home

mutual

theorem writable_ofTy : (ty : Ty) → (ofTy ty).Writable
  | .var index => by simp [ofTy]
  | .prim prim => by simp [ofTy]
  | .named tyName => writable_ofName tyName
  | .applied head args => by
    have writtenArgs := writable_ofTys args
    simpa [ofTy, writable_ofName] using writtenArgs
  | .fn params result => by
    have writtenParams := writable_ofTys params
    have writtenResult := writable_ofTy result
    simpa [ofTy, writtenResult] using writtenParams
  | .void => writable_string _
  | .object => writable_string _
  | .dynamic => writable_string _
  | .never => writable_string _

theorem writable_ofTys : (types : List Ty) → ∀ json ∈ ofTys types, json.Writable
  | [] => by simp [ofTys]
  | ty :: rest => by
    have writtenTy := writable_ofTy ty
    have writtenRest := writable_ofTys rest
    simpa [ofTys, writtenTy] using writtenRest

end

theorem writable_ofBinary64 (number : Binary64) : (ofBinary64 number).Writable := by
  obtain ⟨numeral, isDecimal⟩ := number.text_numeral
  unfold ofBinary64
  split
  · exact .decimal numeral isDecimal
  · exact .null

theorem writable_ofConst (value : Const) : (ofConst value).Writable := by
  cases value <;> simp [ofConst, writable_ofBinary64]

theorem writable_ofTypeArgs (types : List Ty) : (ofTypeArgs types).Writable := by
  rw [ofTypeArgs, writable_array_iff]
  intro json inside
  obtain ⟨⟨ty, index⟩, _, rfl⟩ := List.mem_map.mp inside
  simp [writable_ofTy]

theorem writable_ofBinding (binding : Binding) : (ofBinding binding).Writable := by
  cases binding with
  | unbound => exact writable_string _
  | field access target =>
      cases access <;> cases target <;> simp [ofBinding, ofAccess, ofFieldTarget]
  | invoke hint target typeArgs =>
      have writtenArgs := writable_ofTypeArgs typeArgs
      cases target <;> simp [ofBinding, ofInvokeTarget, writtenArgs]
  | construct construction =>
      have writtenParams := writable_ofTys construction.params
      simpa [ofBinding, writable_ofTy, writable_ofTypeArgs] using writtenParams
  | const value => simp [ofBinding, writable_ofConst]

def childrenOf? (branches : List Branch) : Option Json :=
  if branches.isEmpty then none else some (.array (branches.map ofBranch))

theorem ofBranches_eq_map (branches : List Branch) :
    ofBranches branches = branches.map ofBranch := by
  induction branches with
  | nil => rfl
  | cons branch rest ih => rw [ofBranches, ih, List.map_cons]

def fieldsOf (branch : Branch) : List (String × Option Json) := [
  ("tag", some (.string branch.node.tag.title)),
  ("label", branch.label.map fun label => .string label.key),
  ("text", branch.node.text.map .string),
  ("span", some (ofSpan branch.node.span)),
  ("ty", branch.node.ty.map fun ty => .string ty.text),
  ("binding", some (ofBinding branch.node.binding)),
  ("children", childrenOf? branch.kids)]

theorem ofBranch_eq (branch : Branch) : ofBranch branch =
    .object ((fieldsOf branch).flatMap fun (name, json) => optionalMember name json) := by
  obtain ⟨label, id, node, kids⟩ := branch
  cases kids with
  | nil => simp [ofBranch, fieldsOf, childrenOf?, optionalMember]
  | cons kid kids => simp [ofBranch, ofBranches_eq_map, fieldsOf, childrenOf?, optionalMember]

theorem writable_ofBranch (branch : Branch) : (ofBranch branch).Writable := by
  induction branch using Branch.induction with
  | mk branch ih =>
      rw [ofBranch_eq, writable_object_iff]
      rintro ⟨name, json⟩ inside
      simp only [fieldsOf, List.mem_flatMap, List.mem_cons, List.not_mem_nil, or_false,
        exists_eq_or_imp, exists_eq_left, mem_optionalMember, Option.some.injEq,
        Option.map_eq_some_iff] at inside
      rcases inside with ⟨-, rfl⟩ | ⟨-, _, -, rfl⟩ | ⟨-, _, -, rfl⟩ | ⟨-, rfl⟩ | ⟨-, _, -, rfl⟩ |
        ⟨-, rfl⟩ | ⟨-, children⟩
      · exact writable_string _
      · exact writable_string _
      · exact writable_string _
      · simp [ofSpan]
      · exact writable_string _
      · exact writable_ofBinding _
      · unfold childrenOf? at children
        split at children
        · cases children
        · cases children
          simpa using ih

end Json

/-! ### Tags and labels -/

theorem Tag.ofTitle?_title (tag : Tag) : Tag.ofTitle? tag.title = some tag := by
  have all : ∀ tag ∈ Tag.all, Tag.ofTitle? tag.title = some tag := by decide +kernel
  exact all tag tag.mem_all

theorem Label.ofKey?_key (label : Label) : Label.ofKey? label.key = some label := by
  cases label <;> rfl

def Span.IsStorable (span : Span) : Prop :=
  span.start < Nat.pow 2 32 ∧ span.stop < Nat.pow 2 32

/-! ### The reader and the dump -/

namespace Json

theorem filter_optionalMember (name other : String) (json : Option Json) :
    (optionalMember name json).filter (·.1 == other) =
      if name = other then optionalMember name json else [] := by
  cases json <;> simp [optionalMember, List.filter_cons]

theorem filter_fields {fields : List (String × Option Json)} {name : String}
    (absent : name ∉ fields.map (·.1)) :
    (fields.flatMap fun (name, json) => optionalMember name json).filter (·.1 == name) = [] := by
  rw [List.filter_eq_nil_iff]
  rintro ⟨other, value⟩ inside
  obtain ⟨⟨field, json⟩, isField, isMember⟩ := List.mem_flatMap.mp inside
  obtain ⟨rfl, -⟩ := mem_optionalMember.mp isMember
  intro same
  exact absent (eq_of_beq same ▸ List.mem_map_of_mem isField)

/-- A member is found by its name, whatever stands beside it. -/
theorem single?_fields {fields : List (String × Option Json)} {name : String} {json : Option Json}
    (distinct : (fields.map (·.1)).Nodup) (isField : (name, json) ∈ fields) :
    single? (fields.flatMap fun (name, json) => optionalMember name json) name = some json := by
  have named : (fields.flatMap fun (name, json) => optionalMember name json).filter (·.1 == name) =
      optionalMember name json := by
    induction fields with
    | nil => simp at isField
    | cons field fields ih =>
        obtain ⟨head, rest⟩ := List.nodup_cons.mp distinct
        rw [List.flatMap_cons, List.filter_append, filter_optionalMember]
        rcases List.mem_cons.mp isField with rfl | later
        · rw [if_pos rfl, filter_fields head, List.append_nil]
        · have other : field.1 ≠ name := fun same =>
            head (List.mem_map.mpr ⟨_, later, same.symm⟩)
          rw [if_neg other, List.nil_append, ih rest later]
  rw [single?, named]
  cases json <;> rfl

/-- The reader finds its fields in a dump and passes over all others. -/
theorem record?_ofBranch (branch : Branch) :
    (ofBranch branch).record? .refused ["tag", "label", "text", "span", "children"] =
      some [some (.string branch.node.tag.title), branch.label.map fun label => .string label.key,
        branch.node.text.map .string, some (ofSpan branch.node.span), childrenOf? branch.kids] := by
  have distinct : ((fieldsOf branch).map (·.1)).Nodup := by
    show ["tag", "label", "text", "span", "ty", "binding", "children"].Nodup
    decide
  have found := @single?_fields (fieldsOf branch)
  rw [ofBranch_eq, record?]
  simp only [List.mapM_cons, List.mapM_nil, found distinct (.head _),
    found distinct (.tail _ (.head _)), found distinct (.tail _ (.tail _ (.head _))),
    found distinct (.tail _ (.tail _ (.tail _ (.head _)))),
    found distinct (.tail _ (.tail _ (.tail _ (.tail _ (.tail _ (.tail _ (.head _))))))),
    Option.bind_eq_bind, Option.bind_some, Option.pure_def]

theorem span?_ofSpan {room : Nat} {span : Span} (storable : span.IsStorable) :
    (ofSpan span).span? (room + 1) = some span := by
  have read (value : Nat) (small : value < Nat.pow 2 32) :
      (integer value).word? 32 = some value := by
    simp [word?, natural?, small]
  have fields : (ofSpan span).record? .refused ["start", "end"] =
      some [some (integer span.start), some (integer span.stop)] := rfl
  simp [span?, fields, read, storable.1, storable.2]

end Json

/-! ### Reading a dump -/

namespace StoredNode

def at? : List Nat → StoredNode → Option StoredNode
  | [], node => some node
  | index :: path, node => node.children[index]?.bind (at? path)

/-- Whether so many levels of brackets are enough for a node: two for each level below it, and one
more for its span. -/
def Fits (room : Nat) (node : StoredNode) : Prop :=
  ∀ path, (node.at? path).isSome → 2 * path.length + 2 ≤ room

def Located (node : StoredNode) : Prop := ∀ inner ∈ node.all, inner.span.IsStorable

theorem at?_child {node child : StoredNode} (isChild : child ∈ node.children) :
    ∃ index, ∀ path, node.at? (index :: path) = child.at? path := by
  obtain ⟨index, found⟩ := List.mem_iff_getElem?.mp isChild
  exact ⟨index, fun path => by rw [at?, found, Option.bind_some]⟩

theorem Fits.child {room : Nat} {node child : StoredNode} (fits : node.Fits (room + 2))
    (isChild : child ∈ node.children) : child.Fits room := by
  obtain ⟨index, same⟩ := at?_child isChild
  intro path reached
  have enough := fits (index :: path) (by rwa [same])
  rw [List.length_cons] at enough
  omega

theorem Located.child {node child : StoredNode} (located : node.Located)
    (isChild : child ∈ node.children) : child.Located :=
  fun inner inside => located inner (all_subset isChild inside)

theorem mapM_map {α β γ : Type} {read : β → Option γ} {write : α → β} {result : α → γ}
    {values : List α} (reads : ∀ value ∈ values, read (write value) = some (result value)) :
    (values.map write).mapM read = some (values.map result) := by
  induction values with
  | nil => rfl
  | cons value rest ih =>
      obtain ⟨first, others⟩ := List.forall_mem_cons.mp reads
      simp [first, ih others]

theorem optionalField_map {α : Type} {read : Json → Option α} {write : α → String}
    {value : Option α} (reads : ∀ inner, read (.string (write inner)) = some inner) :
    optionalField read (value.map fun inner => .string (write inner)) = some value := by
  cases value with
  | none => rfl
  | some inner => simp [optionalField, Json.nullable, reads]

/-- Of a dump the reader takes what is stored of the dumped branch. -/
theorem ofJson?_ofBranch {branch : Branch} {room : Nat} (fits : branch.stored.Fits room)
    (located : branch.stored.Located) :
    ofJson? room (.ofBranch branch) = some branch.stored := by
  induction branch using Branch.induction generalizing room with
  | mk branch ih =>
      have enough : 2 ≤ room := fits [] rfl
      obtain ⟨room, rfl⟩ := Nat.exists_eq_add_of_le' enough
      have storable := located _ (mem_all_self _)
      rw [Branch.stored_eq] at storable
      have tag : Json.tag? (room + 1) (.string branch.node.tag.title) = some branch.node.tag :=
        branch.node.tag.ofTitle?_title
      have label : optionalField (·.label? (room + 1))
          (branch.label.map fun label => .string label.key) = some branch.label :=
        optionalField_map fun label => label.ofKey?_key
      have text : optionalField (·.string?) (branch.node.text.map .string) =
          some branch.node.text :=
        optionalField_map fun _ => rfl
      have span : optionalField (·.span? (room + 1)) (some (.ofSpan branch.node.span)) =
          some (some branch.node.span) :=
        congrArg (·.map some) (Json.span?_ofSpan storable)
      have children : (branch.kids.map Json.ofBranch).mapM (ofJson? room) =
          some (branch.kids.map Branch.stored) := by
        refine mapM_map fun kid member => ih kid member ?_ ?_
        · exact fits.child (by simpa using ⟨kid, member, rfl⟩)
        · exact located.child (by simpa using ⟨kid, member, rfl⟩)
      rw [ofJson?, Json.record?_ofBranch, Branch.stored_eq]
      simp only [tag, label, text, span, Option.bind_eq_bind, Option.bind_some, Option.getD_some]
      unfold Json.childrenOf?
      cases kids : branch.kids with
      | nil => rfl
      | cons kid rest =>
          rw [kids] at children
          show (((kid :: rest).map Json.ofBranch).mapM (ofJson? room)).bind _ = _
          rw [children]
          rfl

/-! ### What is read at all -/

theorem mem_of_mapM {α β : Type} {read : α → Option β} {values : List α} {results : List β}
    (reads : values.mapM read = some results) :
    ∀ result ∈ results, ∃ value ∈ values, read value = some result := by
  induction values generalizing results with
  | nil =>
      cases reads
      simp
  | cons value rest ih =>
      simp only [List.mapM_cons, Option.bind_eq_bind, Option.bind_eq_some_iff, Option.pure_def,
        Option.some.injEq] at reads
      obtain ⟨first, isFirst, others, areOthers, rfl⟩ := reads
      intro result member
      rcases List.mem_cons.mp member with rfl | later
      · exact ⟨value, List.mem_cons_self, isFirst⟩
      · obtain ⟨source, inside, isSource⟩ := ih areOthers result later
        exact ⟨source, List.mem_cons_of_mem _ inside, isSource⟩

end StoredNode

theorem Span.isStorable_nowhere : nowhere.IsStorable := ⟨by decide, by decide⟩

theorem Json.isStorable_of_span? {room : Nat} {json : Json} {span : Span}
    (reads : json.span? room = some span) : span.IsStorable := by
  unfold span? at reads
  split at reads
  · cases reads
  · split at reads
    · simp only [Option.bind_eq_bind, Option.bind_eq_some_iff, word?, Option.filter_eq_some_iff,
        decide_eq_true_eq, Option.some.injEq] at reads
      obtain ⟨start, ⟨_, startFits⟩, stop, ⟨_, stopFits⟩, rfl⟩ := reads
      exact ⟨startFits, stopFits⟩
    · cases reads

theorem isStorable_of_optionalField {room : Nat} {field : Option Json} {span : Option Span}
    (reads : optionalField (·.span? room) field = some span) : (span.getD .nowhere).IsStorable := by
  cases span with
  | none => exact Span.isStorable_nowhere
  | some span =>
      unfold optionalField Json.nullable at reads
      split at reads
      · cases reads
      · split at reads
        · cases reads
        · obtain ⟨_, isSpan, same⟩ := Option.map_eq_some_iff.mp reads
          exact Option.some.inj same ▸ Json.isStorable_of_span? isSpan

theorem StoredNode.located_mk {label : Option Label} {tag : Tag} {text : Option String}
    {span : Span} {children : List StoredNode} (storable : span.IsStorable)
    (located : ∀ child ∈ children, child.Located) :
    (mk label tag text span children).Located := by
  intro inner inside
  rw [all_eq, List.mem_cons, List.mem_flatMap] at inside
  rcases inside with rfl | ⟨child, isChild, below⟩
  · exact storable
  · exact located child isChild inner below

/-- What the reader loads has offsets of 32 bits only. -/
theorem StoredNode.located_of_ofJson? {room : Nat} {json : Json} {stored : StoredNode}
    (reads : ofJson? room json = some stored) : stored.Located := by
  induction room using Nat.strongRecOn generalizing json stored with
  | ind room ih =>
      unfold ofJson? at reads
      split at reads
      · cases reads
      · rename_i room
        split at reads
        · simp only [Option.bind_eq_bind, Option.bind_eq_some_iff] at reads
          obtain ⟨tag, _, label, _, text, _, span, isSpan, reads⟩ := reads
          have storable := isStorable_of_optionalField isSpan
          split at reads
          · cases reads
            exact located_mk storable fun child member => by simp at member
          · cases reads
          · obtain ⟨children, areChildren, same⟩ := Option.bind_eq_some_iff.mp reads
            cases same
            obtain ⟨values, _, areRead⟩ := Option.bind_eq_some_iff.mp areChildren
            refine located_mk storable fun child member => ?_
            obtain ⟨value, _, isRead⟩ := mem_of_mapM areRead child member
            exact ih _ (by omega) isRead
        · cases reads

end ScriptTyping
