import Mathlib.Data.List.Forall2
import Wireform.Proofs.Members

/-!
# How attributes are grouped

The items of all attributes at a place are put together before any of them is looked at. So it makes
no difference in which attributes they stand, as long as they follow one another in the same order:
a list can be split, lists can be merged, and other attributes can stand between them. For a type not
even the order counts, nor how often something is said, and of a field's items those that skip it can
stand anywhere.

What attributes write is told part by part. An attribute that is a list writes its items, and one that
cannot be taken apart is a part as a whole. Everything that is generated depends on the parts alone.
-/

namespace Wireform.Derive

variable {ρ : Type}

/-! ## Parts -/

/-- A part of what attributes write. -/
inductive Part
  /-- An item of a list. -/
  | item (trees : List Tree)
  /-- What follows the name of an attribute, if it is not taken apart. -/
  | whole (trees : List Tree)

/-- Attributes write parts, in this order. Those that do not concern descriptions write none. -/
inductive Writes : List AttributeCode → List Part → Prop
  | none : Writes [] []
  | other {given : AttributeCode} {rest : List AttributeCode} {parts : List Part} :
      given.path.is "reflect" = false → Writes rest parts → Writes (given :: rest) parts
  | list {given : AttributeCode} {rest : List AttributeCode} {parts : List Part}
      {content : List Tree} {items : List (List Tree)} :
      given.path.is "reflect" = true → given.rest = [.group .round content] → Lists content items →
        Writes rest parts → Writes (given :: rest) (items.map Part.item ++ parts)
  | whole {given : AttributeCode} {rest : List AttributeCode} {parts : List Part} :
      given.path.is "reflect" = true → Writes rest parts →
        Writes (given :: rest) (.whole given.rest :: parts)

namespace Part

/-- The items that a part is made of. -/
def items : Part → Reading (List Item)
  | .item trees => return [← Item.read trees]
  | .whole trees => (Form.read trees).items

/-- A part can be read, and so can all its items. -/
def Legible (read : Item → Reading ρ) (part : Part) : Prop :=
  ∃ items, part.items = .ok items ∧ ∀ item ∈ items, ∃ request, read item = .ok request

/-- What a part asks for. -/
def requests (read : Item → Reading ρ) (part : Part) : List ρ :=
  readable read (part.items.toOption.getD [])

end Part

/-- The items of an attribute that can be read are those that it lists. -/
theorem Attribute.listed_reflect {form : Form} {items : List Item} (read : form.items = .ok items) :
    (Attribute.reflect form).listed = items := by
  obtain ⟨entries, rfl, all⟩ := (Form.items_eq_ok _ _).mp read
  exact ((mapM_eq_ok _ _ _).mp all).2.symm

/-- An attribute is a list if its items can be read. -/
theorem Attribute.isList_reflect (form : Form) :
    (Attribute.reflect form).IsList ↔ ∃ items, form.items = .ok items := by
  have alone := Attribute.items_eq_ok [.reflect form]
  simp only [Attribute.items, bind_eq_ok, List.forall_mem_singleton] at alone
  constructor
  · intro list
    obtain ⟨items, read, -⟩ := (alone _).mpr ⟨list, rfl⟩
    exact ⟨items, read⟩
  · rintro ⟨items, read⟩
    exact ((alone _).mp ⟨items, read, [], rfl, rfl⟩).1

/-- An attribute has no fault if its items can be read and ask for something that is known. -/
theorem Attribute.legible_reflect (read : Item → Reading ρ) (form : Form) :
    (Attribute.reflect form).Legible read ↔ ∃ items, form.items = .ok items ∧
      ∀ item ∈ items, ∃ request, read item = .ok request := by
  rw [Attribute.Legible, Attribute.isList_reflect]
  constructor
  · rintro ⟨⟨items, found⟩, all⟩
    exact ⟨items, found, Attribute.listed_reflect found ▸ all⟩
  · rintro ⟨items, found, all⟩
    exact ⟨⟨items, found⟩, (Attribute.listed_reflect found).symm ▸ all⟩

namespace Part

/-- An item is read on its own. -/
theorem items_item_eq_ok (trees : List Tree) (found : List Item) :
    (Part.item trees).items = .ok found ↔ ∃ item, Item.read trees = .ok item ∧ found = [item] := by
  rw [items, bind_eq_ok]
  refine exists_congr fun item => and_congr_right fun _ => ?_
  constructor
  · rintro ⟨⟩
    rfl
  · rintro rfl
    rfl

/-- What a part asks for is what its items do. -/
theorem requests_of_items (read : Item → Reading ρ) {part : Part} {found : List Item}
    (known : part.items = .ok found) : part.requests read = readable read found := by
  rw [requests, known]
  rfl

/-- The items of a list have no fault exactly if they can be read together and ask for something that
    is known, and this is what they ask for one by one. -/
theorem forall_legible_item (read : Item → Reading ρ) (items : List (List Tree)) :
    (∀ part ∈ items.map Part.item, part.Legible read) ↔ ∃ found, items.mapM Item.read = .ok found ∧
      ∀ item ∈ found, ∃ request, read item = .ok request := by
  induction items with
  | nil =>
      refine iff_of_true nofun ⟨[], rfl, nofun⟩
  | cons item rest inductionHypothesis =>
      rw [List.map_cons, List.forall_mem_cons, inductionHypothesis]
      simp only [List.mapM_cons, bind_eq_ok, Legible, items_item_eq_ok]
      constructor
      · rintro ⟨⟨_, ⟨first, begun, rfl⟩, head⟩, found, further, tail⟩
        refine ⟨_, ⟨first, begun, found, further, rfl⟩, ?_⟩
        exact List.forall_mem_cons.mpr ⟨head first List.mem_cons_self, tail⟩
      · rintro ⟨_, ⟨first, begun, found, further, ⟨⟩⟩, all⟩
        obtain ⟨head, tail⟩ := List.forall_mem_cons.mp all
        exact ⟨⟨_, ⟨first, begun, rfl⟩, by simpa using head⟩, found, further, tail⟩

/-- What the items of a list ask for, one after another. -/
theorem flatMap_requests_item (read : Item → Reading ρ) (items : List (List Tree))
    (found : List Item) (known : items.mapM Item.read = .ok found) :
    (items.map Part.item).flatMap (Part.requests read) = readable read found := by
  induction items generalizing found with
  | nil =>
      cases known
      rfl
  | cons item rest inductionHypothesis =>
      rw [List.mapM_cons, bind_eq_ok] at known
      obtain ⟨first, begun, further⟩ := known
      obtain ⟨others, ended, ⟨⟩⟩ := (bind_eq_ok _ _ _).mp further
      have alone := requests_of_items read ((items_item_eq_ok item [first]).mpr ⟨first, begun, rfl⟩)
      rw [List.map_cons, List.flatMap_cons, inductionHypothesis others ended, alone]
      exact List.filterMap_append.symm

end Part

/-- **Attributes have no fault exactly if none of the parts has one that they write.** -/
theorem Writes.legible {attributes : List AttributeCode} {parts : List Part}
    (writes : Writes attributes parts) (read : Item → Reading ρ) :
    (∀ given ∈ attributes.map Attribute.ofCode, given.Legible read) ↔
      ∀ part ∈ parts, part.Legible read := by
  induction writes with
  | none => simp
  | other foreign _ inductionHypothesis =>
      rw [List.map_cons, List.forall_mem_cons, inductionHypothesis, Attribute.ofCode, foreign]
      exact and_iff_right ⟨trivial, fun _ listed => absurd listed List.not_mem_nil⟩
  | list own group lists _ inductionHypothesis =>
      rw [List.map_cons, List.forall_mem_cons, inductionHypothesis, Attribute.ofCode, if_pos own,
        group, Attribute.legible_reflect, List.forall_mem_append, Part.forall_legible_item]
      simp only [Form.items_read_group lists]
  | whole own _ inductionHypothesis =>
      rw [List.map_cons, List.forall_mem_cons, inductionHypothesis, Attribute.ofCode, if_pos own,
        Attribute.legible_reflect, List.forall_mem_cons]
      rfl

/-- **Attributes without faults ask for what the parts ask for that they write.** -/
theorem Writes.requests {attributes : List AttributeCode} {parts : List Part}
    (writes : Writes attributes parts) (read : Item → Reading ρ)
    (legible : ∀ given ∈ attributes.map Attribute.ofCode, given.Legible read) :
    Attribute.requests read (attributes.map Attribute.ofCode)
      = parts.flatMap (Part.requests read) := by
  induction writes with
  | none => rfl
  | other foreign _ inductionHypothesis =>
      obtain ⟨-, later⟩ := List.forall_mem_cons.mp legible
      rw [← inductionHypothesis later, Attribute.requests, Attribute.requests, List.map_cons,
        List.flatMap_cons, Attribute.ofCode, foreign]
      rfl
  | list own group lists _ inductionHypothesis =>
      obtain ⟨head, later⟩ := List.forall_mem_cons.mp legible
      rw [Attribute.ofCode, if_pos own, group, Attribute.legible_reflect] at head
      obtain ⟨found, known, -⟩ := head
      have items := (Form.items_read_group lists found).mp known
      rw [List.flatMap_append, Part.flatMap_requests_item read _ found items,
        ← inductionHypothesis later, Attribute.requests, List.map_cons, List.flatMap_cons,
        Attribute.ofCode, if_pos own, group, Attribute.listed_reflect known]
      exact List.filterMap_append
  | @whole given _ _ own _ inductionHypothesis =>
      obtain ⟨head, later⟩ := List.forall_mem_cons.mp legible
      rw [Attribute.ofCode, if_pos own, Attribute.legible_reflect] at head
      obtain ⟨found, known, -⟩ := head
      have alone : (Part.whole given.rest).requests read = readable read found :=
        Part.requests_of_items read known
      rw [List.flatMap_cons, alone, ← inductionHypothesis later, Attribute.requests, List.map_cons,
        List.flatMap_cons, Attribute.ofCode, if_pos own, Attribute.listed_reflect known]
      exact List.filterMap_append

/-! ## Options -/

/-- Attributes write the same parts in the same order, however they are grouped. -/
def Regrouped (first second : List AttributeCode) : Prop :=
  ∃ parts, Writes first parts ∧ Writes second parts

/-- Attributes write the same parts, in whatever order and however often. -/
def Rearranged (first second : List AttributeCode) : Prop :=
  ∃ before after, Writes first before ∧ Writes second after ∧ ∀ part, part ∈ before ↔ part ∈ after

/-- Whether a part is the item that skips a field. -/
def Part.isSkip : Part → Bool
  | .item [.atom (.word word)] => word = "skip"
  | _ => false

/-- Attributes write the same parts in the same order, but for the items that skip a field. Of these
    there are some in both or in neither. -/
def SkipsMoved (first second : List AttributeCode) : Prop :=
  ∃ before after, Writes first before ∧ Writes second after ∧
    before.filter (!·.isSkip) = after.filter (!·.isSkip) ∧
    before.any Part.isSkip = after.any Part.isSkip

variable {first second : List AttributeCode}

/-- The options of a type depend only on which parts its attributes write. -/
theorem TypeOptions.of_rearranged (rearranged : Rearranged first second) (options : TypeOptions)
    (read : TypeOptions.of (first.map Attribute.ofCode) = .ok options) :
    TypeOptions.of (second.map Attribute.ofCode) = .ok options := by
  obtain ⟨before, after, writes, others, same⟩ := rearranged
  obtain ⟨legible, rfl⟩ := (TypeOptions.of_eq_ok _ _).mp read
  have later : ∀ given ∈ second.map Attribute.ofCode, given.Legible Item.typeRequest := by
    rw [others.legible]
    exact fun part among => (writes.legible _).mp legible part ((same part).mpr among)
  have asked (request : TypeRequest) : request ∈ typeRequests (first.map Attribute.ofCode)
      ↔ request ∈ typeRequests (second.map Attribute.ofCode) := by
    simp only [typeRequests, writes.requests _ legible, others.requests _ later, List.mem_flatMap,
      same]
  have counted (request : TypeRequest) : (typeRequests (first.map Attribute.ofCode)).contains request
      = (typeRequests (second.map Attribute.ofCode)).contains request := by
    rw [Bool.eq_iff_iff, List.contains_iff_mem, List.contains_iff_mem, asked]
  rw [TypeOptions.of_eq_ok, counted, counted, counted]
  exact ⟨later, rfl⟩

namespace Part

/-- An item that skips a field is read as one. -/
theorem items_of_isSkip {part : Part} (skips : part.isSkip = true) :
    part.items = .ok [.flag ⟨false, ["skip"]⟩] := by
  unfold isSkip at skips
  split at skips
  · cases of_decide_eq_true skips
    rfl
  · cases skips

theorem legible_of_isSkip {part : Part} (skips : part.isSkip = true) :
    part.Legible Item.fieldRequest := by
  refine ⟨_, items_of_isSkip skips, fun item among => ?_⟩
  cases List.mem_singleton.mp among
  exact ⟨.skip, rfl⟩

theorem requests_of_isSkip {part : Part} (skips : part.isSkip = true) :
    part.requests Item.fieldRequest = [.skip] := by
  rw [requests_of_items _ (items_of_isSkip skips)]
  rfl

/-- Parts that skip a field have no fault, so they can be left out of account. -/
theorem forall_legible_filter (parts : List Part) :
    (∀ part ∈ parts.filter (!·.isSkip), part.Legible Item.fieldRequest) ↔
      ∀ part ∈ parts, part.Legible Item.fieldRequest := by
  constructor
  · intro all part among
    cases skips : part.isSkip with
    | true => exact legible_of_isSkip skips
    | false => exact all part (List.mem_filter.mpr ⟨among, by simp [skips]⟩)
  · exact fun all part among => all part (List.mem_of_mem_filter among)

/-- The markers of a field are asked for by the other parts, -/
theorem markers_filter (parts : List Part) :
    ((parts.filter (!·.isSkip)).flatMap (requests Item.fieldRequest)).filterMap FieldRequest.marker?
      = (parts.flatMap (requests Item.fieldRequest)).filterMap FieldRequest.marker? := by
  induction parts with
  | nil => rfl
  | cons part rest inductionHypothesis =>
      rw [List.flatMap_cons, List.filterMap_append, ← inductionHypothesis]
      cases skips : part.isSkip with
      | true =>
          rw [List.filter_cons_of_neg (by simp [skips]), requests_of_isSkip skips]
          rfl
      | false =>
          rw [List.filter_cons_of_pos (by simp [skips]), List.flatMap_cons, List.filterMap_append]

/-- and it is skipped if there is a part to skip it or one of the others asks for that. -/
theorem skip_mem_iff (parts : List Part) :
    .skip ∈ parts.flatMap (requests Item.fieldRequest) ↔
      parts.any isSkip = true ∨
        .skip ∈ (parts.filter (!·.isSkip)).flatMap (requests Item.fieldRequest) := by
  simp only [List.mem_flatMap, List.any_eq_true, List.mem_filter]
  constructor
  · rintro ⟨part, among, asked⟩
    cases skips : part.isSkip with
    | true => exact .inl ⟨part, among, skips⟩
    | false => exact .inr ⟨part, ⟨among, by simp [skips]⟩, asked⟩
  · rintro (⟨part, among, skips⟩ | ⟨part, ⟨among, -⟩, asked⟩)
    · exact ⟨part, among, requests_of_isSkip skips ▸ List.mem_cons_self⟩
    · exact ⟨part, among, asked⟩

end Part

/-- The options of a field depend on the order of its parts, but not on where it is skipped or how
    often. -/
theorem FieldOptions.of_skipsMoved (moved : SkipsMoved first second) (options : FieldOptions)
    (read : FieldOptions.of (first.map Attribute.ofCode) = .ok options) :
    FieldOptions.of (second.map Attribute.ofCode) = .ok options := by
  obtain ⟨before, after, writes, others, same, skipping⟩ := moved
  obtain ⟨legible, rfl⟩ :=
    (FieldOptions.of_eq_ok ⟨first.map Attribute.ofCode, none, []⟩ _).mp read
  have later : ∀ given ∈ second.map Attribute.ofCode, given.Legible Item.fieldRequest := by
    rw [others.legible, ← Part.forall_legible_filter, ← same, Part.forall_legible_filter,
      ← writes.legible]
    exact legible
  rw [FieldOptions.of_eq_ok ⟨second.map Attribute.ofCode, none, []⟩]
  refine ⟨later, ?_⟩
  have requests := writes.requests _ legible
  have moved := others.requests _ later
  have skipped : (Attribute.requests Item.fieldRequest (first.map Attribute.ofCode)).contains .skip
      = (Attribute.requests Item.fieldRequest (second.map Attribute.ofCode)).contains .skip := by
    rw [Bool.eq_iff_iff, List.contains_iff_mem, List.contains_iff_mem, requests, moved,
      Part.skip_mem_iff before, same, skipping, ← Part.skip_mem_iff after]
  have marked : (Attribute.requests Item.fieldRequest (first.map Attribute.ofCode)).filterMap
        FieldRequest.marker?
      = (Attribute.requests Item.fieldRequest (second.map Attribute.ofCode)).filterMap
        FieldRequest.marker? := by
    rw [requests, moved, ← Part.markers_filter, same, Part.markers_filter]
  simp only [FieldDeclaration.skipped, FieldDeclaration.markers, FieldDeclaration.requests, skipped,
    marked]

/-- The options of a member depend only on the parts that its attributes write in order. -/
theorem MemberOptions.of_regrouped (regrouped : Regrouped first second) (options : MemberOptions)
    (read : MemberOptions.of (first.map Attribute.ofCode) = .ok options) :
    MemberOptions.of (second.map Attribute.ofCode) = .ok options := by
  obtain ⟨parts, writes, others⟩ := regrouped
  obtain ⟨legible, rfl⟩ :=
    (MemberOptions.of_eq_ok ⟨first.map Attribute.ofCode, "", false⟩ _).mp read
  have later : ∀ given ∈ second.map Attribute.ofCode, given.Legible Item.memberRequest := by
    rw [others.legible, ← writes.legible]
    exact legible
  rw [MemberOptions.of_eq_ok ⟨second.map Attribute.ofCode, "", false⟩]
  refine ⟨later, ?_⟩
  rw [MemberDeclaration.requests, MemberDeclaration.requests, writes.requests _ legible,
    others.requests _ later]

/-- Grouping alone changes neither which parts there are nor where a field is skipped. -/
theorem Regrouped.rearranged (regrouped : Regrouped first second) : Rearranged first second := by
  obtain ⟨parts, writes, others⟩ := regrouped
  exact ⟨parts, parts, writes, others, fun _ => .rfl⟩

theorem Regrouped.skipsMoved (regrouped : Regrouped first second) : SkipsMoved first second := by
  obtain ⟨parts, writes, others⟩ := regrouped
  exact ⟨parts, parts, writes, others, rfl, rfl⟩

theorem Regrouped.symm (regrouped : Regrouped first second) : Regrouped second first := by
  obtain ⟨parts, writes, others⟩ := regrouped
  exact ⟨parts, others, writes⟩

/-! ## Declarations -/

/-- What a reading comes to another one comes to as well. -/
def Keeps {α : Type} (first second : Reading α) : Prop :=
  ∀ result, first = .ok result → second = .ok result

theorem keeps_refl {α : Type} (reading : Reading α) : Keeps reading reading := fun _ => id

theorem keeps_error {α : Type} (fault : Fault) (second : Reading α) :
    Keeps (.error fault) second := nofun

/-- Readings in succession keep what comes of them if each of them does. -/
theorem keeps_bind {α β : Type} {first second : Reading α} {next other : α → Reading β}
    (keeps : Keeps first second) (follows : ∀ found, Keeps (next found) (other found)) :
    Keeps (first >>= next) (second >>= other) := by
  intro result done
  obtain ⟨found, begun, ended⟩ := (bind_eq_ok _ _ _).mp done
  exact (bind_eq_ok _ _ _).mpr ⟨found, keeps found begun, follows found result ended⟩

/-- A field keeps the options of another one, and all else is the same. -/
structure FieldDeclaration.Follows (first second : FieldDeclaration) : Prop where
  options : Keeps (FieldOptions.of first.attributes) (FieldOptions.of second.attributes)
  name : first.name = second.name
  type : first.type = second.type

/-- A member keeps the options of another one, and all else is the same. -/
structure MemberDeclaration.Follows (first second : MemberDeclaration) : Prop where
  options : Keeps (MemberOptions.of first.attributes) (MemberOptions.of second.attributes)
  name : first.name = second.name
  hasFields : first.hasFields = second.hasFields

/-- What is declared keeps the options of its parts, and all else is the same. -/
inductive Body.Follows : Body → Body → Prop
  | aggregate {first second : List FieldDeclaration} :
      List.Forall₂ FieldDeclaration.Follows first second →
        Follows (.aggregate first) (.aggregate second)
  | enumeration {first second : List MemberDeclaration} :
      List.Forall₂ MemberDeclaration.Follows first second →
        Follows (.enumeration first) (.enumeration second)
  | union : Follows .union .union

/-- A declaration keeps the options of another one and of its parts, and all else is the same. -/
structure Declaration.Follows (first second : Declaration) : Prop where
  options : Keeps (TypeOptions.of first.attributes) (TypeOptions.of second.attributes)
  name : first.name = second.name
  generics : first.generics = second.generics
  body : first.body.Follows second.body

/-- Fields are prepared as those are that they follow. -/
theorem prepare_keeps {first second : List FieldDeclaration}
    (follows : List.Forall₂ FieldDeclaration.Follows first second) (index : Nat) :
    Keeps (prepare index first) (prepare index second) := by
  induction follows generalizing index with
  | nil => exact keeps_refl _
  | cons alike _ inductionHypothesis =>
      rw [prepare, prepare, alike.name, alike.type]
      exact keeps_bind alike.options fun options =>
        keeps_bind (inductionHypothesis (index + 1)) fun others => keeps_refl _

/-- Members are named as those are that they follow. -/
theorem nameMembers_keeps {first second : List MemberDeclaration}
    (follows : List.Forall₂ MemberDeclaration.Follows first second) (before : List NamedMember) :
    Keeps (nameMembers before first) (nameMembers before second) := by
  induction follows generalizing before with
  | nil => exact keeps_refl _
  | cons alike _ inductionHypothesis =>
      rw [nameMembers, nameMembers, alike.name, alike.hasFields]
      split
      · exact keeps_error _ _
      · apply keeps_bind alike.options
        intro options
        dsimp only
        split
        · exact keeps_error _ _
        · exact inductionHypothesis _

/-- The builder of an aggregate is that of those that follow it. -/
theorem aggregate_keeps {first second : List FieldDeclaration}
    (follows : List.Forall₂ FieldDeclaration.Follows first second) (options : TypeOptions) :
    Keeps (aggregate options first) (aggregate options second) := by
  rw [aggregate, aggregate]
  cases options.skipsConstructor && !options.hasDefault with
  | true => exact keeps_error .noConstructor _
  | false => exact keeps_bind (prepare_keeps follows 0) fun prepared => keeps_refl _

/-- What is generated for an enumeration is generated for those that follow it. -/
theorem enumeration_keeps {first second : List MemberDeclaration}
    (follows : List.Forall₂ MemberDeclaration.Follows first second) (type : String)
    (generics : Generics) :
    Keeps (enumeration type generics first) (enumeration type generics second) := by
  have empty : first.isEmpty = second.isEmpty := by cases follows <;> rfl
  rw [enumeration, enumeration, empty]
  cases generics.parameters.isEmpty with
  | false => exact keeps_error .genericEnumeration _
  | true =>
      cases second.isEmpty with
      | true => exact keeps_error .noMembers _
      | false => exact keeps_bind (nameMembers_keeps follows []) fun named => keeps_refl _

/-- What is generated for a declaration is generated for those that follow it. -/
theorem derive_keeps {first second : Declaration} (follows : first.Follows second) :
    Keeps (derive first) (derive second) := by
  obtain ⟨attributes, name, generics, body⟩ := first
  obtain ⟨others, _, _, other⟩ := second
  obtain ⟨keeps, rfl, rfl, parts⟩ := follows
  rw [derive, derive]
  apply keeps_bind keeps
  intro options
  dsimp only at parts ⊢
  split_ifs
  · exact keeps_error _ _
  · exact keeps_error _ _
  · exact keeps_refl _
  · cases parts with
    | aggregate fields =>
        exact keeps_bind (aggregate_keeps fields options) fun builder => keeps_refl _
    | enumeration members => exact enumeration_keeps members name generics
    | union => exact keeps_refl _

/-! ## Written declarations -/

section

-- how the attributes of a type, of a field and of a member can differ
variable (container field member : List AttributeCode → List AttributeCode → Prop)

/-- Fields that differ in their attributes alone. -/
structure FieldRelated (first second : Grammar.FieldCode) : Prop where
  attributes : field first.attributes second.attributes
  visibility : first.visibility = second.visibility
  name : first.name = second.name
  type : first.type = second.type

/-- Lists of fields that differ in attributes alone. -/
structure FieldsRelated (first second : Grammar.FieldsCode) : Prop where
  delimiter : first.delimiter = second.delimiter
  fields : List.Forall₂ (fun one other => FieldRelated field one.1 other.1 ∧ one.2 = other.2)
    first.fields second.fields

/-- Members that differ in their attributes alone, and in those of their fields. -/
structure MemberRelated (first second : Grammar.MemberCode) : Prop where
  attributes : member first.attributes second.attributes
  name : first.name = second.name
  fields : Option.Rel (FieldsRelated field) first.fields second.fields
  number : first.number = second.number

/-- What is declared differs in attributes alone. -/
inductive DataRelated : Grammar.DataCode → Grammar.DataCode → Prop
  | aggregate {first second : Option Grammar.FieldsCode} :
      Option.Rel (FieldsRelated field) first second →
        DataRelated (.structure first) (.structure second)
  | enumeration {first second : List (Parser.Listed Grammar.MemberCode)} :
      List.Forall₂ (fun one other => MemberRelated field member one.1 other.1 ∧ one.2 = other.2)
          first second →
        DataRelated (.enumeration first) (.enumeration second)
  | union {first second : Grammar.FieldsCode} :
      FieldsRelated field first second → DataRelated (.union first) (.union second)

/-- Declarations that differ in attributes alone: in those of the type, of its fields and of its
    members. -/
structure Related (first second : DeclarationCode) : Prop where
  attributes : container first.attributes second.attributes
  name : first.name = second.name
  generics : first.generics = second.generics
  content : DataRelated field member first.content second.content

end

section

variable {container field member : List AttributeCode → List AttributeCode → Prop}
variable {first second : DeclarationCode}

theorem FieldsRelated.follows {first second : Grammar.FieldsCode}
    (related : FieldsRelated field first second)
    (keeps : ∀ one other, field one other → Keeps (FieldOptions.of (one.map Attribute.ofCode))
      (FieldOptions.of (other.map Attribute.ofCode))) :
    List.Forall₂ FieldDeclaration.Follows
      (first.fields.map fun entry => FieldDeclaration.ofCode entry.1)
      (second.fields.map fun entry => FieldDeclaration.ofCode entry.1) := by
  rw [List.forall₂_map_left_iff, List.forall₂_map_right_iff]
  exact related.fields.imp fun _ _ ⟨alike, _⟩ =>
    ⟨keeps _ _ alike.attributes, alike.name, alike.type⟩

theorem FieldsRelated.isSome_eq {first second : Option Grammar.FieldsCode}
    (related : Option.Rel (FieldsRelated field) first second) : first.isSome = second.isSome := by
  cases related <;> rfl

/-- Declarations that differ in attributes alone follow each other, if what attributes of these kinds
    say is kept. -/
theorem Related.follows (related : Related container field member first second)
    (types : ∀ one other, container one other → Keeps (TypeOptions.of (one.map Attribute.ofCode))
      (TypeOptions.of (other.map Attribute.ofCode)))
    (fields : ∀ one other, field one other → Keeps (FieldOptions.of (one.map Attribute.ofCode))
      (FieldOptions.of (other.map Attribute.ofCode)))
    (members : ∀ one other, member one other → Keeps (MemberOptions.of (one.map Attribute.ofCode))
      (MemberOptions.of (other.map Attribute.ofCode))) :
    (Declaration.ofCode first).Follows (Declaration.ofCode second) where
  options := types _ _ related.attributes
  name := related.name
  generics := related.generics
  body := by
    obtain ⟨_, _, _, content⟩ := first
    obtain ⟨_, _, _, other⟩ := second
    cases related.content with
    | aggregate alike =>
        cases alike with
        | none => exact .aggregate .nil
        | some alike => exact .aggregate (alike.follows fields)
    | enumeration alike =>
        refine .enumeration ?_
        rw [List.forall₂_map_left_iff, List.forall₂_map_right_iff]
        exact alike.imp fun one other ⟨same, _⟩ =>
          ⟨members _ _ same.attributes, same.name, FieldsRelated.isSome_eq same.fields⟩
    | union _ => exact .union

/-- Attributes that are only grouped in another way can be exchanged for each other. -/
theorem FieldsRelated.symm {first second : Grammar.FieldsCode}
    (related : FieldsRelated Regrouped first second) : FieldsRelated Regrouped second first where
  delimiter := related.delimiter.symm
  fields := List.Forall₂.flip (related.fields.imp fun _ _ ⟨alike, comma⟩ =>
    ⟨⟨alike.attributes.symm, alike.visibility.symm, alike.name.symm, alike.type.symm⟩, comma.symm⟩)

theorem FieldsRelated.option_symm {first second : Option Grammar.FieldsCode}
    (related : Option.Rel (FieldsRelated Regrouped) first second) :
    Option.Rel (FieldsRelated Regrouped) second first := by
  cases related with
  | none => exact .none
  | some alike => exact .some alike.symm

theorem DataRelated.symm {first second : Grammar.DataCode}
    (related : DataRelated Regrouped Regrouped first second) :
    DataRelated Regrouped Regrouped second first := by
  cases related with
  | aggregate alike => exact .aggregate (FieldsRelated.option_symm alike)
  | enumeration alike =>
      exact .enumeration (List.Forall₂.flip (alike.imp fun _ _ ⟨same, comma⟩ =>
        ⟨⟨same.attributes.symm, same.name.symm, FieldsRelated.option_symm same.fields,
          same.number.symm⟩, comma.symm⟩))
  | union alike => exact .union alike.symm

theorem Related.symm (related : Related Regrouped Regrouped Regrouped first second) :
    Related Regrouped Regrouped Regrouped second first :=
  ⟨related.attributes.symm, related.name.symm, related.generics.symm, related.content.symm⟩

/-- The code that is generated for a declaration, unless it is refused. -/
def DeclarationCode.expanded? (written : DeclarationCode) : Option Code :=
  (derive (.ofCode written)).toOption.map Expansion.code

/-- What is generated for a declaration is kept if its expansion is. -/
theorem expanded?_of_keeps
    (keeps : Keeps (derive (.ofCode first)) (derive (.ofCode second))) (code : Code)
    (generated : first.expanded? = some code) : second.expanded? = some code := by
  rw [DeclarationCode.expanded?] at generated ⊢
  cases derived : derive (.ofCode first) with
  | error fault =>
      rw [derived] at generated
      cases generated
  | ok expansion =>
      rw [derived] at generated
      rw [keeps expansion derived]
      exact generated

/-- How attributes are grouped makes no difference: two declarations that write the same parts at each
    place are both refused, or the same code is generated for both. If a declaration is accepted, the
    same code is generated for any that has the same parts on its type in whatever order and however
    often, and on a field the same parts in the same order but for those that skip it. -/
theorem expansion_eq_of_related (first second : DeclarationCode) :
    (Related Regrouped Regrouped Regrouped first second →
      first.expanded? = second.expanded?) ∧
      (Related Rearranged SkipsMoved Regrouped first second →
        ∀ code, first.expanded? = some code → second.expanded? = some code) := by
  have grouped {first second : DeclarationCode}
      (related : Related Regrouped Regrouped Regrouped first second) :=
    derive_keeps (related.follows (fun _ _ same => TypeOptions.of_rearranged same.rearranged)
      (fun _ _ same => FieldOptions.of_skipsMoved same.skipsMoved)
      fun _ _ same => MemberOptions.of_regrouped same)
  constructor
  · intro related
    have onward := expanded?_of_keeps (grouped related)
    have back := expanded?_of_keeps (grouped related.symm)
    exact Option.ext fun code => ⟨onward code, back code⟩
  · intro related
    exact expanded?_of_keeps (derive_keeps (related.follows
      (fun _ _ same => TypeOptions.of_rearranged same)
      (fun _ _ same => FieldOptions.of_skipsMoved same) fun _ _ same => MemberOptions.of_regrouped same))

end

/-- A word as a tree. -/
def wordTree (word : String) : Tree := .atom (.word word)

/-- An attribute that lists words. -/
def wordsCode (words : List String) : AttributeCode where
  path := ⟨false, ["reflect"]⟩
  rest := [.group .round ((words.map wordTree).intersperse (.atom (.mark ',' false)))]
  code := []

/-- An attribute that does not concern descriptions. -/
def docCode : AttributeCode := ⟨⟨false, ["doc"]⟩, [], []⟩

/-- A word is an item on its own. -/
theorem lists_word (word : String) : Lists [wordTree word] [[wordTree word]] :=
  .last (by simp) (by simp [Plain, wordTree, Tree.IsComma])

/-- A list of two words writes both, -/
theorem writes_pair (one other : String) :
    Writes [wordsCode [one, other]] [.item [wordTree one], .item [wordTree other]] :=
  .list rfl rfl (.next false (by simp) (by simp [Plain, wordTree, Tree.IsComma]) (lists_word other))
    .none

/-- and so do two lists with another attribute between them. -/
theorem writes_split (one other : String) :
    Writes [wordsCode [one], docCode, wordsCode [other]]
      [.item [wordTree one], .item [wordTree other]] :=
  .list rfl rfl (lists_word one) (.other rfl (.list rfl rfl (lists_word other) .none))

/-- A type with one field, and the attributes of both. -/
def counter (type field : List AttributeCode) : DeclarationCode where
  attributes := type
  name := "Counter"
  generics := {}
  content := .structure (some ⟨.curly, [(⟨field, [], some "hits", ["u8"]⟩, false)]⟩)

/-- Types with one field differ in attributes alone. -/
theorem related_counter {container field : List AttributeCode → List AttributeCode → Prop}
    {type other first second : List AttributeCode} (types : container type other)
    (fields : field first second) :
    Related container field Regrouped (counter type first) (counter other second) :=
  ⟨types, rfl, rfl, .aggregate (.some ⟨rfl, .cons ⟨⟨fields, rfl, rfl, rfl⟩, rfl⟩ .nil⟩)⟩

/-- A type and a field with two words each, -/
def counterOnce : DeclarationCode :=
  counter [wordsCode ["default", "skip_constructor"]] [wordsCode ["skip", "nullable"]]

/-- the same with lists of one word, -/
def counterSplit : DeclarationCode :=
  counter [wordsCode ["default"], docCode, wordsCode ["skip_constructor"]]
    [wordsCode ["skip"], docCode, wordsCode ["nullable"]]

/-- and with the words exchanged. -/
def counterTurned : DeclarationCode :=
  counter [wordsCode ["skip_constructor", "default"]] [wordsCode ["nullable", "skip"]]

/-- The three are described by the same code. -/
theorem expansion_eq_of_related_counter :
    Related Regrouped Regrouped Regrouped counterOnce counterSplit ∧
      Related Rearranged SkipsMoved Regrouped counterOnce counterTurned ∧
      ∃ code, counterOnce.expanded? = some code ∧ counterSplit.expanded? = some code ∧
        counterTurned.expanded? = some code := by
  have grouped : Related Regrouped Regrouped Regrouped counterOnce counterSplit :=
    related_counter ⟨_, writes_pair _ _, writes_split _ _⟩ ⟨_, writes_pair _ _, writes_split _ _⟩
  have exchanged : Related Rearranged SkipsMoved Regrouped counterOnce counterTurned :=
    related_counter ⟨_, _, writes_pair _ _, writes_pair _ _, fun part => by simp [or_comm]⟩
      ⟨_, _, writes_pair _ _, writes_pair _ _, by simp [Part.isSkip, wordTree],
        by simp [Part.isSkip, wordTree]⟩
  have accepted : counterOnce.expanded?.isSome = true := by decide +kernel
  obtain ⟨code, generated⟩ := Option.isSome_iff_exists.mp accepted
  refine ⟨grouped, exchanged, code, generated, ?_, ?_⟩
  · exact (expansion_eq_of_related counterOnce counterSplit).1 grouped ▸ generated
  · exact (expansion_eq_of_related counterOnce counterTurned).2 exchanged code generated

end Wireform.Derive
