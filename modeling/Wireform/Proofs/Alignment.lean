import Wireform.Derive.Rendering
import Wireform.Proofs.Quoting
import Wireform.Proofs.Requests

/-!
# What is generated for an aggregate

The generated description of an aggregate is a chain of calls on a builder. Each field that travels
has its call, and its markers follow it at once; the constructor takes its arguments in the same
order and fills in defaults for the fields that do not travel. The reader of a value relies on
nothing else: an argument belongs to the field that was registered at its place.

The code is given here token by token, with one form for each kind of call, from the declaration
alone, and it is shown to be what is generated. Of the rendering nothing but the literal of a label
is taken over, which says the label. A declaration is refused for one of four reasons, of which none
depends on how far the others have been looked into.
-/

namespace Wireform.Derive

/-! ## Aggregates -/

/-- The fields that travel, each with its position among all fields. -/
def travelling (fields : List FieldDeclaration) : List (FieldDeclaration × Nat) :=
  fields.zipIdx.filter fun placed => !placed.1.skipped

/-- The builder of an aggregate, given what its type and its fields are asked. -/
def builderOf (requests : List TypeRequest) (fields : List FieldDeclaration) : Builder where
  registrations := (travelling fields).map Placed.registration
  constructor :=
    if requests.contains .skipConstructor then none
    else some (fields.zipIdx.map Placed.initializer)
  hasDefault := requests.contains .default

/-- A declaration of an aggregate without faults: its attributes can be read and those of its fields,
    it has no lifetimes, and what has no constructor has a default. -/
structure Acceptable (declaration : Declaration) (fields : List FieldDeclaration) : Prop where
  attributes : ∀ given ∈ declaration.attributes, given.Legible Item.typeRequest
  lifetimes : ∀ parameter ∈ declaration.generics.parameters, parameter.isLifetime = false
  constructible : .skipConstructor ∈ typeRequests declaration.attributes →
    .default ∈ typeRequests declaration.attributes
  fields : ∀ field ∈ fields, field.Legible

/-- The fields that are registered are those that travel. -/
theorem filterMap_registration? (fields : List (FieldDeclaration × Nat)) :
    (fields.map Placed.prepared).filterMap PreparedField.registration?
      = (fields.filter fun placed => !placed.1.skipped).map Placed.registration := by
  induction fields with
  | nil => rfl
  | cons placed rest inductionHypothesis =>
      rw [List.map_cons]
      cases known : placed.1.skipped with
      | true =>
          have left : (Placed.prepared placed).registration? = none := by
            simp [PreparedField.registration?, Placed.prepared, known]
          rw [List.filterMap_cons_none left, inductionHypothesis]
          simp [known]
      | false =>
          have stays : (Placed.prepared placed).registration? = some (Placed.registration placed) := by
            simp [PreparedField.registration?, Placed.prepared, Placed.registration, known]
          rw [List.filterMap_cons_some stays, inductionHypothesis]
          simp [known]

/-- The builder of an aggregate is what its fields ask for. -/
theorem aggregate_eq_ok (requests : List TypeRequest) (fields : List FieldDeclaration)
    (custom : Bool) (builder : Builder) :
    aggregate ⟨requests.contains .default, requests.contains .skipConstructor, custom⟩ fields
        = .ok builder ↔
      (.skipConstructor ∈ requests → .default ∈ requests) ∧ (∀ field ∈ fields, field.Legible) ∧
        builder = builderOf requests fields := by
  have initialized : (fields.zipIdx.map Placed.prepared).map PreparedField.initializer
      = fields.zipIdx.map Placed.initializer := List.map_map
  by_cases constructible : .skipConstructor ∈ requests → .default ∈ requests
  · have admitted : (requests.contains .skipConstructor && !requests.contains .default) = false := by
      simpa using constructible
    simp only [aggregate, admitted, Bool.false_eq_true, if_false, bind_eq_ok, prepare_eq_ok]
    constructor
    · rintro ⟨_, ⟨legible, rfl⟩, ⟨⟩⟩
      refine ⟨constructible, legible, ?_⟩
      rw [filterMap_registration?, initialized]
      rfl
    · rintro ⟨-, legible, rfl⟩
      refine ⟨_, ⟨legible, rfl⟩, ?_⟩
      rw [filterMap_registration?, initialized]
      rfl
  · have refused : (requests.contains .skipConstructor && !requests.contains .default) = true := by
      simpa using constructible
    simp only [aggregate, refused, if_true]
    constructor
    · rintro ⟨⟩
    · rintro ⟨possible, -⟩
      exact absurd possible constructible

/-- The expansion of an aggregate is its builder, if it has no faults. -/
theorem derive_eq_ok (declaration : Declaration) (fields : List FieldDeclaration)
    (declared : declaration.body = .aggregate fields)
    (plain : .custom ∉ typeRequests declaration.attributes) (expansion : Expansion) :
    derive declaration = .ok expansion ↔
      Acceptable declaration fields ∧
        expansion = .described declaration.name declaration.generics.bounded
          (.aggregate (builderOf (typeRequests declaration.attributes) fields)) := by
  have described : (typeRequests declaration.attributes).contains .custom = false := by
    simpa using plain
  have lifetimes : declaration.generics.parameters.any GenericParameter.isLifetime = true ↔
      ¬ ∀ parameter ∈ declaration.generics.parameters, parameter.isLifetime = false := by
    simp
  simp only [derive, bind_eq_ok, TypeOptions.of_eq_ok, declared]
  by_cases free : declaration.generics.parameters.any GenericParameter.isLifetime = true
  · simp only [free, if_true]
    constructor
    · rintro ⟨_, -, ⟨⟩⟩
    · rintro ⟨acceptable, -⟩
      exact absurd acceptable.lifetimes (lifetimes.mp free)
  · have lasting := Classical.not_not.mp (mt lifetimes.mpr free)
    constructor
    · rintro ⟨_, ⟨legible, rfl⟩, further⟩
      simp only [free, described, Bool.false_eq_true, if_false, bind_eq_ok, aggregate_eq_ok]
        at further
      obtain ⟨_, ⟨constructible, legibleFields, rfl⟩, ⟨⟩⟩ := further
      exact ⟨⟨legible, lasting, constructible, legibleFields⟩, rfl⟩
    · rintro ⟨acceptable, rfl⟩
      refine ⟨_, ⟨acceptable.attributes, rfl⟩, ?_⟩
      simp only [free, described, Bool.false_eq_true, if_false, bind_eq_ok, aggregate_eq_ok]
      exact ⟨_, ⟨acceptable.constructible, acceptable.fields, rfl⟩, rfl⟩

/-! ## Code -/

/-- A call in the chain on a builder. -/
inductive BuilderCall
  | field (type : Code) (label : String) (access : Access)
  | marker (marker : FieldMarker)
  | constructor (takesArguments : Bool) (initializers : List Initializer)
  | defaultConstructor
  | build

/-- Parts with a comma between any two. -/
def commaSeparated : List Code → Code
  | [] => []
  | [last] => last
  | first :: next :: rest => first ++ "," :: commaSeparated (next :: rest)

/-- How a field is reached: by its name, or by its position in digits. -/
def Access.atom : Access → String
  | .name given => given
  | .position index => toString index

/-- The value of a field in the constructor: the next argument, without which nothing is made, or
    the default of its type. -/
def Initializer.written : Initializer → Code
  | ⟨access, .argument⟩ => [access.atom, ":", "args", ".", "take", "(", ")", "?"]
  | ⟨access, .default⟩ =>
      [access.atom, ":", ":", ":", "core", ":", ":", "default", ":", ":", "Default", ":", ":",
        "default", "(", ")"]

/-- A marker as a value. -/
def FieldMarker.written : FieldMarker → Code
  | .nullable => [":", ":", "packetwire_codec", ":", ":", "Marker", ":", ":", "Nullable"]
  | .tag label =>
      [":", ":", "packetwire_codec", ":", ":", "Marker", ":", ":", "Tag", "(", label.spelling, ")"]
  | .streamable type =>
      [":", ":", "packetwire_codec", ":", ":", "Marker", ":", ":", "Streamable", "(", "<"] ++ type ++
        ["as", ":", ":", "packetwire_codec", ":", ":", "Reflect", ">", ":", ":", "type_info", ")"]

/-- A call as code. -/
def BuilderCall.code : BuilderCall → Code
  | .field type label access =>
      [".", "field", ":", ":", "<"] ++ type ++
        [">", "(", Text.Quoted.literal label, ",",
          "|", "v", "|", "&", "v", ".", access.atom, ",",
          "|", "v", ",", "x", "|", "v", ".", access.atom, "=", "x", ")"]
  | .marker given => [".", "marker", "("] ++ given.written ++ [")"]
  | .constructor takesArguments initializers =>
      [".", "constructor", "(", "|", if takesArguments then "args" else "_", "|",
          ":", ":", "core", ":", ":", "result", ":", ":", "Result", ":", ":", "Ok", "(",
          "Self", "\x7b"] ++
        commaSeparated (initializers.map Initializer.written) ++ ["\x7d", ")", ")"]
  | .defaultConstructor =>
      [".", "default_constructor", "(", "<", "Self", "as",
        ":", ":", "core", ":", ":", "default", ":", ":", "Default", ">", ":", ":", "default", ")"]
  | .build => [".", "build", "(", ")"]

/-- Commas are put between parts as they are in generated code. -/
theorem separated_eq_commaSeparated (parts : List Code) :
    Code.separated parts = commaSeparated parts := by
  induction parts using commaSeparated.induct with
  | case1 => rfl
  | case2 last => simp [Code.separated, commaSeparated]
  | case3 first next rest inductionHypothesis =>
      rw [commaSeparated, ← inductionHypothesis]
      simp [Code.separated]

/-- A field is reached by one token. -/
theorem Access.code_eq (access : Access) : access.code = [access.atom] := by
  cases access <;> rfl

/-- The generated value of a field in the constructor is the one that is written here. -/
theorem Initializer.code_eq (initializer : Initializer) :
    initializer.code = initializer.written := by
  obtain ⟨access, source⟩ := initializer
  cases source <;> simp [code, written, access.code_eq, Code.method, Code.core, Code.path, Code.round]

/-- The generated marker is the one that is written here. -/
theorem FieldMarker.code_eq (marker : FieldMarker) : marker.code = marker.written := by
  cases marker <;>
    simp [code, written, reflectPath, Code.library, Code.path, Code.round, Code.angle]

/-- The generated call that registers a field, with those of its markers behind it. -/
theorem code_registration (type : Code) (access : Access) (markers : List FieldMarker) :
    (Registration.mk access type markers).code
      = (BuilderCall.field type access.label.value access).code ++
        (markers.map BuilderCall.marker).flatMap BuilderCall.code := by
  have marked : markers.flatMap (fun marker => Code.method "marker" marker.code)
      = (markers.map BuilderCall.marker).flatMap BuilderCall.code := by
    rw [List.flatMap_map]
    refine congrArg (markers.flatMap ·) (funext fun marker => ?_)
    simp [Code.method, Code.round, marker.code_eq, BuilderCall.code]
  have spelled : access.label.spelling = Text.Quoted.literal access.label.value := by
    cases access <;> rfl
  rw [Registration.code, marked]
  simp [BuilderCall.code, spelled, access.code_eq, separated_eq_commaSeparated, commaSeparated,
    Code.angle, Code.round]

/-- The generated call for the constructor. -/
theorem constructorCode_eq (takesArguments : Bool) (initializers : List Initializer) :
    constructorCode takesArguments initializers
      = (BuilderCall.constructor takesArguments initializers).code := by
  have written : initializers.map Initializer.code = initializers.map Initializer.written :=
    List.map_congr_left fun initializer _ => initializer.code_eq
  rw [constructorCode, written, separated_eq_commaSeparated]
  simp [BuilderCall.code, Code.method, Code.core, Code.path, Code.round, Code.curly]

/-- The calls for a field that travels: its registration under its name or its position, and its
    markers in order. -/
def fieldCalls (placed : FieldDeclaration × Nat) : List BuilderCall :=
  .field placed.1.type (placed.1.name.getD (toString placed.2)) (placed.1.access placed.2)
    :: placed.1.markers.map .marker

/-- The calls that say how values are made, given what the type and its fields are asked: with a
    constructor unless it is to be left out, and with a default if there is to be one. -/
def makers (requests : List TypeRequest) (fields : List FieldDeclaration) : List BuilderCall :=
  (if requests.contains .skipConstructor then []
    else [.constructor (!(travelling fields).isEmpty) (fields.zipIdx.map Placed.initializer)]) ++
    ((if requests.contains .default then [.defaultConstructor] else []) ++ [.build])

/-- The calls for an aggregate: those of its fields, and then how values are made. -/
def chain (requests : List TypeRequest) (fields : List FieldDeclaration) : List BuilderCall :=
  (travelling fields).flatMap fieldCalls ++ makers requests fields

/-- A builder is written as the chain of calls. -/
theorem code_builderOf (requests : List TypeRequest) (fields : List FieldDeclaration) :
    (builderOf requests fields).code
      = [":", ":", "packetwire_codec", ":", ":", "AggregateInfo", ":", ":", "builder", ":", ":", "<",
          "Self", ">", "(", ")"] ++ (chain requests fields).flatMap BuilderCall.code := by
  have registered (placed : FieldDeclaration × Nat) :
      (Placed.registration placed).code = (fieldCalls placed).flatMap BuilderCall.code := by
    obtain ⟨⟨attributes, name, type⟩, position⟩ := placed
    rw [Placed.registration, code_registration, fieldCalls, List.flatMap_cons]
    cases name <;> rfl
  have written : (builderOf requests fields).registrations.flatMap Registration.code
      = ((travelling fields).flatMap fieldCalls).flatMap BuilderCall.code := by
    rw [List.flatMap_assoc, builderOf, List.flatMap_map]
    exact congrArg (List.flatMap · _) (funext registered)
  have empty : (builderOf requests fields).registrations.isEmpty = (travelling fields).isEmpty := by
    simp [builderOf]
  have opened : Code.library ["AggregateInfo", "builder"] ++ [":", ":"] ++ Code.angle ["Self"] ++
      Code.round [] = [":", ":", "packetwire_codec", ":", ":", "AggregateInfo", ":", ":", "builder",
        ":", ":", "<", "Self", ">", "(", ")"] := rfl
  have filling : Code.method "default_constructor"
      (Code.angle (["Self", "as"] ++ Code.core ["default", "Default"]) ++ Code.path ["default"])
        = BuilderCall.defaultConstructor.code := rfl
  have closing : Code.method "build" [] = BuilderCall.build.code := rfl
  rw [Builder.code, written, empty, opened, filling, closing]
  simp only [constructorCode_eq]
  by_cases skipped : .skipConstructor ∈ requests <;> by_cases filled : .default ∈ requests <;>
    simp [builderOf, chain, makers, skipped, filled]

/-! ## Generic parameters -/

/-- A parameter as an implementation introduces it: a type has the trait of described types as its
    last bound. -/
def GenericParameter.implemented : GenericParameter → Code
  | .lifetime code => code
  | .type attributes name bounds _ =>
      attributes ++ [name, ":"] ++
        (if bounds = [] ∨ bounds.getLast? = some "+" then bounds else bounds ++ ["+"]) ++
        [":", ":", "packetwire_codec", ":", ":", "Reflect"]
  | .const attributes name kind _ => attributes ++ ["const", name, ":"] ++ kind

/-- A parameter as the type is applied to it. -/
def GenericParameter.applied : GenericParameter → Code
  | .lifetime code => code
  | .type _ name _ _ => [name]
  | .const _ name _ _ => [name]

/-- Parameters in angle brackets, if there are any, with a comma behind the last one if it was
    declared with one. -/
def bracketed (generics : Generics) (form : GenericParameter → Code) : Code :=
  if generics.parameters = [] then []
  else
    "<" :: commaSeparated (generics.parameters.map form) ++
      (if generics.trailingComma then [","] else []) ++ [">"]

/-- Parameters are put into brackets as they are in generated code. -/
theorem list_eq_bracketed (generics : Generics) (form : GenericParameter → Code) :
    generics.list form = bracketed generics form := by
  rw [Generics.list, bracketed, separated_eq_commaSeparated]
  cases generics.parameters <;> simp [Code.angle]

/-- A parameter with its bounds is introduced as it is written here. -/
theorem GenericParameter.introduction_bounded (parameter : GenericParameter) :
    parameter.bounded.introduction = parameter.implemented := by
  cases parameter with
  | lifetime code => rfl
  | const attributes name kind preset => simp [bounded, introduction, implemented]
  | type attributes name bounds preset =>
      have full : (withReflect bounds).isEmpty = false := by
        simp only [withReflect, reflectPath]
        split <;> simp
      simp only [bounded, introduction, implemented, full, Bool.false_eq_true, if_false]
      by_cases complete : bounds = [] ∨ bounds.getLast? = some "+" <;>
        simp [withReflect, reflectPath, complete]

/-- Parameters with their bounds are introduced as they are written here. -/
theorem list_introduction_bounded (generics : Generics) :
    generics.bounded.list GenericParameter.introduction
      = bracketed generics GenericParameter.implemented := by
  have same : GenericParameter.introduction ∘ GenericParameter.bounded
      = GenericParameter.implemented := funext GenericParameter.introduction_bounded
  simp only [list_eq_bracketed, bracketed, Generics.bounded, List.map_map, same,
    List.map_eq_nil_iff]

/-- A parameter is used as before, whatever it is bounded by. -/
theorem list_use_bounded (generics : Generics) :
    generics.bounded.list GenericParameter.use = bracketed generics GenericParameter.applied := by
  have same : GenericParameter.use ∘ GenericParameter.bounded = GenericParameter.applied :=
    funext fun parameter => by cases parameter <;> rfl
  simp only [list_eq_bracketed, bracketed, Generics.bounded, List.map_map, same,
    List.map_eq_nil_iff]

/-- The implementation that is generated for a declaration, given the calls in it. -/
def implementation (declaration : Declaration) (calls : List BuilderCall) : Code :=
  "impl" :: bracketed declaration.generics GenericParameter.implemented ++
    [":", ":", "packetwire_codec", ":", ":", "Reflect", "for", declaration.name] ++
    bracketed declaration.generics GenericParameter.applied ++
    (if declaration.generics.conditions = [] then [] else "where" :: declaration.generics.conditions) ++
    ["\x7b", "fn", "type_info", "(", ")", "-", ">", ":", ":", "packetwire_codec", ":", ":", "TypeInfo",
      "\x7b", ":", ":", "packetwire_codec", ":", ":", "AggregateInfo", ":", ":", "builder", ":", ":",
      "<", "Self", ">", "(", ")"] ++
    calls.flatMap BuilderCall.code ++ ["\x7d", "\x7d"]

/-- The expansion of an aggregate is written as the implementation with its chain of calls. -/
theorem code_described (declaration : Declaration) (requests : List TypeRequest)
    (fields : List FieldDeclaration) :
    (Expansion.described declaration.name declaration.generics.bounded
        (.aggregate (builderOf requests fields))).code
      = implementation declaration (chain requests fields) := by
  have restricted : declaration.generics.bounded.restriction
      = if declaration.generics.conditions = [] then []
        else "where" :: declaration.generics.conditions := by
    cases known : declaration.generics.conditions <;>
      simp [Generics.restriction, Generics.bounded, known]
  rw [Expansion.code, Description.code, describing, code_builderOf, list_introduction_bounded,
    list_use_bounded, restricted, implementation]
  simp [reflectPath, Code.function, Code.library, Code.path, Code.round, Code.curly]

/-- The accesses of the fields that are filled from arguments are those of the fields that travel, in
    the same order. -/
theorem arguments_in_order (fields : List FieldDeclaration) :
    ((fields.zipIdx.map Placed.initializer).filter (·.source = .argument)).map Initializer.access
      = (travelling fields).map fun placed => placed.1.access placed.2 := by
  rw [travelling, List.filter_map, List.map_map]
  have alike : (fun initializer => decide (initializer.source = .argument)) ∘ Placed.initializer
      = fun placed : FieldDeclaration × Nat => !placed.1.skipped := by
    funext placed
    cases skipped : placed.1.skipped <;> simp [Placed.initializer, skipped]
  rw [alike]
  rfl

/-- Values are made in no other ways. -/
theorem mem_makers (requests : List TypeRequest) (fields : List FieldDeclaration)
    (call : BuilderCall) :
    call ∈ makers requests fields ↔
      .skipConstructor ∉ requests ∧ call = .constructor (!(travelling fields).isEmpty)
          (fields.zipIdx.map Placed.initializer) ∨
        .default ∈ requests ∧ call = .defaultConstructor ∨ call = .build := by
  by_cases skipped : .skipConstructor ∈ requests <;> by_cases filled : .default ∈ requests <;>
    simp [makers, skipped, filled]

/-- The only constructor in a chain is the one that is made of all fields, if there is one. -/
theorem constructor_mem_chain (requests : List TypeRequest) (fields : List FieldDeclaration)
    (takes : Bool) (list : List Initializer) :
    .constructor takes list ∈ chain requests fields ↔
      .skipConstructor ∉ requests ∧ takes = (!(travelling fields).isEmpty) ∧
        list = fields.zipIdx.map Placed.initializer := by
  have other : .constructor takes list ∉ (travelling fields).flatMap fieldCalls := by
    simp [fieldCalls]
  rw [chain, List.mem_append, or_iff_right other, mem_makers]
  simp

/-- There is a default constructor in a chain exactly if it was asked for. -/
theorem defaultConstructor_mem_chain (requests : List TypeRequest)
    (fields : List FieldDeclaration) :
    .defaultConstructor ∈ chain requests fields ↔ .default ∈ requests := by
  have other : .defaultConstructor ∉ (travelling fields).flatMap fieldCalls := by
    simp [fieldCalls]
  rw [chain, List.mem_append, or_iff_right other, mem_makers]
  simp

/-- What is generated for a declaration of an aggregate: an implementation whose calls are those of
    the chain, in which registrations, constructor and defaults fit together. -/
structure Aligned (declaration : Declaration) (fields : List FieldDeclaration) (code : Code)
    (calls : List BuilderCall) : Prop where
  code : code = implementation declaration calls
  /-- The calls of each field that travels, in order, and then those that say how values are made, -/
  registered : calls = (travelling fields).flatMap fieldCalls ++
    makers (typeRequests declaration.attributes) fields
  /-- among which there are no fields and no markers. -/
  apart : ∀ call ∈ makers (typeRequests declaration.attributes) fields,
    (∀ type label access, call ≠ .field type label access) ∧ ∀ marker, call ≠ .marker marker
  /-- The label of a field is a literal that says its name or its position. -/
  labelled : ∀ type label access, .field type label access ∈ calls →
    TextLiteral.value? (Text.Quoted.literal label) = some label
  /-- Every type parameter is bounded by the trait, behind what else it is bounded by. -/
  bounded : ∀ attributes name bounds preset,
    .type attributes name bounds preset ∈ declaration.generics.parameters →
      ∃ front, (front = bounds ∨ front = bounds ++ ["+"]) ∧
        (GenericParameter.type attributes name bounds preset).implemented
          = attributes ++ name :: ":" ::
            (front ++ [":", ":", "packetwire_codec", ":", ":", "Reflect"])
  /-- A constructor gives every field a value, in order: its default if it is skipped and an argument
      otherwise, so that arguments are taken in the order of the registrations. -/
  values : ∀ takes initializers, .constructor takes initializers ∈ calls →
    initializers.map Initializer.access
        = fields.zipIdx.map (fun placed => placed.1.access placed.2) ∧
      initializers.map Initializer.source
        = fields.map (fun field => if field.skipped then .default else .argument) ∧
      (initializers.filter (·.source = .argument)).map Initializer.access
        = (travelling fields).map fun placed => placed.1.access placed.2
  /-- There is a constructor exactly if it is not asked to be left out, -/
  constructor : (∃ takes initializers, .constructor takes initializers ∈ calls) ↔
    .skipConstructor ∉ typeRequests declaration.attributes
  /-- a default constructor exactly if it is asked for, -/
  default : .defaultConstructor ∈ calls ↔ .default ∈ typeRequests declaration.attributes
  /-- and one of the two in any case. -/
  made : (∃ takes initializers, .constructor takes initializers ∈ calls) ∨
    .defaultConstructor ∈ calls

/-- The implementation with the chain of calls is aligned. -/
theorem aligned_chain (declaration : Declaration) (fields : List FieldDeclaration)
    (constructible : .skipConstructor ∈ typeRequests declaration.attributes →
      .default ∈ typeRequests declaration.attributes) :
    Aligned declaration fields
      (Expansion.described declaration.name declaration.generics.bounded
        (.aggregate (builderOf (typeRequests declaration.attributes) fields))).code
      (chain (typeRequests declaration.attributes) fields) where
  code := code_described declaration (typeRequests declaration.attributes) fields
  registered := rfl
  apart := by
    intro call listed
    obtain ⟨-, rfl⟩ | ⟨-, rfl⟩ | rfl := (mem_makers _ _ _).mp listed
    · exact ⟨nofun, nofun⟩
    · exact ⟨nofun, nofun⟩
    · exact ⟨nofun, nofun⟩
  labelled := fun _ label _ _ => TextLiteral.value?_literal label
  bounded := by
    intro attributes name bounds preset _
    by_cases complete : bounds = [] ∨ bounds.getLast? = some "+"
    · exact ⟨bounds, .inl rfl, by simp [GenericParameter.implemented, complete]⟩
    · exact ⟨bounds ++ ["+"], .inr rfl, by simp [GenericParameter.implemented, complete]⟩
  values := by
    intro takes initializers listed
    obtain ⟨-, -, rfl⟩ := (constructor_mem_chain _ _ _ _).mp listed
    refine ⟨List.map_map, ?_, arguments_in_order fields⟩
    have own : Initializer.source ∘ Placed.initializer
        = (fun field : FieldDeclaration => if field.skipped then Source.default else .argument)
          ∘ Prod.fst := rfl
    rw [List.map_map, own, ← List.map_map, List.zipIdx_map_fst]
  constructor := by
    constructor
    · rintro ⟨takes, initializers, listed⟩
      exact ((constructor_mem_chain _ _ _ _).mp listed).1
    · intro kept
      exact ⟨_, _, (constructor_mem_chain _ _ _ _).mpr ⟨kept, rfl, rfl⟩⟩
  default := defaultConstructor_mem_chain _ _
  made := by
    by_cases skipped : .skipConstructor ∈ typeRequests declaration.attributes
    · exact .inr ((defaultConstructor_mem_chain _ _).mpr (constructible skipped))
    · exact .inl ⟨_, _, (constructor_mem_chain _ _ _ _).mpr ⟨skipped, rfl, rfl⟩⟩

/-- A declaration of an aggregate that is not custom is refused exactly if one of its attributes or
    of those of its fields has a fault, if it has a lifetime among its parameters, or if it has
    neither a constructor nor a default. Otherwise what is generated for it is aligned. -/
theorem derive_aggregate (declaration : Declaration) (fields : List FieldDeclaration)
    (declared : declaration.body = .aggregate fields)
    (plain : .custom ∉ typeRequests declaration.attributes) :
    ((∃ fault, derive declaration = .error fault) ↔
      (∃ given ∈ declaration.attributes, ¬ given.Legible Item.typeRequest) ∨
        (∃ field ∈ fields, ¬ field.Legible) ∨
        (∃ parameter ∈ declaration.generics.parameters, parameter.isLifetime = true) ∨
        .skipConstructor ∈ typeRequests declaration.attributes ∧
          .default ∉ typeRequests declaration.attributes) ∧
      ∀ expansion, derive declaration = .ok expansion →
        ∃ calls, Aligned declaration fields expansion.code calls := by
  have accepted := derive_eq_ok declaration fields declared plain
  constructor
  · have refused : (∃ fault, derive declaration = .error fault)
        ↔ ¬ Acceptable declaration fields := by
      cases ended : derive declaration with
      | ok expansion => simp [((accepted expansion).mp ended).1]
      | error fault =>
          refine iff_of_true ⟨fault, rfl⟩ fun acceptable => ?_
          cases ended.symm.trans ((accepted _).mpr ⟨acceptable, rfl⟩)
    have spelled : Acceptable declaration fields ↔
        (∀ given ∈ declaration.attributes, given.Legible Item.typeRequest) ∧
          (∀ field ∈ fields, field.Legible) ∧
          (∀ parameter ∈ declaration.generics.parameters, parameter.isLifetime = false) ∧
          (.skipConstructor ∈ typeRequests declaration.attributes →
            .default ∈ typeRequests declaration.attributes) :=
      ⟨fun acceptable => ⟨acceptable.attributes, acceptable.fields, acceptable.lifetimes,
          acceptable.constructible⟩,
        fun ⟨attributes, fields, lifetimes, constructible⟩ =>
          ⟨attributes, lifetimes, constructible, fields⟩⟩
    rw [refused, spelled]
    simp only [Classical.not_and_iff_not_or_not, Classical.not_forall, exists_prop,
      Bool.not_eq_false]
  · intro expansion derived
    obtain ⟨acceptable, rfl⟩ := (accepted expansion).mp derived
    exact ⟨_, aligned_chain declaration fields acceptable.constructible⟩

/-- The fields of a pair of which the first does not travel. -/
def pairFields : List FieldDeclaration :=
  [⟨[.reflect (.list [.item (.flag ⟨false, ["skip"]⟩)])], none, ["u8"]⟩,
    ⟨[.reflect (.list [.item (.value ⟨false, ["tag"]⟩ (.text (.ofText "x")))]), .other,
      .reflect (.list [.item (.flag ⟨false, ["nullable"]⟩)])], none, ["T"]⟩]

/-- A generic pair of fields without names. -/
def pair : Declaration where
  name := "Pair"
  generics := { parameters := [.type [] "T" [] []] }
  body := .aggregate pairFields

/-- What is generated for the pair registers its second field under its own position, with both
    markers, and takes the only argument for it. -/
theorem derive_aggregate_pair :
    pair.body = .aggregate pairFields ∧ .custom ∉ typeRequests pair.attributes ∧
      ∃ expansion calls, derive pair = .ok expansion ∧
        Aligned pair pairFields expansion.code calls ∧
        calls = [.field ["T"] "1" (.position 1), .marker (.tag (.ofText "x")), .marker .nullable,
          .constructor true [⟨.position 0, .default⟩, ⟨.position 1, .argument⟩], .build] := by
  have plain : .custom ∉ typeRequests pair.attributes := by decide +kernel
  obtain ⟨refused, generated⟩ := derive_aggregate pair pairFields rfl plain
  cases derived : derive pair with
  | error fault =>
      have accepted : (derive pair).isOk = true := by decide +kernel
      rw [derived] at accepted
      cases accepted
  | ok expansion =>
      obtain ⟨calls, aligned⟩ := generated expansion derived
      refine ⟨rfl, plain, expansion, calls, rfl, aligned, ?_⟩
      rw [aligned.registered]
      rfl

end Wireform.Derive
