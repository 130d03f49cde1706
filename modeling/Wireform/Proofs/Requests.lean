import Wireform.Derive.Expansion

/-!
# What attributes ask for

The items of the attributes of a type or a field are collected, and each of them is a request of its
own or has a fault. If none has one, the options are what is asked for, flags in no order and markers
in the order of the attributes, and fields are prepared each by itself. Of a list that is read item
by item this is shown once: it can be read exactly if each item can.
-/

namespace Wireform.Derive

variable {α β ρ σ : Type}

/-! ## Readings -/

/-- A succession of readings comes to a result if the first does and what follows it. -/
theorem bind_eq_ok (first : Reading α) (next : α → Reading β) (result : β) :
    first >>= next = .ok result ↔ ∃ between, first = .ok between ∧ next between = .ok result := by
  cases first with
  | error fault =>
      constructor
      · rintro ⟨⟩
      · rintro ⟨_, impossible, -⟩
        cases impossible
  | ok between =>
      constructor
      · exact fun later => ⟨between, rfl, later⟩
      · rintro ⟨_, ⟨⟩, later⟩
        exact later

/-- What comes of the items of a list that can be read. -/
def readable (read : α → Reading β) (items : List α) : List β :=
  items.filterMap fun item => (read item).toOption

/-- All of a list can be read exactly if each item can. -/
theorem mapM_eq_ok (read : α → Reading β) (items : List α) (results : List β) :
    items.mapM read = .ok results ↔
      (∀ item ∈ items, ∃ result, read item = .ok result) ∧ results = readable read items := by
  induction items generalizing results with
  | nil => simp [readable, Pure.pure, Except.pure, eq_comm]
  | cons item rest inductionHypothesis =>
      rw [List.mapM_cons, bind_eq_ok, List.forall_mem_cons]
      cases known : read item with
      | error fault => simp
      | ok result =>
          have more : readable read (item :: rest) = result :: readable read rest := by
            simp [readable, known, Except.toOption]
          rw [more]
          constructor
          · rintro ⟨_, ⟨⟩, further⟩
            obtain ⟨others, ended, ⟨⟩⟩ := (bind_eq_ok _ _ _).mp further
            obtain ⟨all, rfl⟩ := (inductionHypothesis others).mp ended
            exact ⟨⟨⟨result, rfl⟩, all⟩, rfl⟩
          · rintro ⟨⟨-, all⟩, rfl⟩
            exact ⟨result, rfl, (bind_eq_ok _ _ _).mpr
              ⟨_, (inductionHypothesis _).mpr ⟨all, rfl⟩, rfl⟩⟩

/-- If each item is read on its own before it is added, a list is added to a state exactly if all of
    it can be read, and what it says is added one after another. -/
theorem foldlM_eq_ok (read : α → Reading β) (add : σ → α → Reading σ) (apply : σ → β → σ)
    (separate : ∀ state item, add state item = apply state <$> read item) (items : List α)
    (start result : σ) :
    items.foldlM add start = .ok result ↔
      (∀ item ∈ items, ∃ found, read item = .ok found) ∧
        result = (readable read items).foldl apply start := by
  induction items generalizing start with
  | nil => simp [readable, Pure.pure, Except.pure, eq_comm]
  | cons item rest inductionHypothesis =>
      rw [List.foldlM_cons, bind_eq_ok, separate, List.forall_mem_cons]
      cases known : read item with
      | error fault => simp [Functor.map, Except.map]
      | ok found =>
          have more : readable read (item :: rest) = found :: readable read rest := by
            simp [readable, known, Except.toOption]
          rw [more, List.foldl_cons]
          constructor
          · rintro ⟨_, ⟨⟩, further⟩
            obtain ⟨all, rfl⟩ := (inductionHypothesis _).mp further
            exact ⟨⟨⟨found, rfl⟩, all⟩, rfl⟩
          · rintro ⟨⟨-, all⟩, rfl⟩
            exact ⟨_, rfl, (inductionHypothesis _).mpr ⟨all, rfl⟩⟩

/-! ## Attributes -/

namespace Attribute

/-- The items of an attribute that concerns descriptions. -/
def listed : Attribute → List Item
  | .reflect (.list entries) => readable Entry.item? entries
  | _ => []

/-- The attribute does not concern descriptions, or it is a list of items without literals. -/
def IsList : Attribute → Prop
  | .other => True
  | .reflect (.list entries) => .literal ∉ entries
  | .reflect .noList => False
  | .reflect (.unreadable _) => False

/-- The attribute has no fault: it is a list, and all its items can be read. -/
def Legible (read : Item → Reading ρ) (given : Attribute) : Prop :=
  given.IsList ∧ ∀ item ∈ given.listed, ∃ request, read item = .ok request

/-- What a number of attributes ask for, in their order. -/
def requests (read : Item → Reading ρ) (attributes : List Attribute) : List ρ :=
  readable read (attributes.flatMap listed)

/-- The items of attributes are collected in their order, if the attributes are lists. -/
theorem items_eq_ok (attributes : List Attribute) (items : List Item) :
    Attribute.items attributes = .ok items ↔
      (∀ given ∈ attributes, given.IsList) ∧ items = attributes.flatMap listed := by
  induction attributes generalizing items with
  | nil => simp [Attribute.items, eq_comm]
  | cons given rest inductionHypothesis =>
      rw [List.forall_mem_cons, List.flatMap_cons]
      cases given with
      | other => simp [Attribute.items, inductionHypothesis, IsList, listed]
      | reflect form =>
          simp only [Attribute.items, bind_eq_ok]
          cases form with
          | noList => simp [Form.items, IsList]
          | unreadable fault => simp [Form.items, IsList]
          | list entries =>
              have plain : (∀ entry ∈ entries, ∃ item, entry.item? = .ok item)
                  ↔ .literal ∉ entries := by
                constructor
                · intro all literal
                  obtain ⟨_, impossible⟩ := all _ literal
                  cases impossible
                · intro none entry inside
                  cases entry with
                  | literal => exact absurd inside none
                  | item item => exact ⟨item, rfl⟩
              simp only [Form.items, mapM_eq_ok, plain, inductionHypothesis, IsList, listed]
              constructor
              · rintro ⟨_, ⟨first, rfl⟩, _, ⟨others, rfl⟩, ⟨⟩⟩
                exact ⟨⟨first, others⟩, rfl⟩
              · rintro ⟨⟨first, others⟩, rfl⟩
                exact ⟨_, ⟨first, rfl⟩, _, ⟨others, rfl⟩, rfl⟩

/-- Adding up what attributes ask for succeeds exactly if they have no fault. -/
theorem foldlM_items_eq_ok (read : Item → Reading ρ) (add : σ → Item → Reading σ)
    (apply : σ → ρ → σ) (separate : ∀ state item, add state item = apply state <$> read item)
    (attributes : List Attribute) (start result : σ) :
    (do (← Attribute.items attributes).foldlM add start) = .ok result ↔
      (∀ given ∈ attributes, given.Legible read) ∧
        result = (requests read attributes).foldl apply start := by
  simp only [bind_eq_ok, items_eq_ok, foldlM_eq_ok read add apply separate]
  constructor
  · rintro ⟨_, ⟨lists, rfl⟩, all, rfl⟩
    exact ⟨fun given among => ⟨lists given among, fun item inside =>
      all item (List.mem_flatMap.mpr ⟨given, among, inside⟩)⟩, rfl⟩
  · rintro ⟨legible, rfl⟩
    refine ⟨_, ⟨fun given among => (legible given among).1, rfl⟩, fun item inside => ?_, rfl⟩
    obtain ⟨given, among, own⟩ := List.mem_flatMap.mp inside
    exact (legible given among).2 item own

end Attribute

/-! ## Requests -/

/-- What a type can be asked. -/
inductive TypeRequest
  | default
  | skipConstructor
  | custom
deriving DecidableEq

/-- What a field can be asked. -/
inductive FieldRequest
  | skip
  | mark (marker : FieldMarker)
deriving DecidableEq

/-- The marker that a field is asked to have. -/
def FieldRequest.marker? : FieldRequest → Option FieldMarker
  | .skip => none
  | .mark marker => some marker

namespace Item

/-- What an item asks of a type. Everything but three flags is unknown. -/
def typeRequest : Item → Reading TypeRequest
  | .flag path =>
      if path.is "default" then .ok .default
      else if path.is "skip_constructor" then .ok .skipConstructor
      else if path.is "custom" then .ok .custom
      else .error .unknownItem
  | _ => .error .unknownItem

/-- What an item asks of a field. Everything but two flags and two texts is unknown. -/
def fieldRequest : Item → Reading FieldRequest
  | .flag path =>
      if path.is "skip" then .ok .skip
      else if path.is "nullable" then .ok (.mark .nullable)
      else .error .unknownItem
  | .value path given =>
      if path.is "tag" then do return .mark (.tag (← given.text?))
      else if path.is "streamable" then do
        return .mark (.streamable (← Grammar.readType (← given.text?).value))
      else .error .unknownItem
  | .list _ => .error .unknownItem

end Item

/-- What the attributes of a type ask for. -/
abbrev typeRequests (attributes : List Attribute) : List TypeRequest :=
  Attribute.requests Item.typeRequest attributes

/-- The options of a type are what its attributes ask for, if these have no fault. -/
theorem TypeOptions.of_eq_ok (attributes : List Attribute) (options : TypeOptions) :
    TypeOptions.of attributes = .ok options ↔
      (∀ given ∈ attributes, given.Legible Item.typeRequest) ∧
        options = ⟨(typeRequests attributes).contains .default,
          (typeRequests attributes).contains .skipConstructor,
          (typeRequests attributes).contains .custom⟩ := by
  let apply (options : TypeOptions) : TypeRequest → TypeOptions
    | .default => { options with hasDefault := true }
    | .skipConstructor => { options with skipsConstructor := true }
    | .custom => { options with isCustom := true }
  have separate (options : TypeOptions) (item : Item) :
      options.add item = apply options <$> item.typeRequest := by
    cases item with
    | flag path =>
        simp only [TypeOptions.add, Item.typeRequest]
        split
        · rfl
        · split
          · rfl
          · split <;> rfl
    | value path given => rfl
    | list path => rfl
  have together (requests : List TypeRequest) (options : TypeOptions) :
      requests.foldl apply options = ⟨options.hasDefault || requests.contains .default,
        options.skipsConstructor || requests.contains .skipConstructor,
        options.isCustom || requests.contains .custom⟩ := by
    induction requests generalizing options with
    | nil => simp
    | cons request rest inductionHypothesis =>
        rw [List.foldl_cons, inductionHypothesis]
        cases request <;> simp [apply]
  rw [TypeOptions.of, Attribute.foldlM_items_eq_ok Item.typeRequest TypeOptions.add apply separate,
    together]
  simp

/-! ## Fields -/

namespace FieldDeclaration

variable (field : FieldDeclaration)

/-- What the attributes of a field ask for. -/
def requests : List FieldRequest := Attribute.requests Item.fieldRequest field.attributes

/-- Whether a field is asked not to travel. -/
def skipped : Bool := field.requests.contains .skip

/-- The markers that a field is asked to have, in the order of its attributes. -/
def markers : List FieldMarker := field.requests.filterMap FieldRequest.marker?

/-- How a field at a position is reached: by its name, or by the position. -/
def access (position : Nat) : Access :=
  match field.name with
  | some name => .name name
  | none => .position position

/-- The attributes of a field have no fault. -/
def Legible : Prop := ∀ given ∈ field.attributes, given.Legible Item.fieldRequest

end FieldDeclaration

/-- The options of a field are what its attributes ask for, if these have no fault. -/
theorem FieldOptions.of_eq_ok (field : FieldDeclaration) (options : FieldOptions) :
    FieldOptions.of field.attributes = .ok options ↔
      field.Legible ∧ options = ⟨field.skipped, field.markers⟩ := by
  let apply (options : FieldOptions) : FieldRequest → FieldOptions
    | .skip => { options with skipped := true }
    | .mark marker => { options with markers := options.markers ++ [marker] }
  have separate (options : FieldOptions) (item : Item) :
      options.add item = apply options <$> item.fieldRequest := by
    cases item with
    | flag path =>
        simp only [FieldOptions.add, Item.fieldRequest]
        split
        · rfl
        · split <;> rfl
    | value path given =>
        simp only [FieldOptions.add, Item.fieldRequest]
        split
        · cases given.text? <;> rfl
        · split
          · cases given.text? with
            | error fault => rfl
            | ok text =>
                change (Grammar.readType text.value >>= _) = _ <$> (Grammar.readType text.value >>= _)
                cases Grammar.readType text.value <;> rfl
          · rfl
    | list path => rfl
  have together (requests : List FieldRequest) (options : FieldOptions) :
      requests.foldl apply options = ⟨options.skipped || requests.contains .skip,
        options.markers ++ requests.filterMap FieldRequest.marker?⟩ := by
    induction requests generalizing options with
    | nil => simp
    | cons request rest inductionHypothesis =>
        rw [List.foldl_cons, inductionHypothesis]
        cases request with
        | skip =>
            have unmarked : FieldRequest.skip.marker? = none := rfl
            simp [apply, List.filterMap_cons_none unmarked]
        | mark marker =>
            have marked : (FieldRequest.mark marker).marker? = some marker := rfl
            simp [apply, List.filterMap_cons_some marked]
  rw [FieldOptions.of, Attribute.foldlM_items_eq_ok Item.fieldRequest FieldOptions.add apply separate,
    together]
  simp [FieldDeclaration.Legible, FieldDeclaration.skipped, FieldDeclaration.markers,
    FieldDeclaration.requests]

namespace Placed

variable (placed : FieldDeclaration × Nat)

/-- A field at a position with what is asked for it. -/
def prepared : PreparedField :=
  ⟨placed.1.access placed.2, placed.1.type, placed.1.skipped, placed.1.markers⟩

/-- The registration of a field at a position. -/
def registration : Registration :=
  ⟨placed.1.access placed.2, placed.1.type, placed.1.markers⟩

/-- The value of a field at a position in the constructor: its default if the field is skipped, and
    otherwise the next argument. -/
def initializer : Initializer :=
  ⟨placed.1.access placed.2, if placed.1.skipped then .default else .argument⟩

end Placed

/-- The fields are prepared exactly if their attributes have no fault, each with its own position,
    which counts skipped fields too. -/
theorem prepare_eq_ok (fields : List FieldDeclaration) (index : Nat)
    (prepared : List PreparedField) :
    prepare index fields = .ok prepared ↔
      (∀ field ∈ fields, field.Legible) ∧
        prepared = (fields.zipIdx index).map Placed.prepared := by
  induction fields generalizing index prepared with
  | nil => simp [prepare, eq_comm]
  | cons field rest inductionHypothesis =>
      simp only [prepare, bind_eq_ok, FieldOptions.of_eq_ok, inductionHypothesis,
        List.forall_mem_cons, List.zipIdx_cons, List.map_cons]
      constructor
      · rintro ⟨_, ⟨first, rfl⟩, _, ⟨others, rfl⟩, ⟨⟩⟩
        exact ⟨⟨first, others⟩, rfl⟩
      · rintro ⟨⟨first, others⟩, rfl⟩
        exact ⟨_, ⟨first, rfl⟩, _, ⟨others, rfl⟩, rfl⟩

end Wireform.Derive
