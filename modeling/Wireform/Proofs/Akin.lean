import Wireform.Proofs.Order
import Wireform.Proofs.Proper
import Wireform.Proofs.Slots

/-!
# Values that agree in what travels

Two schemas may describe the same types and differ in how aggregates are rebuilt. What they
decode from the same bytes then differs in members that do not travel: each of the two has
blanks of its own there, always the same for a type. Such values are akin. They are of one shape,
all that travels is the same in both, and only the blanks are not.

Akin values compare alike: of two values on one side the blanks are the same, so they have no
part in the comparison, and what has a part in it is the same on the other side. Therefore
sets and maps that are built from akin elements and entries keep the same ones on both sides.
-/

namespace Wireform

/-- The fields of a type, if it is an aggregate. -/
def Schema.fields (schema : Schema) (type : Ty) : List Field :=
  match schema.kind type with
  | .aggregate description => description.fields
  | _ => []

namespace Value

section

variable (schema : Schema)

mutual

/-- The value with the members that travel, in the order of the fields, and without any others. -/
def eligible : Value → Value
  | .scalar plain => .scalar plain
  | .member type index => .member type index
  | .absent inner => .absent inner
  | .present value => .present (eligible value)
  | .boxed value => .boxed (eligible value)
  | .sequence type items => .sequence type (eligibleItems items)
  | .map type entries => .map type (eligibleEntries entries)
  | .record type members => .record type (Field.values (schema.fields type) (eligibleItems members))

/-- What travels of elements or members. -/
def eligibleItems : List Value → List Value
  | [] => []
  | item :: rest => eligible item :: eligibleItems rest

/-- What travels of entries. -/
def eligibleEntries : List (Value × Value) → List (Value × Value)
  | [] => []
  | (key, value) :: rest => (eligible key, eligible value) :: eligibleEntries rest

end

/-- What travels of each element. -/
theorem eligibleItems_eq_map (items : List Value) :
    eligibleItems schema items = items.map (eligible schema) := by
  induction items with
  | nil => rfl
  | cons item rest inductionHypothesis => rw [eligibleItems, inductionHypothesis, List.map_cons]

/-- What travels of each key and each value. -/
theorem eligibleEntries_eq_map (entries : List (Value × Value)) :
    eligibleEntries schema entries
      = entries.map fun entry => (eligible schema entry.1, eligible schema entry.2) := by
  induction entries with
  | nil => rfl
  | cons entry rest inductionHypothesis =>
      obtain ⟨key, value⟩ := entry
      rw [eligibleEntries, inductionHypothesis, List.map_cons]

end

/-- Values of a type in which the same travels, with the given blanks on either side. -/
inductive Akin (schema other : Schema) (blanks others : Ty → List Value) :
    Ty → Value → Value → Prop
  | scalar (plain : Scalar) :
      Akin schema other blanks others (.leaf plain.leaf) (.scalar plain) (.scalar plain)
  | member (type : Ty) (index : Nat) :
      Akin schema other blanks others type (.member type index) (.member type index)
  | absent (inner : Ty) :
      Akin schema other blanks others (.option inner) (.absent inner) (.absent inner)
  | present (inner : Ty) (left right : Value)
      (held : Akin schema other blanks others inner left right) :
      Akin schema other blanks others (.option inner) (.present left) (.present right)
  | boxed (inner : Ty) (left right : Value)
      (held : Akin schema other blanks others inner left right) :
      Akin schema other blanks others (.boxed inner) (.boxed left) (.boxed right)
  | sequence (type part : Ty) (made : schema.itemType? type = some part)
      (pairs : List (Value × Value))
      (each : ∀ pair ∈ pairs, Akin schema other blanks others part pair.1 pair.2) :
      Akin schema other blanks others type (.sequence type (pairs.map Prod.fst))
        (.sequence type (pairs.map Prod.snd))
  | map (kind : MapKind) (key part : Ty) (pairs : List ((Value × Value) × (Value × Value)))
      (keys : ∀ pair ∈ pairs, Akin schema other blanks others key pair.1.1 pair.2.1)
      (parts : ∀ pair ∈ pairs, Akin schema other blanks others part pair.1.2 pair.2.2) :
      Akin schema other blanks others (.map kind key part)
        (.map (.map kind key part) (pairs.map Prod.fst))
        (.map (.map kind key part) (pairs.map Prod.snd))
  | record (type : Ty) (same : other.fields type = schema.fields type)
      (lengths : (others type).length = (blanks type).length) (pairs : List (Value × Value))
      (counts : pairs.length = (schema.fields type).length)
      (each : ∀ both ∈ (schema.fields type).zip pairs,
        Akin schema other blanks others both.1.type both.2.1 both.2.2) :
      Akin schema other blanks others type
        (.record type (Field.put (schema.fields type) (pairs.map Prod.fst) (blanks type)))
        (.record type (Field.put (schema.fields type) (pairs.map Prod.snd) (others type)))

namespace Akin

variable {schema other : Schema} {blanks others : Ty → List Value} {type : Ty}
  {left right : Value}

/-- Akin values are of the type. -/
theorem types (akin : Akin schema other blanks others type left right) :
    left.type = type ∧ right.type = type := by
  induction akin with
  | present inner left right held inductionHypothesis =>
      exact ⟨congrArg Ty.option inductionHypothesis.1, congrArg Ty.option inductionHypothesis.2⟩
  | boxed inner left right held inductionHypothesis =>
      exact ⟨congrArg Ty.boxed inductionHypothesis.1, congrArg Ty.boxed inductionHypothesis.2⟩
  | _ => exact ⟨rfl, rfl⟩

end Akin

/-! ## Comparisons -/

/-- A value is no other than itself. -/
theorem order_self (value : Value) : value.order value = .eq := Std.ReflCmp.compare_self

/-- At each position two lists here compare as two lists there do. -/
structure Compared (oneHere twoHere oneThere twoThere : List Value) : Prop where
  one : oneThere.length = oneHere.length
  two : twoThere.length = twoHere.length
  each : ∀ (index : Nat) (a b c d : Value), oneHere[index]? = some a → twoHere[index]? = some b →
    oneThere[index]? = some c → twoThere[index]? = some d → a.order b = c.order d

namespace Compared

variable {oneHere twoHere oneThere twoThere : List Value}

/-- Lists that compare alike at each position compare alike. -/
theorem orderItems_eq (compared : Compared oneHere twoHere oneThere twoThere) :
    orderItems oneHere twoHere = orderItems oneThere twoThere := by
  induction oneHere generalizing twoHere oneThere twoThere with
  | nil =>
      obtain rfl := List.length_eq_zero_iff.mp compared.one
      have lengths := compared.two
      cases twoHere <;> cases twoThere <;> first | rfl | cases lengths
  | cons a rest inductionHypothesis =>
      obtain _ | ⟨c, rests⟩ := oneThere
      · cases compared.one
      have lengths := compared.two
      cases twoHere <;> cases twoThere <;> try cases lengths
      · rfl
      · next b others d ends =>
          have first : a.order b = c.order d := compared.each 0 a b c d rfl rfl rfl rfl
          have later : Compared rest others rests ends :=
            ⟨Nat.succ.inj compared.one, Nat.succ.inj compared.two,
              fun index => compared.each (index + 1)⟩
          simp only [orderItems, first, inductionHypothesis later]

/-- Lists compare with themselves alike. -/
theorem refl (here there : List Value) (lengths : there.length = here.length) :
    Compared here here there there := by
  refine ⟨lengths, lengths, fun index a b c d one two three four => ?_⟩
  obtain rfl := Option.some.inj (one.symm.trans two)
  obtain rfl := Option.some.inj (three.symm.trans four)
  rw [order_self, order_self]

/-- Putting items that compare alike into one position keeps lists so. -/
theorem set (compared : Compared oneHere twoHere oneThere twoThere) (slot : Nat) (a b c d : Value)
    (alike : a.order b = c.order d) :
    Compared (oneHere.set slot a) (twoHere.set slot b) (oneThere.set slot c)
      (twoThere.set slot d) := by
  refine ⟨by simpa using compared.one, by simpa using compared.two, ?_⟩
  intro index left right other another one two three four
  by_cases same : slot = index
  · have put {items : List Value} {item found : Value}
        (there : (items.set slot item)[index]? = some found) : item = found := by
      rw [List.getElem?_set, if_pos same] at there
      split at there
      · exact Option.some.inj there
      · cases there
    rw [← put one, ← put two, ← put three, ← put four]
    exact alike
  · rw [List.getElem?_set_ne same] at one two three four
    exact compared.each index left right other another one two three four

/-- Putting items that compare alike into all fields keeps lists so. -/
theorem put (fields : List Field) (one two : List (Value × Value))
    (countOne : one.length = fields.length) (countTwo : two.length = fields.length)
    (alike : ∀ field first second, (field, first) ∈ fields.zip one →
      (field, second) ∈ fields.zip two → first.1.order second.1 = first.2.order second.2)
    (compared : Compared oneHere twoHere oneThere twoThere) :
    Compared (Field.put fields (one.map Prod.fst) oneHere)
      (Field.put fields (two.map Prod.fst) twoHere)
      (Field.put fields (one.map Prod.snd) oneThere)
      (Field.put fields (two.map Prod.snd) twoThere) := by
  induction fields generalizing one two oneHere twoHere oneThere twoThere with
  | nil =>
      obtain rfl := List.length_eq_zero_iff.mp countOne
      obtain rfl := List.length_eq_zero_iff.mp countTwo
      exact compared
  | cons field rest inductionHypothesis =>
      obtain _ | ⟨first, one⟩ := one
      · cases countOne
      obtain _ | ⟨second, two⟩ := two
      · cases countTwo
      refine inductionHypothesis one two (Nat.succ.inj countOne) (Nat.succ.inj countTwo)
        (fun other left right among behind => alike other left right
          (List.mem_cons_of_mem _ among) (List.mem_cons_of_mem _ behind)) ?_
      exact compared.set field.slot _ _ _ _
        (alike field first second List.mem_cons_self List.mem_cons_self)

end Compared

/-- Entries compare alike if their keys and their values do. -/
theorem orderEntries_eq (one two : List ((Value × Value) × (Value × Value)))
    (keys : ∀ first ∈ one, ∀ second ∈ two,
      first.1.1.order second.1.1 = first.2.1.order second.2.1)
    (parts : ∀ first ∈ one, ∀ second ∈ two,
      first.1.2.order second.1.2 = first.2.2.order second.2.2) :
    orderEntries (one.map Prod.fst) (two.map Prod.fst)
      = orderEntries (one.map Prod.snd) (two.map Prod.snd) := by
  induction one generalizing two with
  | nil => cases two <;> rfl
  | cons first rest inductionHypothesis =>
      cases two with
      | nil => rfl
      | cons second others =>
          have later := inductionHypothesis others
            (fun left among right behind => keys left (List.mem_cons_of_mem _ among) right
              (List.mem_cons_of_mem _ behind))
            (fun left among right behind => parts left (List.mem_cons_of_mem _ among) right
              (List.mem_cons_of_mem _ behind))
          simp only [List.map_cons, orderEntries, later,
            keys first List.mem_cons_self second List.mem_cons_self,
            parts first List.mem_cons_self second List.mem_cons_self]

/-- Values compare as those that are akin to them do. The induction is on how the first two are
    akin; values of different shapes are compared by their shapes alone. -/
theorem Akin.order_eq {schema other : Schema} {blanks others : Ty → List Value} {type : Ty}
    {one uno two dos : Value} (first : Akin schema other blanks others type one uno)
    (second : Akin schema other blanks others type two dos) : one.order two = uno.order dos := by
  induction first generalizing two dos with
  | scalar plain =>
      generalize Ty.leaf plain.leaf = type at second
      cases second <;> rfl
  | member type index => cases second <;> rfl
  | absent inner => cases second <;> rfl
  | present inner left right held inductionHypothesis =>
      cases second with
      | present _ _ _ heldToo => exact inductionHypothesis heldToo
      | _ => rfl
  | boxed inner left right held inductionHypothesis =>
      cases second with
      | boxed _ _ _ heldToo => exact inductionHypothesis heldToo
      | _ => rfl
  | sequence type part made pairs each inductionHypothesis =>
      cases second with
      | sequence _ otherPart madeToo otherPairs eachToo =>
          obtain rfl : part = otherPart := Option.some.inj (made.symm.trans madeToo)
          refine Compared.orderItems_eq
            ⟨by simp, by simp, fun index a b c d one two three four => ?_⟩
          rw [List.getElem?_map] at one two three four
          obtain ⟨pair, found, rfl⟩ := Option.map_eq_some_iff.mp one
          obtain ⟨otherPair, foundToo, rfl⟩ := Option.map_eq_some_iff.mp two
          rw [found] at three
          rw [foundToo] at four
          cases three
          cases four
          exact inductionHypothesis pair (List.mem_of_getElem? found)
            (eachToo otherPair (List.mem_of_getElem? foundToo))
      | _ => rfl
  | map kind key part pairs keys parts keysAlike partsAlike =>
      cases second with
      | map _ _ _ otherPairs keysToo partsToo =>
          exact orderEntries_eq pairs otherPairs
            (fun pair among otherPair behind => keysAlike pair among (keysToo otherPair behind))
            (fun pair among otherPair behind => partsAlike pair among (partsToo otherPair behind))
      | _ => rfl
  | record type same lengths pairs counts each inductionHypothesis =>
      cases second with
      | record _ _ _ otherPairs countsToo eachToo =>
          exact Compared.orderItems_eq (Compared.put _ pairs otherPairs counts countsToo
            (fun field pair otherPair among behind =>
              inductionHypothesis (field, pair) among (eachToo (field, otherPair) behind))
            (.refl _ _ lengths))
      | _ => rfl

/-! ## What travels -/

/-- Seen through a function, members agree where a field has been put in that agrees, and
    wherever they agreed before. -/
theorem getElem?_put {γ : Type} (view seen : Value → γ) (fields : List Field)
    (pairs : List (Value × Value)) (counts : pairs.length = fields.length)
    (each : ∀ both ∈ fields.zip pairs, seen both.2.2 = view both.2.1) (here there : List Value)
    (lengths : there.length = here.length) (index : Nat)
    (agree : (∃ field ∈ fields, field.slot = index) ∨
      there[index]?.map seen = here[index]?.map view) :
    (Field.put fields (pairs.map Prod.snd) there)[index]?.map seen
      = (Field.put fields (pairs.map Prod.fst) here)[index]?.map view := by
  induction fields generalizing pairs here there with
  | nil =>
      obtain ⟨_, ⟨⟩, _⟩ | same := agree
      exact same
  | cons field rest inductionHypothesis =>
      obtain _ | ⟨pair, pairs⟩ := pairs
      · cases counts
      obtain ⟨first, later⟩ := List.forall_mem_cons.mp each
      refine inductionHypothesis pairs (Nat.succ.inj counts) later _ _ (by simpa using lengths) ?_
      by_cases here : field.slot = index
      · right
        rw [List.getElem?_set, List.getElem?_set, if_pos here, if_pos here, lengths]
        split
        · exact congrArg some first
        · rfl
      · rw [List.getElem?_set_ne here, List.getElem?_set_ne here]
        refine agree.imp_left ?_
        rintro ⟨other, among, same⟩
        obtain rfl | behind := List.mem_cons.mp among
        · exact absurd same here
        · exact ⟨other, behind, same⟩

/-- The same travels in akin values. -/
theorem Akin.eligible_eq {schema other : Schema} {blanks others : Ty → List Value} {type : Ty}
    {left right : Value} (akin : Akin schema other blanks others type left right) :
    right.eligible other = left.eligible schema := by
  induction akin with
  | scalar plain => rfl
  | member type index => rfl
  | absent inner => rfl
  | present inner left right held inductionHypothesis =>
      exact congrArg Value.present inductionHypothesis
  | boxed inner left right held inductionHypothesis =>
      exact congrArg Value.boxed inductionHypothesis
  | sequence type part made pairs each inductionHypothesis =>
      simp only [eligible, eligibleItems_eq_map, List.map_map]
      exact congrArg (Value.sequence type) (List.map_congr_left inductionHypothesis)
  | map kind key part pairs keys parts sameKeys sameParts =>
      simp only [eligible, eligibleEntries_eq_map, List.map_map]
      exact congrArg (Value.map _) (List.map_congr_left fun pair among =>
        Prod.ext (sameKeys pair among) (sameParts pair among))
  | record type same lengths pairs counts each inductionHypothesis =>
      simp only [eligible, eligibleItems_eq_map, same]
      refine congrArg (Value.record type) (List.filterMap_congr fun field listed => ?_)
      rw [List.getElem?_map, List.getElem?_map]
      exact getElem?_put _ _ _ pairs counts inductionHypothesis _ _ lengths _
        (.inl ⟨field, listed, rfl⟩)

/-- Akin values with the same blanks are the same. -/
theorem Akin.eq_of_blanks {schema other : Schema} {blanks : Ty → List Value} {type : Ty}
    {left right : Value} (akin : Akin schema other blanks blanks type left right) :
    right = left := by
  induction akin with
  | scalar plain => rfl
  | member type index => rfl
  | absent inner => rfl
  | present inner left right held inductionHypothesis =>
      exact congrArg Value.present inductionHypothesis
  | boxed inner left right held inductionHypothesis =>
      exact congrArg Value.boxed inductionHypothesis
  | sequence type part made pairs each inductionHypothesis =>
      exact congrArg (Value.sequence type) (List.map_congr_left inductionHypothesis)
  | map kind key part pairs keys parts sameKeys sameParts =>
      exact congrArg (Value.map _) (List.map_congr_left fun pair among =>
        Prod.ext (sameKeys pair among) (sameParts pair among))
  | record type same lengths pairs counts each inductionHypothesis =>
      have alike : pairs.map Prod.snd = pairs.map Prod.fst := by
        refine List.map_congr_left fun pair among => ?_
        rw [← List.map_snd_zip (Nat.le_of_eq counts)] at among
        obtain ⟨both, listed, rfl⟩ := List.mem_map.mp among
        exact inductionHypothesis both listed
      rw [alike]

/-! ## Collections -/

section

variable {related : Value → Value → Prop}
  (comparable : ∀ a b c d, related a c → related b d → a.order b = c.order d)

include comparable

/-- A related element goes to the same place among related ones. -/
theorem insertAscending_related {item other : Value} {kept others : List Value}
    (alike : related item other) (each : List.Forall₂ related kept others) :
    List.Forall₂ related (insertAscending item kept) (insertAscending other others) := by
  induction each with
  | nil => exact .cons alike .nil
  | @cons head first rest later sameHead each inductionHypothesis =>
      rw [insertAscending, insertAscending, comparable item head other first alike sameHead]
      cases other.order first with
      | lt => exact .cons alike (.cons sameHead each)
      | eq => exact .cons alike each
      | gt => exact .cons sameHead inductionHypothesis

/-- A related element is found among related ones. -/
theorem any_same_related {item other : Value} {kept others : List Value}
    (alike : related item other) (each : List.Forall₂ related kept others) :
    kept.any (same item) = others.any (same other) := by
  induction each with
  | nil => rfl
  | @cons head first rest later sameHead each inductionHypothesis =>
      rw [List.any_cons, List.any_cons, inductionHypothesis, same, same,
        comparable item head other first alike sameHead]

/-- A related entry goes to the same place among related ones. -/
theorem putAscending_related {parts : Value → Value → Prop} {key other value another : Value}
    {kept others : List (Value × Value)} (alike : related key other) (part : parts value another)
    (each : List.Forall₂ (fun entry found => related entry.1 found.1 ∧ parts entry.2 found.2)
      kept others) :
    List.Forall₂ (fun entry found => related entry.1 found.1 ∧ parts entry.2 found.2)
      (putAscending key value kept) (putAscending other another others) := by
  induction each with
  | nil => exact .cons ⟨alike, part⟩ .nil
  | @cons head first rest later sameHead each inductionHypothesis =>
      rw [putAscending, putAscending, comparable key head.1 other first.1 alike sameHead.1]
      cases other.order first.1 with
      | lt => exact .cons ⟨alike, part⟩ (.cons sameHead each)
      | eq => exact .cons ⟨alike, part⟩ each
      | gt => exact .cons sameHead inductionHypothesis

/-- A related entry takes the place of a related one. -/
theorem put_related {parts : Value → Value → Prop} {key other value another : Value}
    {kept others : List (Value × Value)} (alike : related key other) (part : parts value another)
    (each : List.Forall₂ (fun entry found => related entry.1 found.1 ∧ parts entry.2 found.2)
      kept others) :
    List.Forall₂ (fun entry found => related entry.1 found.1 ∧ parts entry.2 found.2)
      (put key value kept) (put other another others) := by
  induction each with
  | nil => exact .cons ⟨alike, part⟩ .nil
  | @cons head first rest later sameHead each inductionHypothesis =>
      rw [put, put, same, same, comparable key head.1 other first.1 alike sameHead.1]
      split
      · exact .cons ⟨alike, part⟩ each
      · exact .cons sameHead inductionHypothesis

end

end Value

/-- Two outcomes are related results or one and the same failure. -/
inductive Parallel {α β : Type} (related : α → β → Prop) :
    Except Error α → Except Error β → Prop
  | ok (left : α) (right : β) (alike : related left right) : Parallel related (.ok left) (.ok right)
  | error (error : Error) : Parallel related (.error error) (.error error)

/-- What follows parallel outcomes in parallel is parallel. -/
theorem Parallel.bind {α β γ δ : Type} {related : α → β → Prop} {further : γ → δ → Prop}
    {left : Except Error α} {right : Except Error β} {next : α → Except Error γ}
    {after : β → Except Error δ} (first : Parallel related left right)
    (second : ∀ found other, related found other → Parallel further (next found) (after other)) :
    Parallel further (left >>= next) (right >>= after) := by
  cases first with
  | ok found other alike => exact second found other alike
  | error error => exact .error error

section

variable {related : Value → Value → Prop}
  (comparable : ∀ a b c d, related a c → related b d → a.order b = c.order d)

include comparable

/-- Of related elements related ones are kept, whatever the kind of the collection. -/
theorem SequenceKind.collect_related (kind : SequenceKind) {items others : List Value}
    (each : List.Forall₂ related items others) :
    Parallel (List.Forall₂ related) (kind.collect items) (kind.collect others) := by
  cases kind with
  | vector => exact .ok _ _ each
  | deque => exact .ok _ _ each
  | orderedSet =>
      refine .ok _ _ (List.rel_foldl (fun _ _ kept _ _ alike => ?_) .nil each)
      exact Value.insertAscending_related comparable alike kept
  | hashedSet =>
      refine .ok _ _ (List.rel_foldl (fun _ _ kept _ _ alike => ?_) .nil each)
      rw [Value.any_same_related comparable alike kept]
      split
      · exact kept
      · exact List.rel_append kept (.cons alike .nil)
  | array length =>
      simp only [collect, each.length_eq]
      split
      · exact .ok _ _ each
      · exact .error _

/-- Of related entries related ones are kept. -/
theorem MapKind.collect_related (kind : MapKind) {parts : Value → Value → Prop}
    {entries others : List (Value × Value)}
    (each : List.Forall₂ (fun entry found => related entry.1 found.1 ∧ parts entry.2 found.2)
      entries others) :
    List.Forall₂ (fun entry found => related entry.1 found.1 ∧ parts entry.2 found.2)
      (kind.collect entries) (kind.collect others) := by
  cases kind with
  | ordered =>
      refine List.rel_foldl (fun _ _ kept _ _ alike => ?_) .nil each
      exact Value.putAscending_related comparable alike.1 alike.2 kept
  | hashed =>
      refine List.rel_foldl (fun _ _ kept _ _ alike => ?_) .nil each
      exact Value.put_related comparable alike.1 alike.2 kept

end

/-- Related lists are the sides of a list of related pairs. -/
theorem exists_pairs_of_forall₂ {α β : Type} {related : α → β → Prop} {items : List α}
    {others : List β} (each : List.Forall₂ related items others) :
    ∃ pairs : List (α × β), pairs.map Prod.fst = items ∧ pairs.map Prod.snd = others ∧
      ∀ pair ∈ pairs, related pair.1 pair.2 := by
  induction each with
  | nil => exact ⟨[], rfl, rfl, List.forall_mem_nil _⟩
  | @cons item other rest later alike each inductionHypothesis =>
      obtain ⟨pairs, rfl, rfl, all⟩ := inductionHypothesis
      exact ⟨(item, other) :: pairs, rfl, rfl, List.forall_mem_cons.mpr ⟨alike, all⟩⟩

/-- What a sequence of the type keeps of its elements. -/
def Ty.kept : Ty → List Value → Except Error (List Value)
  | .sequence kind _, items => kind.collect items
  | _, items => .ok items

/-- A sequence is built from elements of the type that its elements have. -/
theorem Schema.collect_of_itemType (schema : Schema) (type part : Ty)
    (made : schema.itemType? type = some part) (items : List Value) :
    schema.collect type items = (do
      let checked ← items.mapM (Value.expect part)
      let kept ← type.kept checked
      return .sequence type kept) := by
  cases type with
  | sequence kind element =>
      cases made
      rfl
  | _ =>
      simp only [itemType?] at made
      split at made
      · next item found =>
          cases made
          simp only [collect, found]
          rfl
      · cases made

namespace Value.Akin

variable {schema other : Schema} {blanks others : Ty → List Value}

/-- Akin elements of any type are checked for being of a type on both sides alike. -/
theorem mapM_expect (type part : Ty) {here there : List Value}
    (each : List.Forall₂ (Akin schema other blanks others type) here there) :
    Parallel (List.Forall₂ (Akin schema other blanks others part)) (here.mapM (expect part))
      (there.mapM (expect part)) := by
  induction each with
  | nil => exact .ok _ _ .nil
  | @cons item found rest later alike each inductionHypothesis =>
      obtain ⟨left, right⟩ := alike.types
      rw [List.mapM_cons, List.mapM_cons]
      by_cases same : type = part
      · subst same
        rw [(expect_eq_ok type item item).mpr ⟨left, rfl⟩,
          (expect_eq_ok type found found).mpr ⟨right, rfl⟩]
        exact inductionHypothesis.bind fun kept keptToo alikes => .ok _ _ (.cons alike alikes)
      · have refused {value : Value} (own : value.type = type) :
            value.expect part = .error (.typeMismatch part.name) := by
          rw [expect, own, if_neg same]
        rw [refused left, refused right]
        exact .error _

/-- Akin elements make akin sequences, or none on either side for the same reason. -/
theorem collect (type element part : Ty) (made : schema.itemType? type = some part)
    (alike : other.itemType? type = some part) {here there : List Value}
    (each : List.Forall₂ (Akin schema other blanks others element) here there) :
    Parallel (Akin schema other blanks others type) (schema.collect type here)
      (other.collect type there) := by
  have kept {left right : List Value}
      (checked : List.Forall₂ (Akin schema other blanks others part) left right) :
      Parallel (List.Forall₂ (Akin schema other blanks others part)) (type.kept left)
        (type.kept right) := by
    cases type with
    | sequence kind element =>
        exact SequenceKind.collect_related (fun _ _ _ _ => Akin.order_eq) kind checked
    | _ => exact .ok _ _ checked
  rw [schema.collect_of_itemType type part made, other.collect_of_itemType type part alike]
  refine (mapM_expect element part each).bind fun left right checked =>
    (kept checked).bind fun left right all => .ok _ _ ?_
  obtain ⟨pairs, rfl, rfl, akin⟩ := exists_pairs_of_forall₂ all
  exact .sequence type part made pairs akin

/-- Akin entries make akin maps. -/
theorem collectEntries (kind : MapKind) (key part : Ty) {here there : List (Value × Value)}
    (each : List.Forall₂ (fun entry found => Akin schema other blanks others key entry.1 found.1 ∧
      Akin schema other blanks others part entry.2 found.2) here there) :
    Parallel (Akin schema other blanks others (.map kind key part))
      (Schema.collectEntries (.map kind key part) here)
      (Schema.collectEntries (.map kind key part) there) := by
  have kept := kind.collect_related (fun _ _ _ _ => Akin.order_eq) each
  obtain ⟨pairs, rfl, rfl, akin⟩ := exists_pairs_of_forall₂ each
  rw [Schema.collectEntries_of_type, Schema.collectEntries_of_type]
  · obtain ⟨keptPairs, left, right, all⟩ := exists_pairs_of_forall₂ kept
    rw [← left, ← right]
    exact .ok _ _ (.map kind key part keptPairs (fun pair among => (all pair among).1)
      fun pair among => (all pair among).2)
  · intro entry listed
    obtain ⟨pair, among, rfl⟩ := List.mem_map.mp listed
    exact ⟨(akin pair among).1.types.2, (akin pair among).2.types.2⟩
  · intro entry listed
    obtain ⟨pair, among, rfl⟩ := List.mem_map.mp listed
    exact ⟨(akin pair among).1.types.1, (akin pair among).2.types.1⟩

/-- Layers that are put around nothing or around akin values make akin values. -/
theorem rewrapThrough (type : Ty) (stripped : Bool) {here there : Option Value}
    (alike : Option.Rel (Akin schema other blanks others (type.peel stripped).2) here there) :
    Parallel (Option.Rel (Akin schema other blanks others type))
      (Context.rewrapThrough (type.peel stripped).1 here)
      (Context.rewrapThrough (type.peel stripped).1 there) := by
  induction type generalizing stripped with
  | boxed inner inductionHypothesis =>
      refine (inductionHypothesis stripped alike).bind fun left right held => ?_
      cases held with
      | none => exact .ok _ _ .none
      | some held =>
          rw [Layer.rewrap_pointer inner _ held.types.1, Layer.rewrap_pointer inner _ held.types.2]
          exact .ok _ _ (.some (.boxed inner _ _ held))
  | option inner inductionHypothesis =>
      cases stripped with
      | true =>
          cases alike with
          | none => exact .ok _ _ .none
          | some alike => exact .ok _ _ (.some alike)
      | false =>
          refine (inductionHypothesis true alike).bind fun left right held => ?_
          cases held with
          | none => exact .ok _ _ (.some (.absent inner))
          | some held =>
              rw [Layer.rewrap_nullable inner _ held.types.1,
                Layer.rewrap_nullable inner _ held.types.2]
              exact .ok _ _ (.some (.present inner _ _ held))
  | _ =>
      cases stripped
      all_goals
        cases alike with
        | none => exact .ok _ _ .none
        | some alike => exact .ok _ _ (.some alike)

/-- Values that are akin below the layers of a type are taken back alike. -/
theorem rewrap (type : Ty) {here there : Option Value}
    (alike : Option.Rel (Akin schema other blanks others type.unwrapped) here there) :
    Parallel (Akin schema other blanks others type) ((Context.of type).rewrap here)
      ((Context.of type).rewrap there) := by
  refine (rewrapThrough type false alike).bind fun left right whole => ?_
  cases whole with
  | none => exact .error _
  | some whole => exact .ok _ _ whole

end Value.Akin

end Wireform
