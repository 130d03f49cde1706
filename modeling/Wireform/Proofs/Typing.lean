import Wireform.Proofs.Parts
import Wireform.Value.Collection

/-!
# Values of a type

A value carries the type that it claims to be of. It is typed if it is of that type
all the way down: members of enumerations exist, elements and entries are of the types
that their collection declares, the fields of an aggregate are of theirs, and a
collection holds what one of its kind can hold, so that sets and the keys of maps are
in order or at least distinct. Members that do not travel are only asked for their
own type.

Collecting typed elements or entries gives back the collection that they are of, if
they are such as it can hold.
-/

namespace Wireform

variable {α : Type}

/-! ## Collections -/

/-- The elements are such as a collection of the kind can hold. -/
def SequenceKind.Holds (kind : SequenceKind) (items : List Value) : Prop :=
  match kind with
  | .vector => True
  | .deque => True
  | .orderedSet => items.Pairwise fun earlier later => later.order earlier = .gt
  | .hashedSet => items.Pairwise fun earlier later => later.same earlier = false
  | .array length => items.length = length

/-- The entries are such as a map of the kind can hold. -/
def MapKind.Holds (kind : MapKind) (entries : List (Value × Value)) : Prop :=
  match kind with
  | .ordered => entries.Pairwise fun earlier later => later.1.order earlier.1 = .gt
  | .hashed => entries.Pairwise fun earlier later => later.1.same earlier.1 = false

/-- A list is built up again by additions that put each item behind all items it may
    stand behind. -/
theorem foldl_eq_of_pairwise (add : List α → α → List α) (mayFollow : α → α → Prop)
    (appends : ∀ kept item, (∀ other ∈ kept, mayFollow other item) → add kept item = kept ++ [item])
    (items : List α) (ordered : items.Pairwise mayFollow) : items.foldl add [] = items := by
  have built (kept : List α) (later : (kept ++ items).Pairwise mayFollow) :
      items.foldl add kept = kept ++ items := by
    induction items generalizing kept with
    | nil => simp
    | cons item rest inductionHypothesis =>
        have behind : ∀ other ∈ kept, mayFollow other item := fun other earlier =>
          (List.pairwise_append.mp later).2.2 other earlier item List.mem_cons_self
        have shifted : (kept ++ [item]) ++ rest = kept ++ item :: rest := by simp
        rw [List.foldl_cons, appends kept item behind, ← shifted]
        exact inductionHypothesis (List.pairwise_append.mp later).2.1.of_cons (kept ++ [item])
          (by rwa [shifted])
  exact built [] ordered

namespace Value

/-- A greater element goes behind all others. -/
theorem insertAscending_of_gt (item : Value) (kept : List Value)
    (greater : ∀ other ∈ kept, item.order other = .gt) :
    insertAscending item kept = kept ++ [item] := by
  induction kept with
  | nil => rfl
  | cons head rest inductionHypothesis =>
      rw [insertAscending, greater head List.mem_cons_self]
      exact congrArg (head :: ·)
        (inductionHypothesis fun other later => greater other (List.mem_cons_of_mem _ later))

/-- An entry with a greater key goes behind all others. -/
theorem putAscending_of_gt (key value : Value) (kept : List (Value × Value))
    (greater : ∀ other ∈ kept, key.order other.1 = .gt) :
    putAscending key value kept = kept ++ [(key, value)] := by
  induction kept with
  | nil => rfl
  | cons head rest inductionHypothesis =>
      rw [putAscending, greater head List.mem_cons_self]
      exact congrArg (head :: ·)
        (inductionHypothesis fun other later => greater other (List.mem_cons_of_mem _ later))

/-- An entry with a new key goes behind all others. -/
theorem put_of_new (key value : Value) (kept : List (Value × Value))
    (new : ∀ other ∈ kept, key.same other.1 = false) :
    put key value kept = kept ++ [(key, value)] := by
  induction kept with
  | nil => rfl
  | cons head rest inductionHypothesis =>
      simp only [put, new head List.mem_cons_self, Bool.false_eq_true, if_false, List.cons_append]
      exact congrArg (head :: ·)
        (inductionHypothesis fun other later => new other (List.mem_cons_of_mem _ later))

end Value

/-- What a collection can hold it keeps as it is. -/
theorem SequenceKind.collect_of_holds (kind : SequenceKind) (items : List Value)
    (holds : kind.Holds items) : kind.collect items = .ok items := by
  cases kind with
  | vector => rfl
  | deque => rfl
  | orderedSet =>
      exact congrArg Except.ok
        (foldl_eq_of_pairwise _ _ (fun kept item => Value.insertAscending_of_gt item kept) items holds)
  | hashedSet =>
      refine congrArg Except.ok (foldl_eq_of_pairwise _ _ (fun kept item new => ?_) items holds)
      have absent : kept.any (Value.same item) = false := by
        simpa using new
      simp [absent]
  | array length => exact if_pos holds

/-- What a map can hold it keeps as it is. -/
theorem MapKind.collect_of_holds (kind : MapKind) (entries : List (Value × Value))
    (holds : kind.Holds entries) : kind.collect entries = entries := by
  cases kind with
  | ordered =>
      exact foldl_eq_of_pairwise _ _
        (fun kept entry => Value.putAscending_of_gt entry.1 entry.2 kept) entries holds
  | hashed =>
      exact foldl_eq_of_pairwise _ _ (fun kept entry => Value.put_of_new entry.1 entry.2 kept)
        entries holds

/-- Elements of a type are taken for what they are. -/
theorem Value.mapM_expect_of_type (element : Ty) (items : List Value)
    (types : ∀ item ∈ items, item.type = element) :
    items.mapM (Value.expect element) = .ok items := by
  induction items with
  | nil => rfl
  | cons item rest inductionHypothesis =>
      have first : item.expect element = .ok item :=
        (Value.expect_eq_ok element item item).mpr ⟨types item List.mem_cons_self, rfl⟩
      have others := inductionHypothesis fun other later => types other (List.mem_cons_of_mem _ later)
      rw [List.mapM_cons, first, others]
      rfl

namespace Schema

/-- A collection of elements of its type is what its kind keeps of them. -/
theorem collect_of_type (schema : Schema) (kind : SequenceKind) (element : Ty) (items : List Value)
    (types : ∀ item ∈ items, item.type = element) :
    schema.collect (.sequence kind element) items
      = Value.sequence (.sequence kind element) <$> kind.collect items := by
  rw [collect, Value.mapM_expect_of_type element items types]
  cases collected : kind.collect items <;> simp only [bind, Except.bind, collected] <;> rfl

/-- A map of entries of its types is what its kind keeps of them. -/
theorem collectEntries_of_type (kind : MapKind) (key part : Ty) (entries : List (Value × Value))
    (types : ∀ entry ∈ entries, entry.1.type = key ∧ entry.2.type = part) :
    collectEntries (.map kind key part) entries
      = .ok (.map (.map kind key part) (kind.collect entries)) := by
  have expected : entries.mapM (fun entry => do
        let key ← entry.1.expect key
        let value ← entry.2.expect part
        return (key, value)) = .ok entries := by
    induction entries with
    | nil => rfl
    | cons entry rest inductionHypothesis =>
        obtain ⟨firstType, secondType⟩ := types entry List.mem_cons_self
        have first : entry.1.expect key = .ok entry.1 :=
          (Value.expect_eq_ok key _ _).mpr ⟨firstType, rfl⟩
        have second : entry.2.expect part = .ok entry.2 :=
          (Value.expect_eq_ok part _ _).mpr ⟨secondType, rfl⟩
        have others := inductionHypothesis fun other later => types other (List.mem_cons_of_mem _ later)
        rw [List.mapM_cons, first, second, others]
        rfl
  rw [collectEntries, expected]
  rfl

end Schema

/-! ## Typed values -/

/-- The value is of the type all the way down. -/
inductive Value.Typed (schema : Schema) : Ty → Value → Prop
  | scalar (plain : Scalar) : Typed schema (.leaf plain.leaf) (.scalar plain)
  | member (type : Ty) (names : List String) (described : schema.kind type = .enumeration names)
      (index : Nat) (known : index < names.length) : Typed schema type (.member type index)
  | absent (inner : Ty) : Typed schema (.option inner) (.absent inner)
  | present (inner : Ty) (value : Value) (held : Typed schema inner value) :
      Typed schema (.option inner) (.present value)
  | boxed (inner : Ty) (value : Value) (held : Typed schema inner value) :
      Typed schema (.boxed inner) (.boxed value)
  | sequence (kind : SequenceKind) (element : Ty) (items : List Value)
      (each : ∀ item ∈ items, Typed schema element item) (holds : kind.Holds items) :
      Typed schema (.sequence kind element) (.sequence (.sequence kind element) items)
  | map (kind : MapKind) (key part : Ty) (entries : List (Value × Value))
      (keys : ∀ entry ∈ entries, Typed schema key entry.1)
      (parts : ∀ entry ∈ entries, Typed schema part entry.2) (holds : kind.Holds entries) :
      Typed schema (.map kind key part) (.map (.map kind key part) entries)
  | record (type : Ty) (description : Aggregate)
      (described : schema.kind type = .aggregate description) (entry : Entry)
      (found : schema.find? type = some entry) (members : List Value)
      (declared : members.map Value.type = entry.members.map Member.type)
      (fields : ∀ field ∈ description.fields, ∀ member, members[field.slot]? = some member →
        Typed schema field.type member) :
      Typed schema type (.record type members)

/-- A typed value carries its type. -/
theorem Value.Typed.type_eq {schema : Schema} {type : Ty} {value : Value}
    (typed : value.Typed schema type) : value.type = type := by
  induction typed with
  | present inner value _ inductionHypothesis => exact congrArg Ty.option inductionHypothesis
  | boxed inner value _ inductionHypothesis => exact congrArg Ty.boxed inductionHypothesis
  | _ => rfl

namespace Value

variable {schema : Schema} {type : Ty} {value : Value}

/-- A typed value of a leaf type is a scalar of that type. -/
theorem Typed.scalar_of_leaf (plain : Leaf) (typed : value.Typed schema (.leaf plain)) :
    ∃ held, value = .scalar held ∧ held.leaf = plain := by
  cases typed with
  | scalar held => exact ⟨held, rfl, rfl⟩
  | member _ names described => cases described
  | record _ description described => cases described

/-- A typed value of an enumeration is one of its members. -/
theorem Typed.member_of_kind (names : List String)
    (described : schema.kind type = .enumeration names) (typed : value.Typed schema type) :
    ∃ index, value = .member type index ∧ index < names.length := by
  cases typed with
  | member _ others otherwise index known =>
      rw [described] at otherwise
      cases otherwise
      exact ⟨index, rfl, known⟩
  | record _ description otherwise =>
      rw [described] at otherwise
      cases otherwise
  | _ => cases described

/-- A typed value of a collection type holds typed elements as its kind can hold them. -/
theorem Typed.items_of_sequence (kind : SequenceKind) (element : Ty)
    (typed : value.Typed schema (.sequence kind element)) :
    ∃ items, value = .sequence (.sequence kind element) items ∧
      (∀ item ∈ items, item.Typed schema element) ∧ kind.Holds items := by
  cases typed with
  | sequence _ _ items each holds => exact ⟨items, rfl, each, holds⟩
  | member _ names described => cases described
  | record _ description described => cases described

/-- A typed value of a map type holds typed entries as its kind can hold them. -/
theorem Typed.entries_of_map (kind : MapKind) (key part : Ty)
    (typed : value.Typed schema (.map kind key part)) :
    ∃ entries, value = .map (.map kind key part) entries ∧
      (∀ entry ∈ entries, entry.1.Typed schema key) ∧
      (∀ entry ∈ entries, entry.2.Typed schema part) ∧ kind.Holds entries := by
  cases typed with
  | map _ _ _ entries keys parts holds => exact ⟨entries, rfl, keys, parts, holds⟩
  | member _ names described => cases described
  | record _ description described => cases described

/-- A typed value of an aggregate type has members as they are declared, and those of
    its fields are typed. -/
theorem Typed.members_of_kind (description : Aggregate)
    (described : schema.kind type = .aggregate description) (typed : value.Typed schema type) :
    ∃ entry members, value = .record type members ∧ schema.find? type = some entry ∧
      members.map Value.type = entry.members.map Member.type ∧
      ∀ field ∈ description.fields, ∀ member, members[field.slot]? = some member →
        member.Typed schema field.type := by
  cases typed with
  | record _ other otherwise entry found members declared fields =>
      rw [described] at otherwise
      cases otherwise
      exact ⟨entry, members, rfl, found, declared, fields⟩
  | member _ names otherwise =>
      rw [described] at otherwise
      cases otherwise
  | _ => cases described

end Value

end Wireform
