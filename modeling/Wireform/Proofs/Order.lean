import Wireform.Proofs.Typing

/-!
# What collections hold

The order of values is a linear preorder: it turns around with its arguments and it is
transitive. To see this a value is spelled as a list of tokens in such a way that no
spelling is the beginning of another one; values are ordered as their spellings are,
token by token, and for lists of tokens the laws are known.

So whatever an ordered or a hashed collection is built from, it holds what one of its
kind can hold, and nothing that it was not given.
-/

namespace Wireform

/-- Byte strings are ordered as the lists of their numbers. -/
theorem Bytes.order_eq_compare (left right : Bytes) :
    order left right = compare (left.map UInt8.toNat) (right.map UInt8.toNat) := by
  induction left generalizing right with
  | nil => cases right <;> rfl
  | cons a rest inductionHypothesis =>
      cases right with
      | nil => rfl
      | cons b others =>
          rw [order, inductionHypothesis]
          exact List.compareLex_cons_cons.symm

namespace Scalar

/-- The number that a scalar is, or 0. -/
def number : Scalar → Int
  | .i8 number => number.toInt
  | .u8 number => number.toNat
  | .i16 number => number.toInt
  | .u16 number => number.toNat
  | .i32 number => number.toInt
  | .i64 number => number.toInt
  | .u64 number => number.toNat
  | .f32 bits => bits.toNat
  | .f64 bits => bits.toNat
  | .bool truth => truth.toNat
  | .char character => character.toNat
  | .uuid bits => bits.toNat
  | .string _ => 0
  | .bytes _ => 0

/-- The text that a scalar is, or none. -/
def text : Scalar → String
  | .string text => text
  | _ => ""

/-- The numbers of the octets that a scalar consists of, or none. -/
def octets : Scalar → List Nat
  | .bytes octets => octets.map UInt8.toNat
  | _ => []

/-- The order of scalars by one part after another. -/
def orderByParts : Scalar → Scalar → Ordering :=
  compareLex (compareOn rank)
    (compareLex (compareOn number) (compareLex (compareOn text) (compareOn octets)))

/-- Scalars are ordered by their parts. Those of different types differ in the first, and
    those of one type differ in no more than one other. -/
theorem order_eq_orderByParts (left right : Scalar) :
    left.order right = orderByParts left right := by
  have numbers (a b : Nat) : compare (a : Int) (b : Int) = compare a b := by
    change compareOfLessAndEq (a : Int) (b : Int) = compareOfLessAndEq a b
    simp only [compareOfLessAndEq, Int.ofNat_lt, Int.natCast_inj]
  cases left <;> cases right
  all_goals try rfl
  all_goals simp only [order, orderByParts, compareLex, compareOn, rank, number, text, octets,
    numbers, Bytes.order_eq_compare, Std.ReflOrd.compare_self, Ordering.then_eq, Ordering.eq_then]

instance : Std.TransCmp Scalar.order := by
  have same : Scalar.order = orderByParts :=
    funext fun left => funext fun right => order_eq_orderByParts left right
  rw [same]
  exact inferInstanceAs (Std.TransCmp (compareLex (compareOn rank)
    (compareLex (compareOn number) (compareLex (compareOn text) (compareOn octets)))))

end Scalar

namespace Value

/-- A token of a spelling: a number, and a scalar where there is one to spell. -/
abbrev Token := Nat × Scalar

/-- A token without a scalar of its own. -/
def mark (number : Nat) : Token := (number, .bool false)

/-- Tokens are ordered by their numbers, then by their scalars. -/
def orderTokens : Token → Token → Ordering :=
  compareLex (compareOn Prod.fst) fun left right => left.2.order right.2

/-- Spellings are ordered token by token. -/
def orderSpellings (left right : List Token) : Ordering := List.compareLex orderTokens left right

mutual

/-- The spelling of a value begins with its shape. -/
def spelling : Value → List Token
  | .scalar plain => [(0, plain)]
  | .member _ index => [mark 1, mark index]
  | .absent _ => [mark 2]
  | .present value => mark 3 :: spelling value
  | .boxed value => mark 4 :: spelling value
  | .sequence _ items => mark 5 :: itemSpellings items
  | .map _ entries => mark 6 :: entrySpellings entries
  | .record _ members => mark 7 :: itemSpellings members

/-- A list is spelled with a mark before each element and another one at its end. -/
def itemSpellings : List Value → List Token
  | [] => [mark 0]
  | item :: rest => mark 1 :: (spelling item ++ itemSpellings rest)

/-- A list of entries is spelled like one of elements, each key before its value. -/
def entrySpellings : List (Value × Value) → List Token
  | [] => [mark 0]
  | (key, value) :: rest => mark 1 :: (spelling key ++ (spelling value ++ entrySpellings rest))

end

/-- The first tokens decide unless they are equal. -/
@[simp] theorem orderSpellings_cons (left right : Token) (rest others : List Token) :
    orderSpellings (left :: rest) (right :: others)
      = (orderTokens left right).then (orderSpellings rest others) :=
  List.compareLex_cons_cons

/-- Marks are ordered by their numbers. -/
@[simp] theorem orderTokens_mark (left right : Nat) :
    orderTokens (mark left) (mark right) = compare left right := by
  simp [orderTokens, compareLex, compareOn, mark, Std.ReflCmp.compare_self]

/-- The first token of a spelling is the rank of the shape. -/
theorem spelling_eq_cons (value : Value) :
    ∃ first rest, spelling value = first :: rest ∧ first.1 = value.rank := by
  cases value <;> exact ⟨_, _, rfl, rfl⟩

/-- Values of different shapes are told apart by the first tokens of their spellings. -/
theorem orderSpellings_of_rank (a b : Value) (rest others : List Token)
    (different : a.rank ≠ b.rank) :
    orderSpellings (spelling a ++ rest) (spelling b ++ others)
      = (order a b).then (orderSpellings rest others) := by
  obtain ⟨first, later, same, shape⟩ := spelling_eq_cons a
  obtain ⟨other, otherLater, otherSame, otherShape⟩ := spelling_eq_cons b
  have shapes : order a b = compare a.rank b.rank := by
    cases a <;> cases b
    all_goals first | rfl | exact absurd rfl different
  have apart : compare a.rank b.rank ≠ .eq := fun equal => different (Nat.compare_eq_eq.mp equal)
  rw [same, otherSame, List.cons_append, List.cons_append, orderSpellings_cons, orderTokens,
    compareLex, compareOn, shape, otherShape, shapes]
  cases compared : compare a.rank b.rank with
  | lt => rfl
  | eq => exact absurd compared apart
  | gt => rfl

mutual

/-- Whatever follows them, spellings are ordered as the values that they spell, and what
    follows decides only if these are equal. -/
theorem orderSpellings_spelling : (a b : Value) → (rest others : List Token) →
    orderSpellings (spelling a ++ rest) (spelling b ++ others)
      = (order a b).then (orderSpellings rest others)
  | .scalar a, b, rest, others => by
      cases b with
      | scalar b => simp [spelling, order, orderTokens, compareLex, compareOn]
      | _ => exact orderSpellings_of_rank _ _ rest others (by simp [rank])
  | .member _ a, b, rest, others => by
      cases b with
      | member _ b => simp [spelling, order]
      | _ => exact orderSpellings_of_rank _ _ rest others (by simp [rank])
  | .absent _, b, rest, others => by
      cases b with
      | absent _ => simp [spelling, order, rank]
      | _ => exact orderSpellings_of_rank _ _ rest others (by simp [rank])
  | .present a, b, rest, others => by
      cases b with
      | present b => simp [spelling, order, orderSpellings_spelling a b]
      | _ => exact orderSpellings_of_rank _ _ rest others (by simp [rank])
  | .boxed a, b, rest, others => by
      cases b with
      | boxed b => simp [spelling, order, orderSpellings_spelling a b]
      | _ => exact orderSpellings_of_rank _ _ rest others (by simp [rank])
  | .sequence _ a, b, rest, others => by
      cases b with
      | sequence _ b => simp [spelling, order, orderSpellings_items a b]
      | _ => exact orderSpellings_of_rank _ _ rest others (by simp [rank])
  | .map _ a, b, rest, others => by
      cases b with
      | map _ b => simp [spelling, order, orderSpellings_entries a b]
      | _ => exact orderSpellings_of_rank _ _ rest others (by simp [rank])
  | .record _ a, b, rest, others => by
      cases b with
      | record _ b => simp [spelling, order, orderSpellings_items a b]
      | _ => exact orderSpellings_of_rank _ _ rest others (by simp [rank])

/-- The same of lists of elements or members. -/
theorem orderSpellings_items : (as bs : List Value) → (rest others : List Token) →
    orderSpellings (itemSpellings as ++ rest) (itemSpellings bs ++ others)
      = (orderItems as bs).then (orderSpellings rest others)
  | [], [], rest, others => by simp [itemSpellings, orderItems]
  | [], _ :: _, _, _ => rfl
  | _ :: _, [], _, _ => rfl
  | a :: as, b :: bs, rest, others => by
      simp [itemSpellings, orderItems, orderSpellings_spelling a b, orderSpellings_items as bs,
        Ordering.then_assoc]

/-- The same of lists of entries. -/
theorem orderSpellings_entries : (as bs : List (Value × Value)) → (rest others : List Token) →
    orderSpellings (entrySpellings as ++ rest) (entrySpellings bs ++ others)
      = (orderEntries as bs).then (orderSpellings rest others)
  | [], [], rest, others => by simp [entrySpellings, orderEntries]
  | [], _ :: _, _, _ => rfl
  | _ :: _, [], _, _ => rfl
  | (a, c) :: as, (b, d) :: bs, rest, others => by
      simp [entrySpellings, orderEntries, orderSpellings_spelling a b, orderSpellings_spelling c d,
        orderSpellings_entries as bs, Ordering.then_assoc]

end

/-- Values are ordered as they are spelled. -/
theorem order_eq_orderSpellings (a b : Value) :
    order a b = orderSpellings (spelling a) (spelling b) := by
  have same := orderSpellings_spelling a b [] []
  simp only [List.append_nil] at same
  exact Ordering.then_eq.symm.trans same.symm

instance : Std.TransCmp fun left right : Token => left.2.order right.2 where
  eq_swap := (inferInstance : Std.OrientedCmp Scalar.order).eq_swap
  isLE_trans := (inferInstance : Std.TransCmp Scalar.order).isLE_trans

instance : Std.TransCmp orderSpellings :=
  inferInstanceAs (Std.TransCmp (List.compareLex
    (compareLex (compareOn Prod.fst) fun left right : Token => left.2.order right.2)))

instance : Std.TransCmp Value.order where
  eq_swap := by
    intro a b
    rw [order_eq_orderSpellings, order_eq_orderSpellings]
    exact Std.OrientedCmp.eq_swap
  isLE_trans := by
    intro a b c
    rw [order_eq_orderSpellings, order_eq_orderSpellings, order_eq_orderSpellings]
    exact Std.TransCmp.isLE_trans

/-! ## Additions -/

/-- An addition to an ascending list adds nothing else. -/
theorem mem_insertAscending (item other : Value) (kept : List Value)
    (listed : other ∈ insertAscending item kept) : other = item ∨ other ∈ kept := by
  induction kept with
  | nil => exact .inl (List.mem_singleton.mp listed)
  | cons head rest inductionHypothesis =>
      unfold insertAscending at listed
      split at listed
      · exact List.mem_cons.mp listed
      · obtain same | later := List.mem_cons.mp listed
        · exact .inl same
        · exact .inr (List.mem_cons_of_mem _ later)
      · obtain rfl | later := List.mem_cons.mp listed
        · exact .inr List.mem_cons_self
        · obtain same | before := inductionHypothesis later
          · exact .inl same
          · exact .inr (List.mem_cons_of_mem _ before)

/-- An addition keeps an ascending list ascending. -/
theorem insertAscending_pairwise (item : Value) (kept : List Value)
    (ascends : kept.Pairwise fun earlier later => later.order earlier = .gt) :
    (insertAscending item kept).Pairwise fun earlier later => later.order earlier = .gt := by
  induction kept with
  | nil => exact List.pairwise_singleton _ _
  | cons head rest inductionHypothesis =>
      obtain ⟨greater, later⟩ := List.pairwise_cons.mp ascends
      unfold insertAscending
      split
      · next below =>
          have above : head.order item = .gt := Std.OrientedCmp.gt_of_lt below
          refine List.pairwise_cons.mpr ⟨fun other listed => ?_, ascends⟩
          obtain rfl | behind := List.mem_cons.mp listed
          · exact above
          · exact Std.TransCmp.gt_trans (greater other behind) above
      · next equal =>
          refine List.pairwise_cons.mpr ⟨fun other listed => ?_, later⟩
          rw [Std.TransCmp.congr_right equal]
          exact greater other listed
      · next above =>
          refine List.pairwise_cons.mpr ⟨fun other listed => ?_, inductionHypothesis later⟩
          obtain rfl | behind := mem_insertAscending item other rest listed
          · exact above
          · exact greater other behind

/-- The keys of an ascending list of entries are added to as elements are. -/
theorem map_fst_putAscending (key value : Value) (kept : List (Value × Value)) :
    (putAscending key value kept).map Prod.fst = insertAscending key (kept.map Prod.fst) := by
  induction kept with
  | nil => rfl
  | cons head rest inductionHypothesis =>
      simp only [putAscending, List.map_cons, insertAscending]
      cases key.order head.1 with
      | lt => rfl
      | eq => rfl
      | gt => exact congrArg (head.1 :: ·) inductionHypothesis

/-- Setting the value of a key adds no other entry. -/
theorem mem_putAscending (key value : Value) (entry : Value × Value) (kept : List (Value × Value))
    (listed : entry ∈ putAscending key value kept) : entry = (key, value) ∨ entry ∈ kept := by
  induction kept with
  | nil => exact .inl (List.mem_singleton.mp listed)
  | cons head rest inductionHypothesis =>
      unfold putAscending at listed
      split at listed
      · exact List.mem_cons.mp listed
      · obtain same | later := List.mem_cons.mp listed
        · exact .inl same
        · exact .inr (List.mem_cons_of_mem _ later)
      · obtain rfl | later := List.mem_cons.mp listed
        · exact .inr List.mem_cons_self
        · obtain same | before := inductionHypothesis later
          · exact .inl same
          · exact .inr (List.mem_cons_of_mem _ before)

/-- Setting the value of a key adds no other entry, in any order of keys. -/
theorem mem_put (key value : Value) (entry : Value × Value) (kept : List (Value × Value))
    (listed : entry ∈ put key value kept) : entry = (key, value) ∨ entry ∈ kept := by
  induction kept with
  | nil => exact .inl (List.mem_singleton.mp listed)
  | cons head rest inductionHypothesis =>
      unfold put at listed
      split at listed
      · obtain same | later := List.mem_cons.mp listed
        · exact .inl same
        · exact .inr (List.mem_cons_of_mem _ later)
      · obtain rfl | later := List.mem_cons.mp listed
        · exact .inr List.mem_cons_self
        · obtain same | before := inductionHypothesis later
          · exact .inl same
          · exact .inr (List.mem_cons_of_mem _ before)

/-- Setting the value of a key keeps the keys distinct. -/
theorem put_pairwise (key value : Value) (kept : List (Value × Value))
    (distinct : kept.Pairwise fun earlier later => later.1.same earlier.1 = false) :
    (put key value kept).Pairwise fun earlier later => later.1.same earlier.1 = false := by
  induction kept with
  | nil => exact List.pairwise_singleton _ _
  | cons head rest inductionHypothesis =>
      obtain ⟨apart, later⟩ := List.pairwise_cons.mp distinct
      unfold put
      split
      · next equal =>
          refine List.pairwise_cons.mpr ⟨fun other listed => ?_, later⟩
          have congruent : other.1.order key = other.1.order head.1 :=
            Std.TransCmp.congr_right (eq_of_beq equal)
          have different := apart other listed
          unfold same at different ⊢
          rwa [congruent]
      · next new =>
          refine List.pairwise_cons.mpr ⟨fun other listed => ?_, inductionHypothesis later⟩
          obtain rfl | before := mem_put key value other rest listed
          · exact Bool.eq_false_iff.mpr new
          · exact apart other before

end Value

/-! ## Collections -/

/-- If every addition adds no more than an item, a list holds only items that have been
    added to it. -/
theorem mem_of_mem_foldl {α : Type} (add : List α → α → List α)
    (adds : ∀ kept item other, other ∈ add kept item → other = item ∨ other ∈ kept)
    (items : List α) (other : α) : other ∈ items.foldl add [] → other ∈ items := by
  have known (kept : List α) (listed : other ∈ items.foldl add kept) :
      other ∈ kept ∨ other ∈ items := by
    induction items generalizing kept with
    | nil => exact .inl listed
    | cons item rest inductionHypothesis =>
        obtain before | later := inductionHypothesis (add kept item) listed
        · obtain rfl | before := adds kept item other before
          · exact .inr List.mem_cons_self
          · exact .inl before
        · exact .inr (List.mem_cons_of_mem _ later)
  intro listed
  obtain impossible | among := known [] listed
  · cases impossible
  · exact among

/-- What a collection keeps is such as its kind can hold, and comes from what it was
    built from. -/
theorem SequenceKind.holds_of_collect (kind : SequenceKind) (items kept : List Value)
    (collected : kind.collect items = .ok kept) :
    kind.Holds kept ∧ ∀ item ∈ kept, item ∈ items := by
  cases kind with
  | vector =>
      cases collected
      exact ⟨trivial, fun _ listed => listed⟩
  | deque =>
      cases collected
      exact ⟨trivial, fun _ listed => listed⟩
  | orderedSet =>
      cases collected
      constructor
      · exact List.foldlRecOn items _ List.Pairwise.nil fun kept ascends item _ =>
          Value.insertAscending_pairwise item kept ascends
      · exact mem_of_mem_foldl _ (fun kept item other =>
          Value.mem_insertAscending item other kept) items
  | hashedSet =>
      cases collected
      constructor
      · refine List.foldlRecOn items _ List.Pairwise.nil fun kept distinct item _ => ?_
        split
        · exact distinct
        · next new =>
            refine List.pairwise_append.mpr ⟨distinct, List.pairwise_singleton _ _, ?_⟩
            intro other before added listed
            cases List.mem_singleton.mp listed
            simp only [List.any_eq_true, not_exists, not_and] at new
            exact Bool.eq_false_iff.mpr (new other before)
      · refine mem_of_mem_foldl _ (fun kept item other added => ?_) items
        split at added
        · exact .inr added
        · obtain before | last := List.mem_append.mp added
          · exact .inr before
          · exact .inl (List.mem_singleton.mp last)
  | array length =>
      by_cases fits : items.length = length
      · have whole : SequenceKind.collect (.array length) items = .ok items := if_pos fits
        cases whole.symm.trans collected
        exact ⟨fits, fun _ listed => listed⟩
      · have refused : SequenceKind.collect (.array length) items
            = .error (.lengthMismatch length items.length) := if_neg fits
        cases refused.symm.trans collected

/-- What a map keeps is such as its kind can hold, and comes from what it was built
    from. -/
theorem MapKind.holds_collect (kind : MapKind) (entries : List (Value × Value)) :
    kind.Holds (kind.collect entries) ∧ ∀ entry ∈ kind.collect entries, entry ∈ entries := by
  cases kind with
  | ordered =>
      constructor
      · refine List.foldlRecOn entries _ List.Pairwise.nil fun kept ascends entry _ => ?_
        have keys := Value.insertAscending_pairwise entry.1 (kept.map Prod.fst)
          (List.pairwise_map.mpr ascends)
        rw [← Value.map_fst_putAscending entry.1 entry.2] at keys
        exact List.pairwise_map.mp keys
      · exact mem_of_mem_foldl _ (fun kept entry other =>
          Value.mem_putAscending entry.1 entry.2 other kept) entries
  | hashed =>
      constructor
      · exact List.foldlRecOn entries _ List.Pairwise.nil fun kept distinct entry _ =>
          Value.put_pairwise entry.1 entry.2 kept distinct
      · exact mem_of_mem_foldl _ (fun kept entry other =>
          Value.mem_put entry.1 entry.2 other kept) entries

end Wireform
