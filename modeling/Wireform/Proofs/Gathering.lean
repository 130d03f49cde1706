import Wireform.Proofs.Listings

/-!
# What collections are gathered to

A collection is gathered from elements in the order in which they are read, and a map from entries.
Here it is said of each kind what it then holds, without regard to how it is gathered: a set holds
the elements that it was given, each of them once, and a map holds for each key the entry that was
written last. An ordered one holds them in ascending order, so that it is determined by what it was
given and not by the order in which it was given.

This rests on the order of values telling apart the elements or the keys at hand. Where it does not,
two that differ may count as one, and which of them is kept is another question.
-/

namespace Wireform

/-! ## Results -/

/-- What a collection of a kind comes to of the elements that it is gathered from. -/
def SequenceKind.Gathers (kind : SequenceKind) (items : List Value) :
    Except Error (List Value) → Prop :=
  match kind with
  | .vector => (· = .ok items)
  | .deque => (· = .ok items)
  | .array length => fun result =>
      (items.length = length ∧ result = .ok items) ∨
        (items.length ≠ length ∧ result = .error (.lengthMismatch length items.length))
  | .orderedSet => fun result => ∃ kept, result = .ok kept ∧
      (kept.Pairwise fun earlier later => later.order earlier = .gt) ∧
      ∀ item, item ∈ kept ↔ item ∈ items
  | .hashedSet => fun result => ∃ kept, result = .ok kept ∧ kept.Nodup ∧
      ∀ item, item ∈ kept ↔ item ∈ items

/-- What a map of a kind holds of the entries that it is gathered from: for each key the one that
    was written last. -/
def MapKind.Gathers (kind : MapKind) (entries kept : List (Value × Value)) : Prop :=
  (match kind with
  | .ordered => kept.Pairwise fun earlier later => later.1.order earlier.1 = .gt
  | .hashed => (kept.map Prod.fst).Nodup) ∧
  ∀ entry, entry ∈ kept ↔ Value.LastWritten (· = ·) entries entry

namespace Value

variable {among : Value → Prop}

/-! ## Hashed collections -/

/-- A value counts as itself. -/
theorem same_self (value : Value) : value.same value = true :=
  beq_iff_eq.mpr Std.ReflCmp.compare_self

/-- Values that the order tells apart count as one only if they are one. -/
theorem Discrete.same_iff (discrete : Discrete among) (one other : Value) (own : among one)
    (others : among other) : one.same other = true ↔ one = other := by
  constructor
  · intro equal
    exact discrete one other own others (eq_of_beq equal)
  · rintro rfl
    exact same_self one

/-- Values that ascend are distinct. -/
theorem nodup_of_ascending {kept : List Value}
    (ascends : kept.Pairwise fun earlier later => later.order earlier = .gt) : kept.Nodup :=
  List.Pairwise.imp (S := (· ≠ ·)) (fun greater same => ne_of_order_gt greater same.symm) ascends

/-- Values that count as different are distinct. -/
theorem nodup_of_apart {kept : List Value}
    (apart : kept.Pairwise fun earlier later => later.same earlier = false) : kept.Nodup := by
  refine List.Pairwise.imp (S := (· ≠ ·)) (fun {earlier later} different equal => ?_) apart
  rw [equal, same_self] at different
  cases different

/-- What a hashed set keeps is all that it was given. -/
theorem Discrete.mem_distinct (discrete : Discrete among) (items : List Value)
    (all : ∀ item ∈ items, among item) (other : Value) : other ∈ distinct items ↔ other ∈ items := by
  -- what has been kept so far is generalized, and stays among the values that are told apart
  have built (kept : List Value) (before : ∀ item ∈ kept, among item) :
      other ∈ items.foldl (fun kept item => if kept.any (same item) then kept else kept ++ [item])
          kept ↔ other ∈ kept ∨ other ∈ items := by
    induction items generalizing kept with
    | nil => simp
    | cons item rest inductionHypothesis =>
        obtain ⟨first, later⟩ := List.forall_mem_cons.mp all
        rw [List.foldl_cons]
        split
        · next known =>
            obtain ⟨found, listed, equal⟩ := List.any_eq_true.mp known
            have here : item ∈ kept := by
              rw [(discrete.same_iff item found first (before found listed)).mp equal]
              exact listed
            rw [inductionHypothesis later kept before, List.mem_cons]
            constructor
            · rintro (held | follows)
              · exact .inl held
              · exact .inr (.inr follows)
            · rintro (held | rfl | follows)
              · exact .inl held
              · exact .inl here
              · exact .inr follows
        · next new =>
            have added : ∀ other ∈ kept ++ [item], among other :=
              List.forall_mem_append.mpr ⟨before, List.forall_mem_singleton.mpr first⟩
            rw [inductionHypothesis later _ added, List.mem_append, List.mem_singleton,
              List.mem_cons, or_assoc]
  have whole := built [] (List.forall_mem_nil _)
  rwa [or_iff_right List.not_mem_nil] at whole

/-- A value is put under a key in place of the one that was there, wherever that stands. -/
theorem Discrete.mem_put (discrete : Discrete among) (key value : Value) (entry : Value × Value)
    (kept : List (Value × Value)) (own : among key) (all : ∀ other ∈ kept, among other.1)
    (distinct : (kept.map Prod.fst).Nodup) :
    entry ∈ put key value kept ↔ entry = (key, value) ∨ entry ∈ kept ∧ entry.1 ≠ key := by
  induction kept with
  | nil => simp [put]
  | cons head rest inductionHypothesis =>
      obtain ⟨first, later⟩ := List.forall_mem_cons.mp all
      obtain ⟨apart, behind⟩ := List.nodup_cons.mp distinct
      unfold put
      split
      · next equal =>
          have same := (discrete.same_iff key head.1 own first).mp equal
          have different : ∀ other ∈ rest, other.1 ≠ key := fun other listed again =>
            apart (same ▸ again ▸ List.mem_map_of_mem listed)
          have replaced : ¬ (entry = head ∧ entry.1 ≠ key) := fun both =>
            both.2 (both.1 ▸ same.symm)
          rw [List.mem_cons, List.mem_cons, or_and_right, or_iff_right replaced,
            and_iff_left_of_imp (different entry)]
      · next new =>
          have different : head.1 ≠ key := fun again =>
            new ((discrete.same_iff key head.1 own first).mpr again.symm)
          have stays : entry = head ∧ entry.1 ≠ key ↔ entry = head :=
            and_iff_left_of_imp fun own => own ▸ different
          rw [List.mem_cons, inductionHypothesis later behind, List.mem_cons, or_and_right, stays]
          exact or_left_comm

/-- A hashed map has the last entry for each key, like an ordered one. -/
theorem Discrete.mem_collect_hashed (discrete : Discrete among) (entries : List (Value × Value))
    (all : ∀ entry ∈ entries, among entry.1) (entry : Value × Value) :
    entry ∈ MapKind.hashed.collect entries ↔ LastWritten (· = ·) entries entry := by
  have built (kept : List (Value × Value)) (before : ∀ other ∈ kept, among other.1)
      (apart : kept.Pairwise fun earlier later => later.1.same earlier.1 = false) :
      entry ∈ entries.foldl (fun kept entry => put entry.1 entry.2 kept) kept
        ↔ LastWritten (· = ·) entries entry
          ∨ entry ∈ kept ∧ ∀ later ∈ entries, ¬ later.1 = entry.1 := by
    induction entries generalizing kept with
    | nil => simp [LastWritten]
    | cons head rest inductionHypothesis =>
        obtain ⟨first, later⟩ := List.forall_mem_cons.mp all
        have grown (other : Value × Value) :=
          discrete.mem_put head.1 head.2 other kept first before
            (nodup_of_apart (List.pairwise_map.mpr apart))
        have among : ∀ other ∈ put head.1 head.2 kept, among other.1 := by
          intro other listed
          obtain rfl | ⟨earlier, -⟩ := (grown other).mp listed
          · exact first
          · exact before other earlier
        rw [List.foldl_cons, inductionHypothesis later _ among (put_pairwise _ _ kept apart), grown,
          lastWritten_cons, List.forall_mem_cons, ne_comm]
        grind
  have whole := built [] (List.forall_mem_nil _) List.Pairwise.nil
  rwa [or_iff_left fun impossible => List.not_mem_nil impossible.1] at whole

end Value

/-! ## Every kind -/

/-- What a collection of any kind keeps of its elements is what it is said to hold. -/
theorem SequenceKind.gathers_collect {among : Value → Prop} (discrete : Value.Discrete among)
    (kind : SequenceKind) (items : List Value) (all : ∀ item ∈ items, among item) :
    kind.Gathers items (kind.collect items) := by
  cases kind with
  | vector => rfl
  | deque => rfl
  | array length =>
      by_cases fits : items.length = length
      · exact .inl ⟨fits, if_pos fits⟩
      · exact .inr ⟨fits, if_neg fits⟩
  | orderedSet =>
      exact ⟨_, rfl, (holds_of_collect .orderedSet items _ rfl).1, discrete.mem_ascending items all⟩
  | hashedSet =>
      exact ⟨_, rfl, Value.nodup_of_apart (holds_of_collect .hashedSet items _ rfl).1,
        discrete.mem_distinct items all⟩

/-- What a map of either kind keeps of its entries is what it is said to hold. -/
theorem MapKind.gathers_collect {among : Value → Prop} (discrete : Value.Discrete among)
    (kind : MapKind) (entries : List (Value × Value)) (all : ∀ entry ∈ entries, among entry.1) :
    kind.Gathers entries (kind.collect entries) := by
  have holds := (holds_collect kind entries).1
  cases kind with
  | ordered => exact ⟨holds, discrete.mem_collect entries all⟩
  | hashed =>
      exact ⟨Value.nodup_of_apart (List.pairwise_map.mpr holds),
        discrete.mem_collect_hashed entries all⟩

/-- Ordered sets that were given the same elements are the same. -/
theorem SequenceKind.Gathers.eq_of_same {items others kept found : List Value}
    (gathers : SequenceKind.orderedSet.Gathers items (.ok kept))
    (gathersOthers : SequenceKind.orderedSet.Gathers others (.ok found))
    (same : ∀ item, item ∈ items ↔ item ∈ others) : kept = found := by
  obtain ⟨kept, ⟨⟩, ascends, members⟩ := gathers
  obtain ⟨found, ⟨⟩, ascendsToo, membersToo⟩ := gathersOthers
  exact Value.ext_of_ascending id kept found ascends ascendsToo fun item => by
    rw [members, membersToo, same]

/-- Ordered maps of which the same entries were written last are the same. -/
theorem MapKind.Gathers.eq_of_same {entries others kept found : List (Value × Value)}
    (gathers : MapKind.ordered.Gathers entries kept)
    (gathersOthers : MapKind.ordered.Gathers others found)
    (same : ∀ entry, Value.LastWritten (· = ·) entries entry
      ↔ Value.LastWritten (· = ·) others entry) : kept = found :=
  Value.ext_of_ascending Prod.fst kept found gathers.1 gathersOthers.1 fun entry => by
    rw [gathers.2, gathersOthers.2, same]

end Wireform
