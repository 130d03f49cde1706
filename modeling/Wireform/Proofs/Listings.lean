import Mathlib.Data.List.Forall2
import Wireform.Buffer.Format
import Wireform.Proofs.Order

/-!
# Values of a format, however they are listed

A set can be listed in many ways, with elements given twice, and so can a map, whose later entries
then take the place of earlier ones. The listings may be nested. What it is for two values of one
format to be the same is said here without any order among values: elements are looked for on the
other side, and of the entries of a map only those count whose keys are not written again.

Reading makes one listing of all of them. It is shown that two values are the same exactly if they
become the same listing, so that the listing stands for the value, and that nothing in it is there
twice. This rests on the order of values telling apart any two values of one format.
-/

namespace Wireform

/-! ## The order tells values apart -/

/-- Scalars that are equal in order are equal: they are of one type, and the part that scalars of
    this type are ordered by says all about them. -/
theorem Scalar.eq_of_order (left right : Scalar) (equal : left.order right = .eq) :
    left = right := by
  rw [order_eq_orderByParts] at equal
  simp only [orderByParts, compareLex, compareOn, Ordering.then_eq_eq,
    Std.LawfulEqCmp.compare_eq_iff_eq] at equal
  obtain ⟨ranks, numbers, texts, spelled⟩ := equal
  cases left <;> cases right <;> try cases ranks
  all_goals simp only [number, text, octets] at numbers texts spelled
  case i8.i8 => rw [Int8.toInt_inj.mp numbers]
  case u8.u8 => rw [UInt8.toNat_inj.mp (Int.ofNat_inj.mp numbers)]
  case i16.i16 => rw [Int16.toInt_inj.mp numbers]
  case u16.u16 => rw [UInt16.toNat_inj.mp (Int.ofNat_inj.mp numbers)]
  case i32.i32 => rw [Int32.toInt_inj.mp numbers]
  case i64.i64 => rw [Int64.toInt_inj.mp numbers]
  case u64.u64 => rw [UInt64.toNat_inj.mp (Int.ofNat_inj.mp numbers)]
  case f32.f32 => rw [UInt32.toNat_inj.mp (Int.ofNat_inj.mp numbers)]
  case f64.f64 => rw [UInt64.toNat_inj.mp (Int.ofNat_inj.mp numbers)]
  case bool.bool one other => cases one <;> cases other <;> first | rfl | cases numbers
  case char.char => rw [Char.toNat_inj.mp (Int.ofNat_inj.mp numbers)]
  case string.string => rw [texts]
  case uuid.uuid => rw [BitVec.toNat_inj.mp (Int.ofNat_inj.mp numbers)]
  case bytes.bytes =>
    rw [(List.map_inj_right fun _ _ same => UInt8.toNat_inj.mp same).mp spelled]

namespace Value

/-- The order tells any two of these values apart. -/
def Discrete (among : Value → Prop) : Prop :=
  ∀ one other, among one → among other → one.order other = .eq → one = other

variable {among amongParts : Value → Prop}

/-- Lists of values that the order tells apart are told apart. -/
theorem Discrete.items (discrete : Discrete among) (items others : List Value)
    (left : ∀ item ∈ items, among item) (right : ∀ item ∈ others, among item)
    (equal : orderItems items others = .eq) : items = others := by
  induction items generalizing others with
  | nil =>
      cases others with
      | nil => rfl
      | cons other rest => cases equal
  | cons item rest inductionHypothesis =>
      cases others with
      | nil => cases equal
      | cons other behind =>
          rw [orderItems, Ordering.then_eq_eq] at equal
          obtain ⟨first, later⟩ := List.forall_mem_cons.mp left
          obtain ⟨firstOther, laterOthers⟩ := List.forall_mem_cons.mp right
          rw [discrete item other first firstOther equal.1,
            inductionHypothesis behind later laterOthers equal.2]

/-- Lists of entries with keys and values that the order tells apart are told apart. -/
theorem Discrete.entries (keys : Discrete among) (parts : Discrete amongParts)
    (entries others : List (Value × Value))
    (left : ∀ entry ∈ entries, among entry.1 ∧ amongParts entry.2)
    (right : ∀ entry ∈ others, among entry.1 ∧ amongParts entry.2)
    (equal : orderEntries entries others = .eq) : entries = others := by
  induction entries generalizing others with
  | nil =>
      cases others with
      | nil => rfl
      | cons other rest => cases equal
  | cons entry rest inductionHypothesis =>
      cases others with
      | nil => cases equal
      | cons other behind =>
          rw [orderEntries, Ordering.then_eq_eq, Ordering.then_eq_eq] at equal
          obtain ⟨first, later⟩ := List.forall_mem_cons.mp left
          obtain ⟨firstOther, laterOthers⟩ := List.forall_mem_cons.mp right
          rw [inductionHypothesis behind later laterOthers equal.2.2,
            Prod.ext (keys _ _ first.1 firstOther.1 equal.1)
              (parts _ _ first.2 firstOther.2 equal.2.1)]

/-! ## Ascending lists -/

/-- What is greater than a value is another one. -/
theorem ne_of_order_gt {one other : Value} (greater : one.order other = .gt) : one ≠ other := by
  rintro rfl
  have same : one.order one = .eq := Std.ReflCmp.compare_self
  rw [same] at greater
  cases greater

/-- An element is put into an ascending list, and nothing gets lost by it. -/
theorem Discrete.mem_insertAscending (discrete : Discrete among) (item other : Value)
    (kept : List Value) (own : among item) (all : ∀ other ∈ kept, among other) :
    other ∈ insertAscending item kept ↔ other = item ∨ other ∈ kept := by
  induction kept with
  | nil => simp [insertAscending]
  | cons head rest inductionHypothesis =>
      obtain ⟨first, later⟩ := List.forall_mem_cons.mp all
      unfold insertAscending
      split
      · exact List.mem_cons
      · next equal =>
          rw [discrete item head own first equal]
          simp
      · rw [List.mem_cons, inductionHypothesis later, List.mem_cons]
        exact or_left_comm

/-- What is put in ascending order is all there. -/
theorem Discrete.mem_ascending (discrete : Discrete among) (items : List Value)
    (all : ∀ item ∈ items, among item) (other : Value) : other ∈ ascending items ↔ other ∈ items := by
  have built (kept : List Value) (before : ∀ item ∈ kept, among item) :
      other ∈ items.foldl (fun kept item => insertAscending item kept) kept
        ↔ other ∈ kept ∨ other ∈ items := by
    induction items generalizing kept with
    | nil => simp
    | cons item rest inductionHypothesis =>
        obtain ⟨first, later⟩ := List.forall_mem_cons.mp all
        have grown (other : Value) := discrete.mem_insertAscending item other kept first before
        have among : ∀ other ∈ insertAscending item kept, among other := by
          intro other listed
          obtain rfl | earlier := (grown other).mp listed
          · exact first
          · exact before other earlier
        rw [List.foldl_cons, inductionHypothesis later _ among, grown, List.mem_cons, or_assoc]
        exact or_left_comm
  have whole := built [] (List.forall_mem_nil _)
  rwa [or_iff_right List.not_mem_nil] at whole

/-- An ascending list is determined by what is in it. -/
theorem ext_of_ascending {α : Type} (key : α → Value) (one other : List α)
    (ascends : one.Pairwise fun earlier later => (key later).order (key earlier) = .gt)
    (ascendsOther : other.Pairwise fun earlier later => (key later).order (key earlier) = .gt)
    (alike : ∀ item, item ∈ one ↔ item ∈ other) : one = other := by
  have distinct (list : List α)
      (ascends : list.Pairwise fun earlier later => (key later).order (key earlier) = .gt) :
      list.Nodup :=
    List.Pairwise.imp (S := (· ≠ ·))
      (fun greater same => ne_of_order_gt greater (congrArg key same.symm)) ascends
  refine List.Perm.eq_of_pairwise (fun earlier later _ _ greater less => ?_) ascends ascendsOther
    ((List.perm_ext_iff_of_nodup (distinct one ascends) (distinct other ascendsOther)).mpr alike)
  rw [Std.OrientedCmp.lt_of_gt less] at greater
  cases greater

/-! ## Last entries -/

/-- An entry of a map whose key is not written again behind it. -/
def LastWritten (same : Value → Value → Prop) (entries : List (Value × Value))
    (entry : Value × Value) : Prop :=
  ∃ before after, entries = before ++ entry :: after ∧ ∀ later ∈ after, ¬ same later.1 entry.1

/-- The last entry for a key is the first entry, if the key is not written again, or it is behind
    it. -/
theorem lastWritten_cons (same : Value → Value → Prop) (head entry : Value × Value)
    (rest : List (Value × Value)) :
    LastWritten same (head :: rest) entry ↔
      (entry = head ∧ ∀ later ∈ rest, ¬ same later.1 entry.1) ∨ LastWritten same rest entry := by
  constructor
  · rintro ⟨before, after, split, last⟩
    cases before with
    | nil =>
        obtain ⟨rfl, rfl⟩ := List.cons.inj split
        exact .inl ⟨rfl, last⟩
    | cons first before =>
        obtain ⟨rfl, rfl⟩ := List.cons.inj split
        exact .inr ⟨before, after, rfl, last⟩
  · rintro (⟨rfl, last⟩ | ⟨before, after, rfl, last⟩)
    · exact ⟨[], rest, rfl, last⟩
    · exact ⟨head :: before, after, rfl, last⟩

/-- An entry that was last written was written. -/
theorem LastWritten.mem {same : Value → Value → Prop} {entries : List (Value × Value)}
    {entry : Value × Value} (written : LastWritten same entries entry) : entry ∈ entries := by
  obtain ⟨before, after, rfl, -⟩ := written
  simp

/-- A value is put under a key in place of the one that was there. -/
theorem Discrete.mem_putAscending (discrete : Discrete among) (key value : Value)
    (entry : Value × Value) (kept : List (Value × Value)) (own : among key)
    (all : ∀ other ∈ kept, among other.1)
    (ascends : kept.Pairwise fun earlier later => later.1.order earlier.1 = .gt) :
    entry ∈ putAscending key value kept ↔
      entry = (key, value) ∨ entry ∈ kept ∧ entry.1 ≠ key := by
  induction kept with
  | nil => simp [putAscending]
  | cons head rest inductionHypothesis =>
      obtain ⟨first, later⟩ := List.forall_mem_cons.mp all
      obtain ⟨greater, behind⟩ := List.pairwise_cons.mp ascends
      unfold putAscending
      split
      · next below =>
          have above := Std.OrientedCmp.gt_of_lt below
          have all : ∀ entry ∈ head :: rest, entry.1 ≠ key := List.forall_mem_cons.mpr
            ⟨ne_of_order_gt above, fun entry listed =>
              ne_of_order_gt (Std.TransCmp.gt_trans (greater entry listed) above)⟩
          rw [List.mem_cons, and_iff_left_of_imp (all entry)]
      · next equal =>
          have same := discrete key head.1 own first equal
          have all : ∀ entry ∈ rest, entry.1 ≠ key := fun entry listed =>
            ne_of_order_gt (same ▸ greater entry listed)
          rw [List.mem_cons, List.mem_cons, or_and_right, and_iff_left_of_imp (all entry)]
          have replaced : ¬ (entry = head ∧ entry.1 ≠ key) := fun both =>
            both.2 (both.1 ▸ same.symm)
          simp [replaced]
      · next above =>
          have different : head.1 ≠ key := (ne_of_order_gt above).symm
          have stays : entry = head ∧ entry.1 ≠ key ↔ entry = head :=
            and_iff_left_of_imp fun own => own ▸ different
          rw [List.mem_cons, inductionHypothesis later behind, List.mem_cons, or_and_right, stays]
          exact or_left_comm

/-- A map that is collected in ascending order has the last entry for each key. -/
theorem Discrete.mem_collect (discrete : Discrete among) (entries : List (Value × Value))
    (all : ∀ entry ∈ entries, among entry.1) (entry : Value × Value) :
    entry ∈ MapKind.ordered.collect entries ↔ LastWritten (· = ·) entries entry := by
  have built (kept : List (Value × Value)) (before : ∀ other ∈ kept, among other.1)
      (ascends : kept.Pairwise fun earlier later => later.1.order earlier.1 = .gt) :
      entry ∈ entries.foldl (fun kept entry => putAscending entry.1 entry.2 kept) kept
        ↔ LastWritten (· = ·) entries entry
          ∨ entry ∈ kept ∧ ∀ later ∈ entries, ¬ later.1 = entry.1 := by
    induction entries generalizing kept with
    | nil => simp [LastWritten]
    | cons head rest inductionHypothesis =>
        obtain ⟨first, later⟩ := List.forall_mem_cons.mp all
        have grown (other : Value × Value) :=
          discrete.mem_putAscending head.1 head.2 other kept first before ascends
        have among : ∀ other ∈ putAscending head.1 head.2 kept, among other.1 := by
          intro other listed
          obtain rfl | ⟨earlier, -⟩ := (grown other).mp listed
          · exact first
          · exact before other earlier
        have keys := insertAscending_pairwise head.1 (kept.map Prod.fst)
          (List.pairwise_map.mpr ascends)
        rw [← map_fst_putAscending head.1 head.2] at keys
        rw [List.foldl_cons, inductionHypothesis later _ among (List.pairwise_map.mp keys), grown,
          lastWritten_cons, List.forall_mem_cons, ne_comm]
        grind
  have whole := built [] (List.forall_mem_nil _) List.Pairwise.nil
  rwa [or_iff_left fun impossible => List.not_mem_nil impossible.1] at whole

/-- Two lists are the same in ascending order exactly if they have the same elements. -/
theorem Discrete.ascending_eq_iff (discrete : Discrete among) (items others : List Value)
    (left : ∀ item ∈ items, among item) (right : ∀ item ∈ others, among item) :
    ascending items = ascending others ↔ ∀ item, item ∈ items ↔ item ∈ others := by
  constructor
  · intro same item
    rw [← discrete.mem_ascending items left, same, discrete.mem_ascending others right]
  · intro alike
    have ascends (items : List Value) := (SequenceKind.holds_of_collect .orderedSet items _ rfl).1
    refine ext_of_ascending id _ _ (ascends items) (ascends others) fun item => ?_
    rw [discrete.mem_ascending items left, discrete.mem_ascending others right]
    exact alike item

/-- Two maps are the same in ascending order exactly if the same entries were last written. -/
theorem Discrete.collect_eq_iff (discrete : Discrete among) (entries others : List (Value × Value))
    (left : ∀ entry ∈ entries, among entry.1) (right : ∀ entry ∈ others, among entry.1) :
    MapKind.ordered.collect entries = MapKind.ordered.collect others ↔
      ∀ entry, LastWritten (· = ·) entries entry ↔ LastWritten (· = ·) others entry := by
  constructor
  · intro same entry
    rw [← discrete.mem_collect entries left, same, discrete.mem_collect others right]
  · intro alike
    have ascends (entries : List (Value × Value)) := (MapKind.holds_collect .ordered entries).1
    refine ext_of_ascending Prod.fst _ _ (ascends entries) (ascends others) fun entry => ?_
    rw [discrete.mem_collect entries left, discrete.mem_collect others right]
    exact alike entry

/-- If keys are the same exactly if they become the same, the entries last written of a map become
    those last written of what it becomes. -/
theorem lastWritten_map (same : Value → Value → Prop) (change : Value × Value → Value × Value)
    (entries : List (Value × Value))
    (each : ∀ one ∈ entries, ∀ other ∈ entries,
      same one.1 other.1 ↔ (change one).1 = (change other).1) (image : Value × Value) :
    LastWritten (· = ·) (entries.map change) image ↔
      ∃ entry, LastWritten same entries entry ∧ change entry = image := by
  constructor
  · rintro ⟨before, after, split, last⟩
    obtain ⟨front, back, rfl, -, mapped⟩ := List.map_eq_append_iff.mp split
    obtain ⟨entry, rest, rfl, rfl, rfl⟩ := List.map_eq_cons_iff.mp mapped
    refine ⟨entry, ⟨front, rest, rfl, fun later listed again => ?_⟩, rfl⟩
    apply last (change later) (List.mem_map_of_mem listed)
    exact (each later (by simp [listed]) entry (by simp)).mp again
  · rintro ⟨entry, ⟨front, rest, rfl, last⟩, rfl⟩
    refine ⟨front.map change, rest.map change, by simp, fun later listed again => ?_⟩
    obtain ⟨later, among, rfl⟩ := List.mem_map.mp listed
    exact last later among ((each later (by simp [among]) entry (by simp)).mpr again)

end Value

namespace Format

/-- The value is one of the format. A set may be listed with duplicates, and a map may have
    several entries for a key. -/
def Holds : Format → Value → Prop
  | .leaf kind, value => ∃ plain, value = .scalar plain ∧ plain.leaf = kind
  | .shortString, value => ∃ text, value = .string text
  | .enumeration type names, value => ∃ index, value = .member type index ∧ index < names.length
  | .custom .., _ => False
  | .list element, value => ∃ items, value = .sequence (.sequence .vector element.type) items ∧
      ∀ item ∈ items, element.Holds item
  | .set element, value => ∃ items, value = .sequence (.sequence .hashedSet element.type) items ∧
      ∀ item ∈ items, element.Holds item
  | .queue element, value => ∃ items, value = .sequence (.sequence .deque element.type) items ∧
      ∀ item ∈ items, element.Holds item
  | .map key part, value => ∃ entries, value = .map (.map .hashed key.type part.type) entries ∧
      ∀ entry ∈ entries, key.Holds entry.1 ∧ part.Holds entry.2
  | .optional inner, value =>
      value = .absent inner.type ∨ ∃ held, value = .present held ∧ inner.Holds held

/-- The order tells apart any two values of one format. -/
theorem discrete (format : Format) : Value.Discrete format.Holds := by
  induction format with
  | leaf kind =>
      rintro _ _ ⟨one, rfl, -⟩ ⟨other, rfl, -⟩ equal
      rw [Scalar.eq_of_order one other equal]
  | shortString =>
      rintro _ _ ⟨one, rfl⟩ ⟨other, rfl⟩ equal
      exact congrArg Value.scalar (Scalar.eq_of_order (.string one) (.string other) equal)
  | enumeration type names =>
      rintro _ _ ⟨one, rfl, -⟩ ⟨other, rfl, -⟩ equal
      rw [Nat.compare_eq_eq.mp equal]
  | custom type layout => exact fun _ _ impossible => impossible.elim
  | list element inductionHypothesis
  | set element inductionHypothesis
  | queue element inductionHypothesis =>
      rintro _ _ ⟨items, rfl, left⟩ ⟨others, rfl, right⟩ equal
      rw [inductionHypothesis.items items others left right equal]
  | map key part keys parts =>
      rintro _ _ ⟨entries, rfl, left⟩ ⟨others, rfl, right⟩ equal
      rw [keys.entries parts entries others left right equal]
  | optional inner inductionHypothesis =>
      rintro _ _ (rfl | ⟨one, rfl, left⟩) (rfl | ⟨other, rfl, right⟩) equal
      · rfl
      · cases equal
      · cases equal
      · rw [inductionHypothesis one other left right equal]

/-- Two values of the format are the same, though they may be listed differently. Lists and queues
    are the same if their elements are, one by one; sets if each element is found on the other side;
    maps if for each key that is written on either side the last value is the same. -/
def Same : Format → Value → Value → Prop
  | .list element, .sequence own items, .sequence other others =>
      own = other ∧ List.Forall₂ element.Same items others
  | .set element, .sequence own items, .sequence other others =>
      own = other ∧ (∀ item ∈ items, ∃ found ∈ others, element.Same item found) ∧
        ∀ found ∈ others, ∃ item ∈ items, element.Same item found
  | .queue element, .sequence own items, .sequence other others =>
      own = other ∧ List.Forall₂ element.Same items others
  | .map key part, .map own entries, .map other others =>
      let alike (entry found : Value × Value) : Prop :=
        key.Same entry.1 found.1 ∧ part.Same entry.2 found.2
      own = other ∧
        (∀ entry, Value.LastWritten key.Same entries entry →
          ∃ found, Value.LastWritten key.Same others found ∧ alike entry found) ∧
        ∀ found, Value.LastWritten key.Same others found →
          ∃ entry, Value.LastWritten key.Same entries entry ∧ alike entry found
  | .optional inner, .present value, .present found => inner.Same value found
  | _, value, found => value = found

/-- No set in the value has two elements that are the same, and no map two keys. -/
def Settled : Format → Value → Prop
  | .list element, .sequence _ items => ∀ item ∈ items, element.Settled item
  | .set element, .sequence _ items =>
      (items.Pairwise fun earlier later => ¬ element.Same earlier later) ∧
        ∀ item ∈ items, element.Settled item
  | .queue element, .sequence _ items => ∀ item ∈ items, element.Settled item
  | .map key part, .map _ entries =>
      (entries.Pairwise fun earlier later => ¬ key.Same earlier.1 later.1) ∧
        ∀ entry ∈ entries, key.Settled entry.1 ∧ part.Settled entry.2
  | .optional inner, .present value => inner.Settled value
  | _, _ => True

/-- The listing that reading makes of a value: sets and maps in ascending order, at every depth. -/
def listing : Format → Value → Value
  | .list element, .sequence own items => .sequence own (items.map element.listing)
  | .set element, .sequence own items =>
      .sequence own (Value.ascending (items.map element.listing))
  | .queue element, .sequence own items => .sequence own (items.map element.listing)
  | .map key part, .map own entries =>
      .map own (MapKind.ordered.collect
        (entries.map fun entry => (key.listing entry.1, part.listing entry.2)))
  | .optional inner, .present value => .present (inner.listing value)
  | _, value => value

/-! ## Listings -/

/-- The listing of a value is a value of the format. -/
theorem holds_listing (format : Format) (value : Value) (holds : format.Holds value) :
    format.Holds (format.listing value) := by
  have all {element : Format} {items : List Value} (held : ∀ item ∈ items, element.Holds item)
      (each : ∀ item, element.Holds item → element.Holds (element.listing item)) :
      ∀ item ∈ items.map element.listing, element.Holds item :=
    List.forall_mem_map.mpr fun item listed => each item (held item listed)
  induction format generalizing value with
  | leaf kind => exact holds
  | shortString => exact holds
  | enumeration type names => exact holds
  | custom type layout => exact holds.elim
  | list element inductionHypothesis | queue element inductionHypothesis =>
      obtain ⟨items, rfl, held⟩ := holds
      exact ⟨_, rfl, all held inductionHypothesis⟩
  | set element inductionHypothesis =>
      obtain ⟨items, rfl, held⟩ := holds
      refine ⟨_, rfl, fun item listed => all held inductionHypothesis item ?_⟩
      exact (SequenceKind.holds_of_collect .orderedSet _ _ rfl).2 item listed
  | map key part keys parts =>
      obtain ⟨entries, rfl, held⟩ := holds
      refine ⟨_, rfl, fun entry listed => ?_⟩
      obtain ⟨written, among, rfl⟩ :=
        List.mem_map.mp ((MapKind.holds_collect .ordered _).2 entry listed)
      exact ⟨keys _ (held written among).1, parts _ (held written among).2⟩
  | optional inner inductionHypothesis =>
      obtain rfl | ⟨held, rfl, own⟩ := holds
      · exact .inl rfl
      · exact .inr ⟨_, rfl, inductionHypothesis held own⟩

/-- Lists are related element by element exactly if they become the same list, where elements are
    related exactly if they become the same. -/
theorem forall₂_iff_map_eq {related : Value → Value → Prop} {change : Value → Value}
    (items others : List Value)
    (each : ∀ item ∈ items, ∀ other ∈ others, related item other ↔ change item = change other) :
    List.Forall₂ related items others ↔ items.map change = others.map change := by
  induction items generalizing others with
  | nil => cases others <;> simp
  | cons item rest inductionHypothesis =>
      cases others with
      | nil => simp
      | cons other behind =>
          have later := inductionHypothesis behind fun one among two listed =>
            each one (List.mem_cons_of_mem _ among) two (List.mem_cons_of_mem _ listed)
          rw [List.forall₂_cons, later, each item List.mem_cons_self other List.mem_cons_self]
          simp

/-- Elements are found on either side exactly if both sides become the same elements, where elements
    are related exactly if they become the same. -/
theorem found_iff_mem_map {α β : Type} (related : α → α → Prop) (change : α → β)
    (among amongOthers : α → Prop)
    (each : ∀ item, among item → ∀ other, amongOthers other →
      (related item other ↔ change item = change other)) :
    ((∀ item, among item → ∃ found, amongOthers found ∧ related item found) ∧
      ∀ found, amongOthers found → ∃ item, among item ∧ related item found) ↔
      ∀ image, (∃ item, among item ∧ change item = image) ↔
        ∃ found, amongOthers found ∧ change found = image := by
  constructor
  · rintro ⟨forth, back⟩ image
    constructor
    · rintro ⟨item, listed, rfl⟩
      obtain ⟨found, listedOther, same⟩ := forth item listed
      exact ⟨found, listedOther, ((each item listed found listedOther).mp same).symm⟩
    · rintro ⟨found, listedOther, rfl⟩
      obtain ⟨item, listed, same⟩ := back found listedOther
      exact ⟨item, listed, (each item listed found listedOther).mp same⟩
  · intro alike
    constructor
    · intro item listed
      obtain ⟨found, listedOther, same⟩ := (alike (change item)).mp ⟨item, listed, rfl⟩
      exact ⟨found, listedOther, (each item listed found listedOther).mpr same.symm⟩
    · intro found listedOther
      obtain ⟨item, listed, same⟩ := (alike (change found)).mpr ⟨found, listedOther, rfl⟩
      exact ⟨item, listed, (each item listed found listedOther).mpr same⟩

/-- Two values of the format are the same exactly if their listings are equal. -/
theorem same_iff (format : Format) (one other : Value) (left : format.Holds one)
    (right : format.Holds other) :
    format.Same one other ↔ format.listing one = format.listing other := by
  induction format generalizing one other with
  | leaf kind => exact Iff.rfl
  | shortString => exact Iff.rfl
  | enumeration type names => exact Iff.rfl
  | custom type layout => exact left.elim
  | list element inductionHypothesis | queue element inductionHypothesis =>
      obtain ⟨items, rfl, held⟩ := left
      obtain ⟨others, rfl, heldOthers⟩ := right
      have elements := forall₂_iff_map_eq items others fun item listed other listedOther =>
        inductionHypothesis item other (held item listed) (heldOthers other listedOther)
      simpa only [Same, listing, true_and, Value.sequence.injEq] using elements
  | set element inductionHypothesis =>
      obtain ⟨items, rfl, held⟩ := left
      obtain ⟨others, rfl, heldOthers⟩ := right
      have listed {items : List Value} (held : ∀ item ∈ items, element.Holds item) :
          ∀ item ∈ items.map element.listing, element.Holds item :=
        List.forall_mem_map.mpr fun item among => element.holds_listing item (held item among)
      have found := found_iff_mem_map element.Same element.listing (· ∈ items) (· ∈ others)
        fun item among other amongOthers =>
          inductionHypothesis item other (held item among) (heldOthers other amongOthers)
      have ascending := element.discrete.ascending_eq_iff _ _ (listed held) (listed heldOthers)
      simp only [List.mem_map] at ascending
      simp only [Same, listing, true_and, Value.sequence.injEq, ascending, found]
  | map key part keys parts =>
      obtain ⟨entries, rfl, held⟩ := left
      obtain ⟨others, rfl, heldOthers⟩ := right
      let change (entry : Value × Value) := (key.listing entry.1, part.listing entry.2)
      have listed {entries : List (Value × Value)}
          (held : ∀ entry ∈ entries, key.Holds entry.1 ∧ part.Holds entry.2) :
          ∀ entry ∈ entries.map change, key.Holds entry.1 :=
        List.forall_mem_map.mpr fun entry among => key.holds_listing entry.1 (held entry among).1
      have written {entries : List (Value × Value)}
          (held : ∀ entry ∈ entries, key.Holds entry.1 ∧ part.Holds entry.2) :=
        Value.lastWritten_map key.Same change entries fun one among other amongOthers =>
          keys one.1 other.1 (held one among).1 (held other amongOthers).1
      have found := found_iff_mem_map
        (fun entry found => key.Same entry.1 found.1 ∧ part.Same entry.2 found.2) change
        (Value.LastWritten key.Same entries) (Value.LastWritten key.Same others)
        fun entry among other amongOthers => by
          have own := held entry among.mem
          have ownOther := heldOthers other amongOthers.mem
          rw [keys _ _ own.1 ownOther.1, parts _ _ own.2 ownOther.2]
          simp only [change, Prod.mk.injEq]
      have collected := key.discrete.collect_eq_iff _ _ (listed held) (listed heldOthers)
      simp only [written held, written heldOthers] at collected
      simp only [Same, listing, true_and, Value.map.injEq]
      exact found.trans collected.symm
  | optional inner inductionHypothesis =>
      obtain rfl | ⟨one, rfl, own⟩ := left <;> obtain rfl | ⟨other, rfl, ownOther⟩ := right
      · exact Iff.rfl
      · simp [Same, listing]
      · simp [Same, listing]
      · simp only [Same, listing, inductionHypothesis one other own ownOther, Value.present.injEq]

/-- The listing of a listing is the listing itself. -/
theorem listing_listing (format : Format) (value : Value) (holds : format.Holds value) :
    format.listing (format.listing value) = format.listing value := by
  have again {element : Format} {items : List Value} (held : ∀ item ∈ items, element.Holds item)
      (each : ∀ item, element.Holds item →
        element.listing (element.listing item) = element.listing item) :
      ∀ item ∈ items.map element.listing, element.listing item = item :=
    List.forall_mem_map.mpr fun item listed => each item (held item listed)
  induction format generalizing value with
  | leaf kind => rfl
  | shortString => rfl
  | enumeration type names => rfl
  | custom type layout => rfl
  | list element inductionHypothesis | queue element inductionHypothesis =>
      obtain ⟨items, rfl, held⟩ := holds
      have same := (List.map_congr_left (again held inductionHypothesis)).trans (List.map_id' _)
      simp only [listing, same]
  | set element inductionHypothesis =>
      obtain ⟨items, rfl, held⟩ := holds
      obtain ⟨ascends, among⟩ := SequenceKind.holds_of_collect .orderedSet
        (items.map element.listing) _ rfl
      have elements := (List.map_congr_left fun item listed =>
        again held inductionHypothesis item (among item listed)).trans (List.map_id' _)
      have same := Except.ok.inj (SequenceKind.collect_of_holds .orderedSet _ ascends)
      simp only [listing, elements, same]
  | map key part keys parts =>
      obtain ⟨entries, rfl, held⟩ := holds
      let change (entry : Value × Value) := (key.listing entry.1, part.listing entry.2)
      obtain ⟨ascends, among⟩ := MapKind.holds_collect .ordered (entries.map change)
      have unchanged : ∀ entry ∈ MapKind.ordered.collect (entries.map change),
          change entry = entry := by
        intro entry listed
        obtain ⟨written, before, rfl⟩ := List.mem_map.mp (among entry listed)
        exact Prod.ext (keys written.1 (held written before).1)
          (parts written.2 (held written before).2)
      have elements := (List.map_congr_left unchanged).trans (List.map_id' _)
      have same := MapKind.collect_of_holds .ordered _ ascends
      exact congrArg (Value.map _) ((congrArg _ elements).trans same)
  | optional inner inductionHypothesis =>
      obtain rfl | ⟨held, rfl, own⟩ := holds
      · rfl
      · simp only [listing, inductionHypothesis held own]

/-- A value is the same as its listing. -/
theorem same_listing (format : Format) (value : Value) (holds : format.Holds value) :
    format.Same value (format.listing value) := by
  rw [format.same_iff value _ holds (format.holds_listing value holds),
    format.listing_listing value holds]

/-- Values whose listings differ in order are not the same. -/
theorem not_same_listing (format : Format) (one other : Value) (left : format.Holds one)
    (right : format.Holds other)
    (greater : (format.listing other).order (format.listing one) = .gt) :
    ¬ format.Same (format.listing one) (format.listing other) := by
  rw [format.same_iff _ _ (format.holds_listing one left) (format.holds_listing other right),
    format.listing_listing one left, format.listing_listing other right]
  exact (Value.ne_of_order_gt greater).symm

/-- Nothing is in a listing twice. -/
theorem settled_listing (format : Format) (value : Value) (holds : format.Holds value) :
    format.Settled (format.listing value) := by
  induction format generalizing value with
  | leaf kind => trivial
  | shortString => trivial
  | enumeration type names => trivial
  | custom type layout => trivial
  | list element inductionHypothesis | queue element inductionHypothesis =>
      obtain ⟨items, rfl, held⟩ := holds
      exact List.forall_mem_map.mpr fun item listed => inductionHypothesis item (held item listed)
  | set element inductionHypothesis =>
      obtain ⟨items, rfl, held⟩ := holds
      obtain ⟨ascends, among⟩ := SequenceKind.holds_of_collect .orderedSet
        (items.map element.listing) _ rfl
      constructor
      · refine ascends.imp_of_mem fun listed listedLater greater => ?_
        obtain ⟨one, before, rfl⟩ := List.mem_map.mp (among _ listed)
        obtain ⟨other, beforeLater, rfl⟩ := List.mem_map.mp (among _ listedLater)
        exact element.not_same_listing one other (held one before) (held other beforeLater) greater
      · intro item listed
        obtain ⟨written, before, rfl⟩ := List.mem_map.mp (among item listed)
        exact inductionHypothesis written (held written before)
  | map key part keys parts =>
      obtain ⟨entries, rfl, held⟩ := holds
      obtain ⟨ascends, among⟩ := MapKind.holds_collect .ordered
        (entries.map fun entry => (key.listing entry.1, part.listing entry.2))
      constructor
      · refine ascends.imp_of_mem fun listed listedLater greater => ?_
        obtain ⟨one, before, rfl⟩ := List.mem_map.mp (among _ listed)
        obtain ⟨other, beforeLater, rfl⟩ := List.mem_map.mp (among _ listedLater)
        exact key.not_same_listing one.1 other.1 (held one before).1 (held other beforeLater).1
          greater
      · intro entry listed
        obtain ⟨written, before, rfl⟩ := List.mem_map.mp (among entry listed)
        exact ⟨keys written.1 (held written before).1, parts written.2 (held written before).2⟩
  | optional inner inductionHypothesis =>
      obtain rfl | ⟨held, rfl, own⟩ := holds
      · trivial
      · exact inductionHypothesis held own

end Format

end Wireform
