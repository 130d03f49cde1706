import Wireform.Proofs.Locality

/-!
# Items of attributes

The items of an attribute's list are those of its parts between commas, each read on its own. Where a
part stands and what stands around it makes no difference, so a list can be read if and only if all
its parts can be read, and nothing is learnt from it that they do not say themselves.

Items can be lists again. They are read down to a depth that is the number of tokens, of which each
list takes two, so that a part is read alike in its list and on its own.
-/

namespace Wireform.Derive

open Wireform.Derive.Parser

variable {α β : Type}

namespace Parser

variable {item : Parser α}

/-! ## Lists -/

/-- Marks are read if they stand first. -/
theorem mark_eq_ok (text : String) (here after : Cursor) (code : Code) :
    mark text here = .ok (code, after) ↔
      (∃ rest, Cursor.dropMarks? text.toList here.rest = some rest ∧
        after = { here with rest := rest }) ∧
      code = text.toList.map fun char => String.ofList [char] := by
  rw [mark, get_bind]
  cases Cursor.dropMarks? text.toList here.rest with
  | none =>
      constructor
      · rintro ⟨⟩
      · rintro ⟨⟨_, ⟨⟩, -⟩, -⟩
  | some rest =>
      constructor
      · rintro ⟨⟩
        exact ⟨⟨rest, rfl, rfl⟩, rfl⟩
      · rintro ⟨⟨_, ⟨⟩, rfl⟩, rfl⟩
        rfl

/-- A comma is one tree. -/
theorem dropMarks?_comma (trees rest : List Tree) :
    Cursor.dropMarks? ",".toList trees = some rest ↔
      ∃ joined, trees = .atom (.mark ',' joined) :: rest := by
  constructor
  · intro dropped
    match trees, dropped with
    | .atom (.mark char joined) :: others, dropped =>
        change (if (char = ',' && ',' ≠ '\'') = true then some others else none) = some rest
          at dropped
        split at dropped
        · cases dropped
          exact ⟨joined, by simp_all⟩
        · cases dropped
  · rintro ⟨joined, rfl⟩
    rfl

/-- One step of reading a list: it is at its end, or one thing is read, behind which there is the end
    or a comma and the list goes on. -/
theorem listedFrom_succ_eq_ok (fuel : Nat) (here last : Cursor) (found : List (Listed α)) :
    listedFrom Cursor.atEnd "," item (fuel + 1) here = .ok (found, last) ↔
      here.rest = [] ∧ found = [] ∧ last = here ∨
      here.rest ≠ [] ∧ ∃ first second, item here = .ok (first, second) ∧
        (second.rest = [] ∧ found = [(first, false)] ∧ last = second ∨
        ∃ joined rest others, second.rest = .atom (.mark ',' joined) :: rest ∧
          listedFrom Cursor.atEnd "," item fuel ⟨rest, second.leftOver⟩ = .ok (others, last) ∧
          found = (first, true) :: others) := by
  have result (value : List (Listed α)) (place : Cursor) :
      (pure value : Parser (List (Listed α))) place = .ok (found, last) ↔ found = value ∧ last = place :=
    ⟨by rintro ⟨⟩; exact ⟨rfl, rfl⟩, by rintro ⟨rfl, rfl⟩; rfl⟩
  rw [listedFrom, sees_bind]
  by_cases none : here.rest = []
  · have ended : here.atEnd = true := List.isEmpty_iff.mpr none
    simp [ended, none, result]
  · have unended : here.atEnd = false := by simpa [Cursor.atEnd] using none
    simp only [unended, none, Bool.false_eq_true, if_false, false_and, false_or, ne_eq,
      not_false_eq_true, true_and, bind_apply_eq_ok item]
    refine exists_congr fun first => exists_congr fun second => and_congr_right fun _ => ?_
    rw [sees_bind]
    by_cases none : second.rest = []
    · have ended : second.atEnd = true := List.isEmpty_iff.mpr none
      simp [ended, none, result]
    · have unended : second.atEnd = false := by simpa [Cursor.atEnd] using none
      simp only [unended, none, Bool.false_eq_true, if_false, false_and, false_or, bind_apply_eq_ok,
        mark_eq_ok, dropMarks?_comma, result]
      constructor
      · rintro ⟨_, _, ⟨⟨rest, ⟨joined, comma⟩, rfl⟩, rfl⟩, others, _, further, rfl, rfl⟩
        exact ⟨joined, rest, others, comma, further, rfl⟩
      · rintro ⟨joined, rest, others, comma, further, rfl⟩
        exact ⟨_, _, ⟨⟨rest, ⟨joined, comma⟩, rfl⟩, rfl⟩, others, _, further, rfl, rfl⟩

/-- A list that is read up to its end leaves nothing, if it is read from as many steps as there are
    trees, since each comma is a tree. -/
theorem listedFrom_finishes (stays : Stays item) (fuel : Nat) (here last : Cursor)
    (enough : here.rest.length < fuel) (found : List (Listed α))
    (done : listedFrom Cursor.atEnd "," item fuel here = .ok (found, last)) :
    last.rest = [] ∧ last.leftOver = here.leftOver := by
  induction fuel generalizing here found with
  | zero => omega
  | succ fuel inductionHypothesis =>
      obtain ⟨empty, -, rfl⟩ | ⟨-, first, second, read, behind⟩ :=
        (listedFrom_succ_eq_ok _ _ _ _).mp done
      · exact ⟨empty, rfl⟩
      · obtain ⟨left, same⟩ := stays.onward _ _ _ read
        obtain ⟨empty, -, rfl⟩ | ⟨joined, rest, others, comma, further, -⟩ := behind
        · exact ⟨empty, same⟩
        · have shorter : rest.length < here.rest.length := by
            have := left.length_le
            simp [comma] at this
            omega
          have short : rest.length < fuel := by omega
          obtain ⟨empty, still⟩ := inductionHypothesis ⟨rest, second.leftOver⟩ short _ further
          exact ⟨empty, still.trans same⟩

/-- Lists of things that are read alike, as deep in the trees as the list goes, are read alike. -/
theorem listedFrom_congr {item other : Parser α} (stays : Stays item) (fuel : Nat) (here : Cursor)
    (same : ∀ place, place.rest <:+ here.rest → item place = other place) :
    listedFrom Cursor.atEnd "," item fuel here = listedFrom Cursor.atEnd "," other fuel here := by
  induction fuel generalizing here with
  | zero => rfl
  | succ fuel inductionHypothesis =>
      rw [listedFrom, listedFrom, sees_bind, sees_bind]
      cases here.atEnd with
      | true => rfl
      | false =>
          refine (bind_congr_of_eq_ok ?_).trans (bind_congr_left _ (same here (List.suffix_refl _)))
          intro first second read
          have left := (stays.onward _ _ _ read).1
          rw [sees_bind, sees_bind]
          cases second.atEnd with
          | true => rfl
          | false =>
              apply bind_congr_of_eq_ok
              intro _ third marked
              obtain ⟨⟨rest, dropped, rfl⟩, -⟩ := (mark_eq_ok _ _ _ _).mp marked
              have further := Cursor.suffix_of_dropMarks? dropped
              exact bind_congr_left _ (inductionHypothesis ⟨rest, _⟩ fun place deeper =>
                same place (deeper.trans (further.trans left)))

/-- What a group holds is read if the group stands first. -/
theorem within_eq_ok (delimiter : Delimiter) (inside : Parser α) (here after : Cursor) (found : α) :
    Parser.within delimiter inside here = .ok (found, after) ↔ ∃ content rest last,
      here.rest = .group delimiter content :: rest ∧
        inside ⟨content, here.leftOver⟩ = .ok (found, last) ∧
        after = ⟨rest, last.leftOver || !last.atEnd⟩ := by
  have refused (account : String) : ¬ (refuse account : Parser α) here = .ok (found, after) := nofun
  obtain ⟨trees, leftOver⟩ := here
  match trees with
  | .group actual content :: rest =>
      change (if actual = delimiter then _ else _ : Parser α) _ = _ ↔ _
      by_cases same : actual = delimiter
      · subst same
        rw [if_pos rfl]
        dsimp only
        cases read : inside ⟨content, leftOver⟩ with
        | error fault =>
            constructor
            · rintro ⟨⟩
            · rintro ⟨_, _, _, ⟨⟩, failed, -⟩
              cases read.symm.trans failed
        | ok pair =>
            constructor
            · rintro ⟨⟩
              exact ⟨_, _, _, rfl, read, rfl⟩
            · rintro ⟨_, _, _, ⟨⟩, again, rfl⟩
              cases read.symm.trans again
              rfl
      · rw [if_neg same]
        exact iff_of_false (refused _) fun ⟨_, _, _, group, _⟩ => same (by cases group; rfl)
  | [] => exact iff_of_false (refused _) nofun
  | .atom _ :: _ => exact iff_of_false (refused _) nofun

/-- A group is read alike if what it holds is. -/
theorem within_congr {delimiter : Delimiter} {inside other : Parser α} {here : Cursor}
    (same : ∀ content rest, here.rest = .group delimiter content :: rest →
      inside ⟨content, here.leftOver⟩ = other ⟨content, here.leftOver⟩) :
    Parser.within delimiter inside here = Parser.within delimiter other here := by
  obtain ⟨trees, leftOver⟩ := here
  match trees with
  | .group actual content :: rest =>
      change (if actual = delimiter then _ else _ : Parser α) _
        = (if actual = delimiter then _ else _ : Parser α) _
      split_ifs with known
      · subst known
        dsimp only
        rw [same content rest rfl]
      · rfl
  | [] => rfl
  | .atom _ :: _ => rfl

/-- A group that holds a list of things is read as a whole, and nothing is left over in it. -/
theorem within_listed_eq_ok (delimiter : Delimiter) (stays : Stays item) (here after : Cursor)
    (found : List (Listed α)) :
    Parser.within delimiter (listed Cursor.atEnd "," item) here = .ok (found, after) ↔
      ∃ content rest, here.rest = .group delimiter content :: rest ∧
        listed Cursor.atEnd "," item ⟨content, here.leftOver⟩ = .ok (found, ⟨[], here.leftOver⟩) ∧
        after = { here with rest := rest } := by
  rw [within_eq_ok]
  refine exists_congr fun content => exists_congr fun rest => ?_
  constructor
  · rintro ⟨⟨left, pending⟩, group, read, rfl⟩
    obtain ⟨rfl, rfl⟩ := listedFrom_finishes stays _ _ _ (Nat.lt_succ_self _) _ read
    exact ⟨group, read, by simp [Cursor.atEnd]⟩
  · rintro ⟨group, read, rfl⟩
    exact ⟨_, group, read, by simp [Cursor.atEnd]⟩

theorem stays_within_listed (delimiter : Delimiter) (stays : Stays item) :
    Stays (Parser.within delimiter (listed Cursor.atEnd "," item)) where
  onward := by
    intro here found after done
    obtain ⟨content, rest, group, -, rfl⟩ := (within_listed_eq_ok _ stays _ _ _).mp done
    exact ⟨group ▸ List.suffix_cons _ _, rfl⟩
  within := by
    intro trees tail leftOver found stop _ ends
    simp only [within_listed_eq_ok _ stays]
    constructor
    · rintro ⟨content, rest, group, read, rfl⟩
      match trees with
      | [] =>
          obtain rfl | ⟨joined, others, rfl⟩ := ends.cases
          · cases group
          · cases group
      | .group _ _ :: _ =>
          cases group
          exact ⟨_, ⟨_, _, rfl, read, rfl⟩, rfl⟩
    · rintro ⟨_, ⟨content, rest, rfl, read, rfl⟩, rfl⟩
      exact ⟨content, rest ++ tail, rfl, read, rfl⟩

end Parser

/-- An entry is read without looking past the comma behind it. -/
theorem Entry.stays_parse (fuel : Nat) : Stays (Entry.parse fuel) := by
  have value : Stays Literal.parse := by
    apply stays_bind stays_literal
    intro code
    split
    · exact stays_pure _
    · exact stays_pure _
  induction fuel with
  | zero => exact stays_refuse _
  | succ fuel inductionHypothesis =>
      apply stays_look
      · intro here
        split
        · exact stays_bind value fun _ => stays_pure _
        · split
          · apply stays_bind (Path.stays_parseWith Cursor.blind_hasAnyWord)
            intro path
            apply stays_look
            · intro place
              split
              · exact stays_bind (stays_within_listed _ inductionHypothesis) fun _ => stays_pure _
              · split
                · exact stays_bind (stays_mark (by decide)) fun _ =>
                    stays_bind value fun _ => stays_pure _
                · exact stays_pure _
            · intro trees tail leftOver ends
              simp only [Cursor.blind_hasGroup _ trees tail leftOver ends,
                Cursor.blind_hasMark (by decide : ',' ∉ "=".toList) trees tail leftOver ends]
          · exact stays_refuse _
      · intro trees tail leftOver ends
        have rooted := Cursor.blind_rooted trees tail leftOver ends
        simp only [Cursor.blind_hasLiteral trees tail leftOver ends,
          Cursor.blind_namesTruth trees tail leftOver ends,
          Cursor.blind_hasAnyWord trees tail leftOver ends, rooted]

/-- The tokens of a list are those of its parts. -/
theorem Tree.codes_append (first second : List Tree) :
    Tree.codes (first ++ second) = Tree.codes first ++ Tree.codes second := by
  induction first with
  | nil => rfl
  | cons tree rest inductionHypothesis =>
      rw [List.cons_append, Tree.codes, Tree.codes, inductionHypothesis, List.append_assoc]

/-- What is left of a list has no more tokens. -/
theorem Tree.length_codes_le {rest trees : List Tree} (left : rest <:+ trees) :
    (Tree.codes rest).length ≤ (Tree.codes trees).length := by
  obtain ⟨read, rfl⟩ := left
  rw [Tree.codes_append, List.length_append]
  omega

/-- Lists are less deep than they have tokens, so any depth beyond that reads an entry alike. -/
theorem Entry.parse_enough (fuel other : Nat) (here : Cursor)
    (enough : (Tree.codes here.rest).length < fuel) (more : (Tree.codes here.rest).length < other) :
    Entry.parse fuel here = Entry.parse other here := by
  induction fuel generalizing other here with
  | zero => omega
  | succ fuel inductionHypothesis =>
      obtain ⟨other, rfl⟩ : ∃ less, other = less + 1 := ⟨other - 1, by omega⟩
      have inside (content : List Tree) (leftOver : Bool)
          (deeper : (Tree.codes content).length < fuel ∧ (Tree.codes content).length < other) :
          listed Cursor.atEnd "," (Entry.parse fuel) ⟨content, leftOver⟩
            = listed Cursor.atEnd "," (Entry.parse other) ⟨content, leftOver⟩ := by
        apply listedFrom_congr (Entry.stays_parse fuel)
        intro place left
        have shorter : (Tree.codes place.rest).length ≤ (Tree.codes content).length :=
          Tree.length_codes_le left
        exact inductionHypothesis other place (by omega) (by omega)
      -- only a list within the entry is read with what is left of the fuel
      rw [Entry.parse, Entry.parse, get_bind, get_bind]
      split_ifs
      · rfl
      · apply bind_congr_of_eq_ok
        intro path place read
        have left := ((Path.stays_parseWith Cursor.blind_hasAnyWord).onward _ _ _ read).1
        rw [get_bind, get_bind]
        split_ifs
        · apply bind_congr_left
          apply within_congr
          intro content rest group
          have shorter := Tree.length_codes_le left
          have inner : (Tree.codes place.rest).length = (Tree.codes content).length
              + (Tree.codes rest).length + 2 := by
            simp only [group, Tree.codes, Tree.code, List.length_append, List.length_cons,
              List.length_nil]
            omega
          exact inside content _ (by omega)
        · rfl
        · rfl
      · rfl

/-! ## Items -/

/-- Trees list a number of items: each item is some trees without a comma, with a comma between any
    two, and another one may follow the last. -/
inductive Lists : List Tree → List (List Tree) → Prop
  | none : Lists [] []
  | last {item : List Tree} : item ≠ [] → Plain item → Lists item [item]
  | next {item rest : List Tree} {items : List (List Tree)} (joined : Bool) :
      item ≠ [] → Plain item → Lists rest items →
        Lists (item ++ .atom (.mark ',' joined) :: rest) (item :: items)

/-- An item has no more tokens than what it is listed in. -/
theorem Lists.length_codes_le {content : List Tree} {items : List (List Tree)}
    (lists : Lists content items) :
    ∀ item ∈ items, (Tree.codes item).length ≤ (Tree.codes content).length := by
  induction lists with
  | none => nofun
  | last => simp
  | next joined _ _ _ inductionHypothesis =>
      intro item among
      rw [Tree.codes_append, Tree.codes, List.length_append, List.length_append]
      obtain rfl | later := List.mem_cons.mp among
      · omega
      · have := inductionHypothesis item later
        omega

namespace Parser

/-- What is read of a whole list of trees is read up to its end, and nothing is left over. -/
theorem complete_eq_ok (whole : Parser α) (trees : List Tree) (found : α) :
    complete whole trees = .ok found ↔ whole ⟨trees, false⟩ = .ok (found, ⟨[], false⟩) := by
  unfold complete
  cases whole ⟨trees, false⟩ with
  | error fault => exact iff_of_false nofun nofun
  | ok pair =>
      obtain ⟨value, ⟨rest, leftOver⟩⟩ := pair
      cases leftOver <;> cases rest <;> simp [Cursor.atEnd]

/-- Behind an item there is the end of the list or a comma, so that it is left at its own end. -/
theorem rest_eq_nil {trees rest others : List Tree} {joined : Bool} (plain : Plain trees)
    (left : rest <:+ trees) {tail : List Tree}
    (comma : rest ++ tail = .atom (.mark ',' joined) :: others) : rest = [] := by
  cases rest with
  | nil => rfl
  | cons first later =>
      obtain ⟨rfl, -⟩ := List.cons_eq_cons.mp comma
      exact absurd rfl (plain _ (left.subset List.mem_cons_self))

/-- **A list is read item by item.** It can be read exactly if each of its items can be read on its
    own, and what is read are these items. -/
theorem listedFrom_eq_ok {item : Parser α} (stays : Stays item) {content : List Tree}
    {items : List (List Tree)} (lists : Lists content items) (fuel : Nat)
    (enough : content.length < fuel) (results : List α) (last : Cursor) :
    (∃ found, listedFrom Cursor.atEnd "," item fuel ⟨content, false⟩ = .ok (found, last) ∧
        results = found.map Prod.fst) ↔
      items.mapM (complete item) = .ok results ∧ last = ⟨[], false⟩ := by
  induction lists generalizing fuel results last with
  | none =>
      obtain ⟨fuel, rfl⟩ : ∃ less, fuel = less + 1 := ⟨fuel - 1, by simp at enough; omega⟩
      simp only [listedFrom_succ_eq_ok]
      constructor
      · rintro ⟨_, ⟨-, rfl, rfl⟩ | ⟨some, -⟩, rfl⟩
        · exact ⟨rfl, rfl⟩
        · exact absurd rfl some
      · rintro ⟨⟨⟩, rfl⟩
        exact ⟨[], .inl ⟨trivial, rfl, rfl⟩, rfl⟩
  | @last trees some plain =>
      obtain ⟨fuel, rfl⟩ : ∃ less, fuel = less + 1 := ⟨fuel - 1, by omega⟩
      simp only [listedFrom_succ_eq_ok, List.mapM_cons, List.mapM_nil, bind_eq_ok, complete_eq_ok]
      constructor
      · rintro ⟨_, ⟨none, -⟩ | ⟨-, first, ⟨rest, leftOver⟩, read, behind⟩, rfl⟩
        · exact absurd none some
        · obtain ⟨left, rfl⟩ := stays.onward _ _ _ read
          obtain ⟨rfl, rfl, rfl⟩ | ⟨joined, others, _, comma, -⟩ := behind
          · exact ⟨⟨first, read, [], rfl, rfl⟩, rfl⟩
          · have among := left.subset (comma ▸ List.mem_cons_self)
            exact absurd rfl (plain _ among)
      · rintro ⟨⟨first, read, _, ⟨⟩, ⟨⟩⟩, rfl⟩
        exact ⟨_, .inr ⟨some, first, _, read, .inl ⟨rfl, rfl, rfl⟩⟩, rfl⟩
  | @next trees rest items joined some plain lists inductionHypothesis =>
      -- the item stops before its comma, because none of its own trees is one
      obtain ⟨fuel, rfl⟩ : ∃ less, fuel = less + 1 := ⟨fuel - 1, by omega⟩
      have ends : Ends (.atom (.mark ',' joined) :: rest) := by
        rintro _ ⟨⟩
        rfl
      have shorter : rest.length < fuel := by
        simp at enough
        omega
      have others := inductionHypothesis fuel shorter
      simp only [listedFrom_succ_eq_ok, List.mapM_cons, bind_eq_ok, complete_eq_ok,
        stays.within _ _ _ _ _ plain ends]
      constructor
      · rintro ⟨_, ⟨none, -⟩ | ⟨-, first, _, ⟨⟨left, pending⟩, read, rfl⟩, behind⟩, rfl⟩
        · simp at none
        · obtain ⟨within, rfl⟩ := stays.onward _ _ _ read
          obtain ⟨none, -⟩ | ⟨again, later, more, comma, further, rfl⟩ := behind
          · simp [Cursor.followed] at none
          · obtain rfl := rest_eq_nil plain within comma
            cases comma
            obtain ⟨found, rfl⟩ := (others _ _).mp ⟨more, further, rfl⟩
            exact ⟨⟨first, read, _, found, rfl⟩, rfl⟩
      · rintro ⟨⟨first, read, _, found, ⟨⟩⟩, rfl⟩
        obtain ⟨more, further, rfl⟩ := (others _ _).mpr ⟨found, rfl⟩
        refine ⟨_, .inr ⟨by simp, first, _, ⟨_, read, rfl⟩, .inr ⟨joined, rest, more, rfl, further, rfl⟩⟩,
          rfl⟩

end Parser

/-- Reading all of a list in two steps is taking first the one for all of it and then the other. -/
theorem mapM_eq_ok_of_bind {γ : Type} {read : α → Reading γ} {first : α → Reading β}
    {second : β → Reading γ} {items : List α}
    (steps : ∀ item ∈ items, read item = first item >>= second) (results : List γ) :
    items.mapM read = .ok results ↔
      ∃ found, items.mapM first = .ok found ∧ found.mapM second = .ok results := by
  induction items generalizing results with
  | nil =>
      constructor
      · rintro ⟨⟩
        exact ⟨[], rfl, rfl⟩
      · rintro ⟨_, ⟨⟩, done⟩
        exact done
  | cons item rest inductionHypothesis =>
      obtain ⟨head, tail⟩ := List.forall_mem_cons.mp steps
      simp only [List.mapM_cons, bind_eq_ok, head, inductionHypothesis tail]
      constructor
      · rintro ⟨_, ⟨between, begun, ended⟩, _, ⟨found, all, done⟩, ⟨⟩⟩
        refine ⟨_, ⟨between, begun, found, all, rfl⟩, ?_⟩
        rw [List.mapM_cons, ended, done]
        rfl
      · rintro ⟨_, ⟨between, begun, found, all, ⟨⟩⟩, done⟩
        rw [List.mapM_cons] at done
        obtain ⟨_, ended, later⟩ := (bind_eq_ok _ _ _).mp done
        obtain ⟨_, further, ⟨⟩⟩ := (bind_eq_ok _ _ _).mp later
        exact ⟨_, ⟨between, begun, ended⟩, _, ⟨found, all, further⟩, rfl⟩

/-- Reads an item on its own. -/
def Item.read (trees : List Tree) : Reading Item := do
  (← complete (Entry.parse ((Tree.codes trees).length + 1)) trees).item?

namespace Form

/-- What follows the name of an attribute is a list if its reading ends with one. -/
theorem read_eq_list (trees : List Tree) (entries : List Entry) :
    Form.read trees = .list entries ↔ Form.parse ⟨trees, false⟩ = .ok (.list entries, ⟨[], false⟩) := by
  rw [← complete_eq_ok, Form.read]
  cases complete Form.parse trees <;> simp

/-- A list in brackets is read as far as the bracket goes. -/
theorem read_group_eq_list (content : List Tree) (entries : List Entry) :
    Form.read [.group .round content] = .list entries ↔
      ∃ found, listed Cursor.atEnd ","
          (Entry.parse (Tree.codes [.group .round content]).length) ⟨content, false⟩
        = .ok (found, ⟨[], false⟩) ∧ entries = found.map Prod.fst := by
  have group : Cursor.hasGroup .round ⟨[.group .round content], false⟩ = true := by
    simp [Cursor.hasGroup]
  rw [read_eq_list, Form.parse, get_bind, if_pos group, bind_apply_eq_ok]
  constructor
  · rintro ⟨found, after, read, ended⟩
    obtain ⟨_, _, ⟨⟩, whole, rfl⟩ := (within_listed_eq_ok _ (Entry.stays_parse _) _ _ _).mp read
    cases ended
    exact ⟨found, whole, rfl⟩
  · rintro ⟨found, whole, rfl⟩
    exact ⟨found, _, (within_listed_eq_ok _ (Entry.stays_parse _) _ _ _).mpr
      ⟨content, [], rfl, whole, rfl⟩, rfl⟩

/-- Items are those of a list. -/
theorem items_eq_ok (form : Form) (results : List Item) :
    form.items = .ok results ↔
      ∃ entries, form = .list entries ∧ entries.mapM Entry.item? = .ok results := by
  cases form with
  | list entries => simp [Form.items]
  | noList => simp [Form.items]
  | unreadable fault => simp [Form.items]

/-- **The items of an attribute are those that its list is made of.** -/
theorem items_read_group {content : List Tree} {items : List (List Tree)}
    (lists : Lists content items) (results : List Item) :
    (Form.read [.group .round content]).items = .ok results ↔
      items.mapM Item.read = .ok results := by
  let depth := (Tree.codes [.group .round content]).length
  have deep : (Tree.codes content).length < depth := by
    simp only [depth, Tree.codes, Tree.code, List.length_append, List.length_cons]
    omega
  have alone : ∀ item ∈ items,
      Item.read item = complete (Entry.parse depth) item >>= Entry.item? := by
    intro item among
    have shorter := lists.length_codes_le item among
    have same := Entry.parse_enough (depth) ((Tree.codes item).length + 1) ⟨item, false⟩
      (by dsimp only; omega) (Nat.lt_succ_self _)
    rw [Item.read, complete, complete, same]
  have whole (entries : List Entry) :=
    listedFrom_eq_ok (Entry.stays_parse depth) lists (content.length + 1) (Nat.lt_succ_self _)
      entries ⟨[], false⟩
  rw [items_eq_ok, mapM_eq_ok_of_bind alone]
  refine exists_congr fun entries => and_congr_left fun _ => ?_
  rw [read_group_eq_list]
  exact (whole entries).trans (and_iff_left rfl)

end Form

/-! ## Texts -/

namespace Parser

end Parser

/-- A text says what its spelling does. -/
def TextLiteral.Spelled (text : TextLiteral) : Prop :=
  TextLiteral.value? text.spelling = some text.value

/-- If a value is a text, it says what its spelling does. -/
def Literal.Spelled (given : Literal) : Prop := ∀ text, given = .text text → text.Spelled

/-- If an entry has a text for its value, that says what its spelling does. -/
def Entry.Spelled (entry : Entry) : Prop :=
  ∀ path given, entry = .item (.value path given) → given.Spelled

end Wireform.Derive
