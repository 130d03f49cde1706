import Mathlib.Tactic.SplitIfs
import Wireform.Proofs.Requests

/-!
# Readings that go no further than a comma

The list of an attribute is read from left to right, and what an item is can be told without looking
past the comma that ends it. That a reading goes no further is shown once for each way in which
readings are put together, and holds then for whatever is made of them.

A reading that is repeated is given as many steps as there are trees. Every round of it takes a tree,
so more steps make no difference, and the trees behind an item give it none that it could use.
-/

namespace Wireform.Derive

variable {α β : Type}

/-! ## Commas -/

/-- A tree is a comma, whether it is joined to what follows or not. -/
def Tree.IsComma : Tree → Prop
  | .atom (.mark char _) => char = ','
  | _ => False

/-- Trees without commas among them. Those in a group are not among them. -/
def Plain (trees : List Tree) : Prop := ∀ tree ∈ trees, ¬ tree.IsComma

/-- Trees that can stand behind an item: none, or a comma first. -/
def Ends (tail : List Tree) : Prop := ∀ first ∈ tail.head?, first.IsComma

/-- Trees behind an item are none, or a comma and others. -/
theorem Ends.cases {tail : List Tree} (ends : Ends tail) :
    tail = [] ∨ ∃ joined others, tail = .atom (.mark ',' joined) :: others := by
  cases tail with
  | nil => exact .inl rfl
  | cons first others =>
      have comma : first.IsComma := ends first rfl
      match first, comma with
      | .atom (.mark _ joined), rfl => exact .inr ⟨joined, others, rfl⟩

/-- What is left of trees without commas has none either. -/
theorem Plain.suffix {trees rest : List Tree} (plain : Plain trees) (left : rest <:+ trees) :
    Plain rest :=
  fun tree among => plain tree (left.subset among)

namespace Cursor

/-- A place with more trees behind those that are left. -/
def followed (tail : List Tree) (here : Cursor) : Cursor := { here with rest := here.rest ++ tail }

/-- Joined marks other than commas are told without what stands behind an item. -/
theorem dropMarks?_append {chars : List Char} (other : ',' ∉ chars) (trees : List Tree)
    {tail : List Tree} (ends : Ends tail) :
    dropMarks? chars (trees ++ tail) = (dropMarks? chars trees).map (· ++ tail) := by
  induction chars generalizing trees with
  | nil => simp [dropMarks?]
  | cons char more inductionHypothesis =>
      obtain ⟨different, later⟩ : char ≠ ',' ∧ ',' ∉ more := by
        simpa [eq_comm] using other
      match trees with
      | [] =>
          obtain rfl | ⟨joined, others, rfl⟩ := ends.cases
          · simp [dropMarks?]
          · cases more with
            | nil => simp [dropMarks?, different.symm]
            | cons next more => cases joined <;> simp [dropMarks?, different.symm]
      | .atom (.mark actual joined) :: rest =>
          cases more with
          | nil =>
              simp only [List.cons_append, dropMarks?]
              split <;> rfl
          | cons next more =>
              cases joined with
              | false => rfl
              | true =>
                  simp only [List.cons_append, dropMarks?, inductionHypothesis later]
                  split <;> rfl
      | .atom (.word _) :: _ => cases more <;> rfl
      | .atom (.literal _) :: _ => cases more <;> rfl
      | .group _ _ :: _ => cases more <;> rfl

/-- What follows joined marks is what is left of the list. -/
theorem suffix_of_dropMarks? {chars : List Char} {trees rest : List Tree}
    (dropped : dropMarks? chars trees = some rest) : rest <:+ trees := by
  fun_induction dropMarks? chars trees with
  | case1 trees =>
      cases dropped
      exact List.suffix_refl _
  | case2 char actual joined trees =>
      cases dropped
      exact List.suffix_cons _ _
  | case3 => cases dropped
  | case4 more actual trees _ inductionHypothesis =>
      exact (inductionHypothesis dropped).trans (List.suffix_cons _ _)
  | case5 => cases dropped
  | case6 => cases dropped

/-- A literal is told without what stands behind an item. -/
theorem dropLiteral?_append (trees : List Tree) {tail : List Tree} (ends : Ends tail) :
    dropLiteral? (trees ++ tail)
      = (dropLiteral? trees).map fun found => (found.1, found.2 ++ tail) := by
  obtain rfl | ⟨joined, others, rfl⟩ := ends.cases
  · simp
  · match trees with
    | [] => simp [dropLiteral?]
    | .atom (.literal _) :: _ => rfl
    | .atom (.word _) :: _ =>
        simp only [List.cons_append, dropLiteral?]
        split <;> rfl
    | .group _ _ :: _ => rfl
    | [.atom (.mark char _)] =>
        by_cases minus : char = '-' <;> simp [dropLiteral?, minus]
    | .atom (.mark char _) :: .atom (.literal _) :: _ =>
        by_cases minus : char = '-'
        · subst minus
          simp only [List.cons_append, dropLiteral?]
          split <;> rfl
        · simp [dropLiteral?, minus]
    | .atom (.mark char _) :: .atom (.word _) :: _ => simp [dropLiteral?]
    | .atom (.mark char _) :: .atom (.mark _ _) :: _ => simp [dropLiteral?]
    | .atom (.mark char _) :: .group _ _ :: _ => simp [dropLiteral?]

/-- What follows a literal is what is left of the list. -/
theorem suffix_of_dropLiteral? {trees rest : List Tree} {code : Code}
    (dropped : dropLiteral? trees = some (code, rest)) : rest <:+ trees := by
  unfold dropLiteral? at dropped
  split at dropped
  · cases dropped
    exact List.suffix_cons _ _
  · split at dropped
    · cases dropped
      exact List.suffix_cons _ _
    · cases dropped
  · split at dropped
    · cases dropped
      exact (List.suffix_cons _ _).trans (List.suffix_cons _ _)
    · cases dropped
  · cases dropped

/-- A test of a place that does not look past the comma behind an item. -/
def Blind {γ : Type} (test : Cursor → γ) : Prop :=
  ∀ trees tail leftOver, Ends tail → test ⟨trees ++ tail, leftOver⟩ = test ⟨trees, leftOver⟩

theorem blind_hasMark {text : String} (other : ',' ∉ text.toList) : Blind (hasMark text) := by
  intro trees tail leftOver ends
  simp [hasMark, dropMarks?_append other trees ends]

theorem blind_hasLiteral : Blind hasLiteral := by
  intro trees tail leftOver ends
  simp [hasLiteral, dropLiteral?_append trees ends]

/-- A test of the first tree alone does not look further, if it takes a comma for the end. -/
theorem blind_of_first (test : Cursor → Bool)
    (first : ∀ tree rest leftOver, test ⟨tree :: rest, leftOver⟩ = test ⟨[tree], leftOver⟩)
    (comma : ∀ joined leftOver, test ⟨[.atom (.mark ',' joined)], leftOver⟩ = test ⟨[], leftOver⟩) :
    Blind test := by
  intro trees tail leftOver ends
  cases trees with
  | nil =>
      obtain rfl | ⟨joined, others, rfl⟩ := ends.cases
      · rfl
      · exact (first _ _ _).trans (comma joined leftOver)
  | cons tree rest => exact (first _ _ _).trans (first _ _ _).symm

theorem blind_hasAnyWord : Blind hasAnyWord :=
  blind_of_first _ (fun tree _ _ => by obtain (_ | _ | _) | _ := tree <;> rfl) fun _ _ => rfl

theorem blind_hasWord (word : String) : Blind (hasWord word) :=
  blind_of_first _ (fun tree _ _ => by obtain (_ | _ | _) | _ := tree <;> rfl) fun _ _ => rfl

theorem blind_hasGroup (delimiter : Delimiter) : Blind (hasGroup delimiter) :=
  blind_of_first _ (fun tree _ _ => by obtain (_ | _ | _) | _ := tree <;> rfl) fun _ _ => rfl

theorem blind_hasWordOf (words : List String) : Blind (hasWordOf words) := by
  intro trees tail leftOver ends
  simp [hasWordOf, blind_hasWord _ trees tail leftOver ends]

/-- Behind a tree that starts no lifetime, the next place is the one after it. -/
theorem next_cons {tree : Tree} (other : ∀ joined, tree ≠ .atom (.mark '\'' joined))
    (rest : List Tree) (leftOver : Bool) : next ⟨tree :: rest, leftOver⟩ = ⟨rest, leftOver⟩ := by
  unfold next
  split <;> simp_all

theorem blind_namesTruth : Blind namesTruth := by
  intro trees tail leftOver ends
  have truth := blind_hasWordOf ["true", "false"] trees tail leftOver ends
  match trees with
  | .atom (.word word) :: rest =>
      have follows := blind_hasMark (by decide : ',' ∉ "=".toList) rest tail leftOver ends
      rw [namesTruth, namesTruth, truth, List.cons_append, next_cons (by simp), next_cons (by simp),
        follows]
  | [] =>
      rw [namesTruth, namesTruth, truth]
      rfl
  | .atom (.mark _ _) :: _ =>
      rw [namesTruth, namesTruth, truth]
      rfl
  | .atom (.literal _) :: _ =>
      rw [namesTruth, namesTruth, truth]
      rfl
  | .group _ _ :: _ =>
      rw [namesTruth, namesTruth, truth]
      rfl

/-- Two colons are two trees. -/
theorem exists_of_hasMark_colons {trees : List Tree} {leftOver : Bool}
    (standing : hasMark "::" ⟨trees, leftOver⟩ = true) :
    ∃ joined rest, trees = .atom (.mark ':' true) :: .atom (.mark ':' joined) :: rest := by
  match trees with
  | .atom (.mark first true) :: .atom (.mark second joined) :: rest =>
      obtain ⟨rfl, rfl⟩ : first = ':' ∧ second = ':' := by
        by_cases known : first = ':' <;> simp_all [hasMark, dropMarks?]
      exact ⟨joined, rest, rfl⟩
  | [] => simp [hasMark, dropMarks?] at standing
  | .atom (.word _) :: _ => simp [hasMark, dropMarks?] at standing
  | .atom (.literal _) :: _ => simp [hasMark, dropMarks?] at standing
  | .group _ _ :: _ => simp [hasMark, dropMarks?] at standing
  | .atom (.mark _ false) :: _ => simp [hasMark, dropMarks?] at standing
  | [.atom (.mark _ true)] => simp [hasMark, dropMarks?] at standing
  | .atom (.mark _ true) :: .atom (.word _) :: _ => simp [hasMark, dropMarks?] at standing
  | .atom (.mark _ true) :: .atom (.literal _) :: _ => simp [hasMark, dropMarks?] at standing
  | .atom (.mark _ true) :: .group _ _ :: _ => simp [hasMark, dropMarks?] at standing

/-- That a path starts at the root is told by its first three trees, none of which is a comma. -/
theorem blind_rooted : Blind fun here => here.hasMark "::" && here.next.next.hasAnyWord := by
  intro trees tail leftOver ends
  dsimp only
  rw [blind_hasMark (by decide : ',' ∉ "::".toList) trees tail leftOver ends]
  cases standing : hasMark "::" ⟨trees, leftOver⟩ with
  | false => rfl
  | true =>
      obtain ⟨joined, rest, rfl⟩ := exists_of_hasMark_colons standing
      simp only [List.cons_append]
      rw [next_cons (by simp), next_cons (by simp), next_cons (by simp), next_cons (by simp),
        blind_hasAnyWord rest tail leftOver ends]

end Cursor

/-! ## Readings that stay within an item -/

namespace Parser

/-- A reading goes on in its list, leaves nothing over in groups, and does not look past the comma
    behind an item. -/
structure Stays (reading : Parser α) : Prop where
  onward : ∀ here found after, reading here = .ok (found, after) →
    after.rest <:+ here.rest ∧ after.leftOver = here.leftOver
  within : ∀ trees tail leftOver found stop, Plain trees → Ends tail →
    (reading ⟨trees ++ tail, leftOver⟩ = .ok (found, stop) ↔
      ∃ after, reading ⟨trees, leftOver⟩ = .ok (found, after) ∧ stop = after.followed tail)

/-- What is done can depend on the place. -/
theorem get_bind (next : Cursor → Parser α) (here : Cursor) :
    ((get : Parser Cursor) >>= next) here = next here here := rfl

/-- A reading comes to an end if its first step does and what follows from where that left off. -/
theorem bind_apply_eq_ok (first : Parser α) (next : α → Parser β) (here : Cursor)
    (result : β × Cursor) : (first >>= next) here = .ok result ↔
      ∃ found after, first here = .ok (found, after) ∧ next found after = .ok result := by
  refine (bind_eq_ok (first here) (fun pair => next pair.1 pair.2) result).trans ?_
  rw [Prod.exists]

theorem stays_pure (value : α) : Stays (pure value : Parser α) where
  onward := by
    rintro here _ _ ⟨⟩
    exact ⟨List.suffix_refl _, rfl⟩
  within := by
    intro trees tail leftOver found stop _ _
    constructor
    · rintro ⟨⟩
      exact ⟨_, rfl, rfl⟩
    · rintro ⟨_, ⟨⟩, rfl⟩
      rfl

/-- What fails everywhere stays. -/
theorem stays_of_fails (reading : Parser α) (fails : ∀ here, ∃ fault, reading here = .error fault) :
    Stays reading where
  onward := by
    intro here found after done
    obtain ⟨fault, failed⟩ := fails here
    cases failed.symm.trans done
  within := by
    intro trees tail leftOver found stop _ _
    obtain ⟨fault, failed⟩ := fails ⟨trees ++ tail, leftOver⟩
    obtain ⟨other, refused⟩ := fails ⟨trees, leftOver⟩
    simp [failed, refused]

theorem stays_refuse (account : String) : Stays (refuse account : Parser α) :=
  stays_of_fails _ fun _ => ⟨_, rfl⟩

/-- Readings that stay can follow one another. -/
theorem stays_bind {first : Parser α} {next : α → Parser β} (stays : Stays first)
    (follows : ∀ found, Stays (next found)) : Stays (first >>= next) where
  onward := by
    intro here found after done
    obtain ⟨between, place, begun, ended⟩ := (bind_apply_eq_ok _ _ _ _).mp done
    obtain ⟨left, same⟩ := stays.onward _ _ _ begun
    obtain ⟨further, still⟩ := (follows between).onward _ _ _ ended
    exact ⟨further.trans left, still.trans same⟩
  within := by
    intro trees tail leftOver found stop plain ends
    rw [bind_apply_eq_ok]
    -- what the first reading leaves has no commas either, so the second can rely on the same
    constructor
    · rintro ⟨between, place, begun, ended⟩
      obtain ⟨after, read, rfl⟩ := (stays.within _ _ _ _ _ plain ends).mp begun
      have left := (stays.onward _ _ _ read).1
      obtain ⟨last, done, rfl⟩ :=
        ((follows between).within _ _ _ _ _ (plain.suffix left) ends).mp ended
      exact ⟨last, (bind_apply_eq_ok _ _ _ _).mpr ⟨_, _, read, done⟩, rfl⟩
    · rintro ⟨last, read, rfl⟩
      obtain ⟨between, place, begun, ended⟩ := (bind_apply_eq_ok _ _ _ _).mp read
      have left := (stays.onward _ _ _ begun).1
      exact ⟨_, _, (stays.within _ _ _ _ _ plain ends).mpr ⟨place, begun, rfl⟩,
        ((follows between).within _ _ _ _ _ (plain.suffix left) ends).mpr ⟨last, ended, rfl⟩⟩

/-- Which reading is done can depend on what stands at a place. -/
theorem stays_look (choose : Cursor → Parser α) (stays : ∀ here, Stays (choose here))
    (blind : Cursor.Blind choose) : Stays (get >>= choose) where
  onward := fun here => (stays here).onward here
  within := by
    intro trees tail leftOver found stop plain ends
    have same : (get >>= choose) ⟨trees ++ tail, leftOver⟩
        = choose ⟨trees, leftOver⟩ ⟨trees ++ tail, leftOver⟩ :=
      congrFun (blind trees tail leftOver ends) _
    rw [same]
    exact (stays _).within trees tail leftOver found stop plain ends

theorem stays_sees {test : Cursor → Bool} (blind : Cursor.Blind test) : Stays (sees test) :=
  stays_look (fun here => pure (test here)) (fun _ => stays_pure _) fun trees tail leftOver ends =>
    congrArg pure (blind trees tail leftOver ends)

/-- A reading of what stands first stays, if that is told without looking past a comma. -/
theorem stays_of_drop (reading : Parser α) (drop : List Tree → Option (α × List Tree))
    (fault : Cursor → Fault)
    (reads : ∀ here, reading here = (drop here.rest).elim (.error (fault here))
      fun found => .ok (found.1, { here with rest := found.2 }))
    (suffix : ∀ trees found rest, drop trees = some (found, rest) → rest <:+ trees)
    (append : ∀ trees tail, Ends tail →
      drop (trees ++ tail) = (drop trees).map fun found => (found.1, found.2 ++ tail)) :
    Stays reading where
  onward := by
    intro here found after done
    rw [reads] at done
    cases dropped : drop here.rest with
    | none =>
        rw [dropped] at done
        cases done
    | some pair =>
        rw [dropped] at done
        cases done
        exact ⟨suffix _ _ _ dropped, rfl⟩
  within := by
    intro trees tail leftOver found stop _ ends
    rw [reads, reads, append trees tail ends]
    cases drop trees with
    | none => simp
    | some pair =>
        constructor
        · rintro ⟨⟩
          exact ⟨_, rfl, rfl⟩
        · rintro ⟨_, ⟨⟩, rfl⟩
          rfl

theorem stays_mark {text : String} (other : ',' ∉ text.toList) : Stays (mark text) := by
  let code := text.toList.map fun char => String.ofList [char]
  refine stays_of_drop (mark text)
    (fun trees => (Cursor.dropMarks? text.toList trees).map fun rest => (code, rest))
    (fun _ => .unreadable ("expected " ++ cited text)) ?_ ?_ ?_
  · intro here
    rw [mark, get_bind]
    cases Cursor.dropMarks? text.toList here.rest <;> rfl
  · intro trees found rest dropped
    obtain ⟨_, known, ⟨⟩⟩ := Option.map_eq_some_iff.mp dropped
    exact Cursor.suffix_of_dropMarks? known
  · intro trees tail ends
    rw [Cursor.dropMarks?_append other trees ends, Option.map_map, Option.map_map]
    rfl

theorem stays_literal : Stays literal := by
  refine stays_of_drop literal Cursor.dropLiteral?
    (fun here => .unreadable
      (if here.atEnd then "unexpected end of input, " ++ "expected literal" else "expected literal"))
    ?_ (fun _ _ _ => Cursor.suffix_of_dropLiteral?) fun trees tail =>
      Cursor.dropLiteral?_append trees
  intro here
  rw [literal, get_bind]
  cases Cursor.dropLiteral? here.rest <;> rfl

/-- The word that stands first, and what follows it. -/
def dropWord? : List Tree → Option (String × List Tree)
  | .atom (.word word) :: rest => some (word, rest)
  | _ => none

theorem stays_anyWord : Stays anyWord := by
  refine stays_of_drop anyWord dropWord?
    (fun here => .unreadable
      (if here.atEnd then "unexpected end of input, " ++ "expected ident" else "expected ident"))
    ?_ ?_ ?_
  · rintro ⟨_ | ⟨(_ | _ | _) | _, _⟩, _⟩ <;> rfl
  · intro trees found rest dropped
    match trees, dropped with
    | .atom (.word _) :: _, rfl => exact List.suffix_cons _ _
  · intro trees tail ends
    match trees with
    | [] => obtain rfl | ⟨joined, others, rfl⟩ := ends.cases <;> rfl
    | .atom (.word _) :: _ => rfl
    | .atom (.literal _) :: _ => rfl
    | .atom (.mark _ _) :: _ => rfl
    | .group _ _ :: _ => rfl

theorem stays_markIf {text : String} (other : ',' ∉ text.toList) : Stays (markIf text) :=
  stays_bind (stays_sees (Cursor.blind_hasMark other)) fun standing => by
    cases standing
    · exact stays_pure _
    · exact stays_mark other

/-! ## Fuel -/

/-- Readings that agree wherever what precedes them comes to an end agree as a whole. -/
theorem bind_congr_of_eq_ok {first : Parser α} {next other : α → Parser β} {here : Cursor}
    (same : ∀ found after, first here = .ok (found, after) → next found after = other found after) :
    (first >>= next) here = (first >>= other) here := by
  change (first here >>= fun pair => next pair.1 pair.2)
    = (first here >>= fun pair => other pair.1 pair.2)
  cases done : first here with
  | error fault => rfl
  | ok pair => exact same _ _ done

/-- Readings that agree at a place agree with what follows them. -/
theorem bind_congr_left {first other : Parser α} (next : α → Parser β) {here : Cursor}
    (same : first here = other here) : (first >>= next) here = (other >>= next) here := by
  change (first here >>= fun pair => next pair.1 pair.2) = _
  rw [same]
  rfl

/-- What is seen at a place decides about what follows. -/
theorem sees_bind (test : Cursor → Bool) (next : Bool → Parser α) (here : Cursor) :
    (sees test >>= next) here = next (test here) here := rfl

/-- Reading with as many steps as there are trees stays, if no number of steps leaves the item and
    more steps than trees make no difference. -/
theorem stays_steps {reading : Nat → Parser α} (stays : ∀ fuel, Stays (reading fuel))
    (enough : ∀ fuel here, here.rest.length < fuel →
      reading fuel here = reading (here.rest.length + 1) here) : Stays (steps >>= reading) where
  onward := fun here => (stays _).onward here
  within := by
    intro trees tail leftOver found stop plain ends
    have more : trees.length < (trees ++ tail).length + 1 := by
      rw [List.length_append]
      omega
    have short : (steps >>= reading) ⟨trees, leftOver⟩
        = reading ((trees ++ tail).length + 1) ⟨trees, leftOver⟩ :=
      (enough _ ⟨trees, leftOver⟩ more).symm
    rw [short]
    exact (stays _).within trees tail leftOver found stop plain ends

/-- A word is one tree. -/
theorem length_of_anyWord {here after : Cursor} {word : String}
    (read : anyWord here = .ok (word, after)) : after.rest.length < here.rest.length := by
  obtain ⟨trees, leftOver⟩ := here
  match trees, read with
  | .atom (.word _) :: _, rfl => simp

end Parser

open Wireform.Derive.Parser

namespace Path

variable {test : Cursor → Bool}

theorem stays_parseFrom (blind : Cursor.Blind test) (fuel : Nat) :
    Stays (parseFrom test fuel) := by
  induction fuel with
  | zero => exact stays_pure _
  | succ fuel inductionHypothesis =>
      apply stays_bind (stays_sees blind)
      rintro (_ | _)
      · exact stays_pure _
      · apply stays_bind stays_anyWord
        intro first
        apply stays_bind (stays_sees (Cursor.blind_hasMark (by decide)))
        rintro (_ | _)
        · exact stays_pure _
        · exact stays_bind (stays_mark (by decide)) fun _ =>
            stays_bind inductionHypothesis fun _ => stays_pure _

/-- Each name of a path takes a tree, so any number of steps beyond that of the trees is enough. -/
theorem parseFrom_enough (fuel other : Nat) (here : Cursor) (enough : here.rest.length < fuel)
    (more : here.rest.length < other) : parseFrom test fuel here = parseFrom test other here := by
  -- on the steps, at every place at once: a name has been taken before they are asked for again
  induction fuel generalizing other here with
  | zero => omega
  | succ fuel inductionHypothesis =>
      obtain ⟨other, rfl⟩ : ∃ less, other = less + 1 := ⟨other - 1, by omega⟩
      rw [parseFrom, parseFrom, sees_bind, sees_bind]
      cases test here with
      | false => rfl
      | true =>
          apply bind_congr_of_eq_ok
          intro first second read
          have shorter := length_of_anyWord read
          rw [sees_bind, sees_bind]
          cases second.hasMark "::" with
          | false => rfl
          | true =>
              apply bind_congr_of_eq_ok
              intro _ third marked
              have left := ((stays_mark (by decide)).onward _ _ _ marked).1.length_le
              exact bind_congr_left _ (inductionHypothesis other third (by omega) (by omega))

theorem stays_parseWith (blind : Cursor.Blind test) : Stays (parseWith test) := by
  apply stays_bind (stays_markIf (by decide))
  intro root
  rw [← bind_assoc]
  apply stays_bind (stays_steps (stays_parseFrom blind) fun fuel here enough =>
    parseFrom_enough fuel _ here enough (Nat.lt_succ_self _))
  intro names
  split
  · exact stays_refuse _
  · exact stays_refuse _
  · exact stays_pure _

end Path

end Wireform.Derive
