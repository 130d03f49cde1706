import Mathlib.Data.List.Basic
import Wireform.Packet.Name

/-!
# Identifiers of conventional names

The identifier that a packet has by default is found in two steps: the arguments and the path are
taken off the name of its type, and what remains is written in lowercase with underscores. For names
as types are conventionally given them nothing is lost in the second step that tells two of them
apart, because every underscore stands where a capital was.

Paths can hold anything but an opening angle bracket, and arguments anything at all, colons and
brackets included. Nothing is said of names with letters beyond ASCII: some capitals have no lowercase
form there, and one has a form of two characters.
-/

namespace Wireform.Packet

open Text.LetterCase

/-! ## Without path and arguments -/

/-- A double colon occurs wherever it stands. -/
theorem hasPath_append (path name : List Char) : hasPath (path ++ ':' :: ':' :: name) = true := by
  induction path with
  | nil => rfl
  | cons first rest inductionHypothesis =>
      rw [List.cons_append]
      unfold hasPath
      split
      · rfl
      · next same => cases same; exact inductionHypothesis
      · next same => cases same

/-- A colon in front of a text without colons makes no double colon. -/
theorem hasPath_cons (first : Char) {name : List Char} (plain : ':' ∉ name) :
    hasPath (first :: name) = false := by
  induction name generalizing first with
  | nil => simp [hasPath]
  | cons next rest inductionHypothesis =>
      have apart : ':' ≠ next ∧ ':' ∉ rest := by simpa using plain
      unfold hasPath
      split
      · next same => cases same; exact absurd rfl apart.1
      · next same => cases same; exact inductionHypothesis next apart.2
      · rfl

/-- What follows the last double colon is the part without colons. -/
theorem afterPath_append (path : List Char) {name : List Char} (plain : ':' ∉ name) :
    afterPath (path ++ ':' :: ':' :: name) = name := by
  induction path with
  | nil => simp [afterPath, hasPath_cons ':' plain]
  | cons first rest inductionHypothesis =>
      rw [List.cons_append]
      unfold afterPath
      rw [if_pos (hasPath_append rest name), inductionHypothesis]

/-! ## Names in ASCII -/

/-- The first run holds the capitals of ASCII, and all others lie beyond. -/
theorem lowercase?_low {char : Char} (low : char.toNat < 128) :
    lowercase? char = if (⟨0x41, 0x5A, 1, 32⟩ : Run).contains char
      then some [Char.ofNat (char.toNat + 32)] else none := by
  have undotted : char ≠ dottedCapitalI := by
    rintro rfl
    exact absurd low (by decide)
  have beyond : ∀ run ∈ runs.tail, 128 ≤ run.first := by decide +kernel
  have absent : runs.tail.find? (fun run => run.contains char) = none := by
    rw [List.find?_eq_none]
    intro run among
    have far := beyond run among
    simp only [Run.contains, Bool.and_eq_true, decide_eq_true_eq]
    omega
  have split : runs = ⟨0x41, 0x5A, 1, 32⟩ :: runs.tail := rfl
  rw [lowercase?, if_neg undotted, split, List.find?_cons, absent]
  cases (⟨0x41, 0x5A, 1, 32⟩ : Run).contains char <;> rfl

/-- In ASCII the capitals are the letters from A to Z, and their lowercase forms are as usual. -/
theorem lowercase?_ascii {char : Char} (low : char.toNat < 128) :
    lowercase? char = if char.isUpper then some [char.toLower] else none := by
  have known : ∀ number < 128,
      (if (⟨0x41, 0x5A, 1, 32⟩ : Run).contains (Char.ofNat number)
        then some [Char.ofNat ((Char.ofNat number).toNat + 32)] else none) =
      if (Char.ofNat number).isUpper then some [(Char.ofNat number).toLower] else none := by
    decide +kernel
  have same := known char.toNat low
  rw [Char.ofNat_toNat] at same
  rw [lowercase?_low low, same]

/-- Letters are capital or small, and what is no letter is a digit. -/
theorem isAlphanum_iff (char : Char) : char.isAlphanum = true ↔
    (char.isUpper = true ∨ char.isLower = true) ∨ char.isDigit = true :=
  Bool.or_eq_true_iff.trans (or_congr_left Bool.or_eq_true_iff)

/-- Letters and digits are ASCII characters. -/
theorem toNat_lt_of_isAlphanum {char : Char} (ordinary : char.isAlphanum = true) :
    char.toNat < 128 := by
  have bounded (last : Char) (small : last.toNat < 128) (below : char.val ≤ last.val) :
      char.toNat < 128 :=
    Nat.lt_of_le_of_lt (UInt32.le_iff_toNat_le.mp below) small
  obtain (capital | small) | digit := (isAlphanum_iff char).mp ordinary
  · exact bounded 'Z' (by decide) (of_decide_eq_true capital).2
  · exact bounded 'z' (by decide) (of_decide_eq_true (Bool.and_eq_true_iff.mp small).2)
  · exact bounded '9' (by decide) (of_decide_eq_true (Bool.and_eq_true_iff.mp digit).2)

/-- A capital of ASCII in lowercase is a letter of which the capital can be told. -/
theorem toUpper_toLower {char : Char} (ordinary : char.isAlphanum = true)
    (capital : char.isUpper = true) :
    char.toLower.toUpper = char ∧ char.toLower.isLower = true := by
  have ascii : ∀ number < 128, (Char.ofNat number).isUpper = true →
      (Char.ofNat number).toLower.toUpper = Char.ofNat number ∧
        (Char.ofNat number).toLower.isLower = true := by
    decide +kernel
  have known := ascii char.toNat (toNat_lt_of_isAlphanum ordinary)
  rw [Char.ofNat_toNat] at known
  exact known capital

/-- In names of letters and digits an underscore comes before the capitals and nothing else. -/
theorem lowered_ordinary {char : Char} (ordinary : char.isAlphanum = true) :
    lowered char = if char.isUpper then ['_', char.toLower] else [char] := by
  rw [lowered, lowercase?_ascii (toNat_lt_of_isAlphanum ordinary)]
  cases char.isUpper <;> rfl

/-! ## Identifiers -/

/-- A name as types are given it by convention: a capital, and letters and digits after it. -/
structure Conventional (name : List Char) : Prop where
  capital : name.head?.any Char.isUpper = true
  ordinary : ∀ char ∈ name, char.isAlphanum = true

/-- A text that was written with underscores before capitals, with capitals in their place. -/
def capitalized : List Char → List Char
  | '_' :: char :: rest => char.toUpper :: capitalized rest
  | char :: rest => char :: capitalized rest
  | [] => []

/-- The name of which a text is the form in lowercase. -/
def unsnaked : List Char → List Char
  | first :: rest => first.toUpper :: capitalized rest
  | [] => []

/-- What was written with underscores is told from it. -/
theorem capitalized_lowered {name : List Char} (ordinary : ∀ char ∈ name, char.isAlphanum = true) :
    capitalized (name.flatMap lowered) = name := by
  induction name with
  | nil => rfl
  | cons first rest inductionHypothesis =>
      obtain ⟨letter, others⟩ := List.forall_mem_cons.mp ordinary
      rw [List.flatMap_cons, lowered_ordinary letter]
      cases capital : first.isUpper with
      | true =>
          simp [capitalized, (toUpper_toLower letter capital).1, inductionHypothesis others]
      | false =>
          have visible : first ≠ '_' := by
            rintro rfl
            exact absurd letter (by decide)
          simp [capitalized, visible, inductionHypothesis others]

/-- A conventional name in lowercase, with its first letter told apart. -/
theorem Conventional.snakeCase_eq {name : List Char} (conventional : Conventional name) :
    ∃ first rest, name = first :: rest ∧ first.isUpper = true ∧
      snakeCase name = first.toLower :: rest.flatMap lowered := by
  cases name with
  | nil => exact absurd conventional.capital (by decide)
  | cons first rest =>
      have capital : first.isUpper = true := conventional.capital
      have letter := conventional.ordinary first List.mem_cons_self
      have known := lowercase?_ascii (toNat_lt_of_isAlphanum letter)
      rw [if_pos capital] at known
      exact ⟨first, rest, rfl, capital, by simp [snakeCase, known]⟩

/-- A conventional name is told from its form in lowercase. -/
theorem unsnaked_snakeCase {name : List Char} (conventional : Conventional name) :
    unsnaked (snakeCase name) = name := by
  obtain ⟨first, rest, rfl, capital, same⟩ := conventional.snakeCase_eq
  obtain ⟨letter, others⟩ := List.forall_mem_cons.mp conventional.ordinary
  rw [same, unsnaked, (toUpper_toLower letter capital).1, capitalized_lowered others]

/-- Lowercase letters, digits and underscores are no capitals. -/
theorem lowercase?_of_small {char : Char}
    (small : char.isLower = true ∨ char.isDigit = true ∨ char = '_') : lowercase? char = none := by
  have low : char.toNat < 128 := by
    obtain lower | digit | rfl := small
    · exact toNat_lt_of_isAlphanum ((isAlphanum_iff char).mpr (.inl (.inr lower)))
    · exact toNat_lt_of_isAlphanum ((isAlphanum_iff char).mpr (.inr digit))
    · decide
  have other : ∀ number < 128, (Char.ofNat number).isLower = true ∨
      (Char.ofNat number).isDigit = true ∨ Char.ofNat number = '_' →
        (Char.ofNat number).isUpper = false := by
    decide +kernel
  have capital := other char.toNat low
  rw [Char.ofNat_toNat] at capital
  rw [lowercase?_ascii low, capital small, if_neg Bool.false_ne_true]

/-- A conventional name in lowercase has only lowercase letters, digits and underscores. -/
theorem Conventional.small {name : List Char} (conventional : Conventional name) :
    ∀ char ∈ snakeCase name, char.isLower = true ∨ char.isDigit = true ∨ char = '_' := by
  obtain ⟨first, rest, rfl, capital, same⟩ := conventional.snakeCase_eq
  obtain ⟨letter, others⟩ := List.forall_mem_cons.mp conventional.ordinary
  rw [same, List.forall_mem_cons]
  refine ⟨.inl (toUpper_toLower letter capital).2, ?_⟩
  intro char among
  obtain ⟨source, inside, own⟩ := List.mem_flatMap.mp among
  have ordinary := others source inside
  rw [lowered_ordinary ordinary] at own
  cases upper : source.isUpper with
  | true =>
      have either : char = '_' ∨ char = source.toLower := by simpa [upper] using own
      obtain rfl | rfl := either
      · exact .inr (.inr rfl)
      · exact .inl (toUpper_toLower ordinary upper).2
  | false =>
      have same : char = source := by simpa [upper] using own
      subst same
      obtain (capital | lower) | digit := (isAlphanum_iff char).mp ordinary
      · cases upper.symm.trans capital
      · exact .inl lower
      · exact .inr (.inl digit)

/-- What has no capitals is in lowercase already. -/
theorem snakeCase_of_small {text : List Char} (small : ∀ char ∈ text, lowercase? char = none) :
    snakeCase text = text := by
  cases text with
  | nil => rfl
  | cons first rest =>
      obtain ⟨front, others⟩ := List.forall_mem_cons.mp small
      have kept : ∀ text : List Char, (∀ char ∈ text, lowercase? char = none) →
          text.flatMap lowered = text := by
        intro text plain
        induction text with
        | nil => rfl
        | cons char more inductionHypothesis =>
            obtain ⟨own, further⟩ := List.forall_mem_cons.mp plain
            simp [lowered, own, inductionHypothesis further]
      simp [snakeCase, front, kept rest others]

/-- The name of a type as a program writes it out: a path, a conventional name, and arguments if the
    type has any. -/
structure TypeName where
  path : String
  name : String
  arguments : Option String
  plain : '<' ∉ path.toList
  conventional : Conventional name.toList

/-- The whole name as a text. -/
def TypeName.text (type : TypeName) : String :=
  type.path ++ "::" ++ type.name ++
    match type.arguments with
    | some given => "<" ++ given ++ ">"
    | none => ""

/-- Whatever the path and the arguments are, the name is left. -/
theorem TypeName.shortName_text (type : TypeName) :
    shortName type.text.toList = type.name.toList := by
  have absent : ∀ char, char.isAlphanum = false → char ∉ type.name.toList := by
    intro char other among
    rw [type.conventional.ordinary char among] at other
    cases other
  have colonless : ':' ∉ type.name.toList := absent ':' (by decide)
  have whole : type.text.toList.takeWhile (· != '<')
      = type.path.toList ++ ':' :: ':' :: type.name.toList := by
    have front : ∀ char ∈ type.path.toList ++ ':' :: ':' :: type.name.toList, (char != '<') = true := by
      intro char among
      simp only [bne_iff_ne]
      rintro rfl
      have bracketless := absent '<' (by decide)
      simp [type.plain, bracketless] at among
    have split : ∃ behind, type.text.toList
        = (type.path.toList ++ ':' :: ':' :: type.name.toList) ++ behind ∧
          behind.takeWhile (· != '<') = [] := by
      rcases type with ⟨path, name, _ | given, _, _⟩
      · exact ⟨[], by simp [text], rfl⟩
      · exact ⟨'<' :: (given.toList ++ ['>']), by simp [text], rfl⟩
    obtain ⟨behind, same, ended⟩ := split
    rw [same, List.takeWhile_append_of_pos front, ended, List.append_nil]
  rw [shortName, whole, afterPath_append _ colonless]

/-- The identifier that a type has by default is told from its name, and its name from the
    identifier: neither the path nor the arguments have a part in it. It has no capitals, it does not
    start with an underscore, and it is in lowercase for good. -/
theorem defaultId_conventional (type other : TypeName) :
    defaultId type.text = String.ofList (snakeCase type.name.toList) ∧
      (defaultId type.text = defaultId other.text ↔ type.name = other.name) ∧
      (∀ char ∈ (defaultId type.text).toList, lowercase? char = none) ∧
      (defaultId type.text).toList.head? ≠ some '_' ∧
      snakeCase (defaultId type.text).toList = (defaultId type.text).toList := by
  have told : ∀ type : TypeName, (defaultId type.text).toList = snakeCase type.name.toList := by
    intro type
    rw [defaultId, type.shortName_text, String.toList_ofList]
  have plain : ∀ char ∈ (defaultId type.text).toList, lowercase? char = none := by
    intro char among
    rw [told] at among
    exact lowercase?_of_small (type.conventional.small char among)
  refine ⟨?_, ?_, plain, ?_, snakeCase_of_small plain⟩
  · rw [← told, String.ofList_toList]
  · constructor
    · intro same
      have alike : snakeCase type.name.toList = snakeCase other.name.toList := by
        rw [← told, ← told, same]
      have back := congrArg unsnaked alike
      rw [unsnaked_snakeCase type.conventional, unsnaked_snakeCase other.conventional] at back
      exact String.toList_injective back
    · intro same
      rw [defaultId, defaultId, type.shortName_text, other.shortName_text, same]
  · obtain ⟨first, rest, known, capital, same⟩ := type.conventional.snakeCase_eq
    have letter := type.conventional.ordinary first (by rw [known]; exact List.mem_cons_self)
    have lower := (toUpper_toLower letter capital).2
    rw [told, same, List.head?_cons]
    intro underscore
    rw [Option.some.inj underscore] at lower
    exact absurd lower (by decide)

/-- A type with arguments in which there are paths and further arguments. -/
def nestedPing : TypeName where
  path := "app::net"
  name := "HTTPPing"
  arguments := some "Vec<a::B>, <C as d::E>::F"
  plain := by decide
  conventional := ⟨by decide, List.all_eq_true.mp (by decide)⟩

/-- A type without arguments, the name of which differs from that of the other one in case only. -/
def shortPing : TypeName where
  path := "app"
  name := "HttpPing"
  arguments := none
  plain := by decide
  conventional := ⟨by decide, List.all_eq_true.mp (by decide)⟩

/-- Two pings that are told apart by nothing but where their names have capitals have identifiers of
    their own. -/
theorem defaultId_conventional_pings :
    nestedPing.text = "app::net::HTTPPing<Vec<a::B>, <C as d::E>::F>" ∧
      shortPing.text = "app::HttpPing" ∧
      defaultId nestedPing.text = "h_t_t_p_ping" ∧ defaultId shortPing.text = "http_ping" ∧
      defaultId nestedPing.text ≠ defaultId shortPing.text ∧
      snakeCase (defaultId nestedPing.text).toList = (defaultId nestedPing.text).toList := by
  obtain ⟨long, apart, -, -, lasting⟩ := defaultId_conventional nestedPing shortPing
  obtain ⟨short, -⟩ := defaultId_conventional shortPing nestedPing
  refine ⟨by decide, by decide, long.trans (by decide +kernel), short.trans (by decide +kernel),
    fun same => ?_, lasting⟩
  exact absurd (apart.mp same) (by decide)

end Wireform.Packet
