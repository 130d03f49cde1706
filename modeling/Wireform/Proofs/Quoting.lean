import Mathlib.Data.List.TakeDrop
import Wireform.Derive.Literal

/-!
# Texts are read back from their literals

The literal of a text is made for the generated code, and the value of a literal is computed where
attributes are read. The two are inverse to each other: whatever a text holds, quotation marks,
line breaks, zeros and invisible characters included, its literal says that text and nothing else.
-/

namespace Wireform.Derive.TextLiteral

open Text Text.Quoted

/-! ## Numbers -/

/-- A digit is read for the number that it was made for, and it is none of the marks around numbers. -/
theorem value?_digitChar : ∀ number < 16, Hex.value? number.digitChar = some number ∧
    number.digitChar ≠ '_' ∧ number.digitChar ≠ '\x7d' := by
  decide

/-- One more digit at the end counts once, and those before it sixteen times. -/
theorem codeOf_append (digits : List Char) (number digit : Nat) (small : digit < 16)
    (known : codeOf digits = some number) :
    codeOf (digits ++ [digit.digitChar]) = some (16 * number + digit) := by
  obtain ⟨value, named, -⟩ := value?_digitChar digit small
  rw [codeOf, List.foldlM_append]
  change (codeOf digits >>= _) = _
  rw [known]
  simp [value, named]

/-- A number is read from its digits. -/
theorem codeOf_toDigits (number : Nat) : codeOf (Nat.toDigits 16 number) = some number := by
  induction number using Nat.strongRecOn with
  | _ number inductionHypothesis =>
      rw [Nat.toDigits_eq_if (by decide)]
      by_cases small : number < 16
      · rw [if_pos small]
        simpa using codeOf_append [] 0 number small rfl
      · rw [if_neg small]
        have smaller : number / 16 < number := by omega
        have known := codeOf_append _ _ (number % 16) (by omega)
          (inductionHypothesis (number / 16) smaller)
        rw [known, Nat.div_add_mod]

/-- A number's digits do not hold the bracket that ends them. -/
theorem ne_of_mem_toDigits (number : Nat) : ∀ digit ∈ Nat.toDigits 16 number, digit ≠ '\x7d' := by
  induction number using Nat.strongRecOn with
  | _ number inductionHypothesis =>
      rw [Nat.toDigits_eq_if (by decide)]
      by_cases small : number < 16
      · rw [if_pos small]
        intro digit among
        rw [List.mem_singleton.mp among]
        exact (value?_digitChar number small).2.2
      · rw [if_neg small]
        intro digit among
        obtain before | last := List.mem_append.mp among
        · exact inductionHypothesis (number / 16) (by omega) digit before
        · rw [List.mem_singleton.mp last]
          exact (value?_digitChar (number % 16) (by omega)).2.2

/-! ## Characters -/

/-- A character that stands for itself is read as it stands. -/
theorem unescape_cons (fuel : Nat) (char : Char) (rest : List Char) (shown : char ≠ '\x22')
    (unescaped : char ≠ '\\') (unbroken : char ≠ '\r') :
    unescape (fuel + 1) false (char :: rest) = char :: unescape fuel false rest := by
  rw [unescape]
  · simp [shown]
  all_goals simp [unescaped, unbroken]

/-- A character is read back from its number. -/
theorem unescape_numbered (fuel : Nat) (char : Char) (rest : List Char) :
    unescape (fuel + 1) false (numbered char ++ rest) = char :: unescape fuel false rest := by
  have inside : ∀ digit ∈ Nat.toDigits 16 char.toNat, (digit != '\x7d') = true := by
    intro digit among
    simpa using ne_of_mem_toDigits char.toNat digit among
  have digits : (Nat.toDigits 16 char.toNat ++ '\x7d' :: rest).takeWhile (· != '\x7d')
      = Nat.toDigits 16 char.toNat := by
    rw [List.takeWhile_append_of_pos inside]
    simp
  have after : (Nat.toDigits 16 char.toNat ++ '\x7d' :: rest).dropWhile (· != '\x7d')
      = '\x7d' :: rest := by
    rw [List.dropWhile_append_of_pos inside]
    simp
  have spelled : numbered char ++ rest
      = '\\' :: 'u' :: '\x7b' :: (Nat.toDigits 16 char.toNat ++ '\x7d' :: rest) := by
    simp [numbered]
  rw [spelled, unescape]
  simp [digits, after, codeOf_toDigits, coded]

/-- A character is read back from its spelling between quotation marks. -/
theorem unescape_escape (fuel : Nat) (char : Char) (rest : List Char) :
    unescape (fuel + 1) false (escape char ++ rest) = char :: unescape fuel false rest := by
  unfold escape
  split_ifs with zero tab returned feed stroke quotation unseen
  · subst zero; rfl
  · subst tab; rfl
  · subst returned; rfl
  · subst feed; rfl
  · subst stroke; rfl
  · subst quotation; rfl
  · exact unescape_numbered fuel char rest
  · exact unescape_cons fuel char rest quotation stroke returned

/-- A zero byte that is spelled with both its digits is read for what it is. -/
theorem unescape_zero (fuel : Nat) (rest : List Char) :
    unescape (fuel + 1) false ('\\' :: 'x' :: '0' :: '0' :: rest)
      = '\x00' :: unescape fuel false rest := rfl

/-- A literal's characters are read back up to the quotation mark that ends it, in one step for each
    of them. -/
theorem unescape_spell (chars : List Char) (fuel : Nat) (enough : chars.length < fuel) :
    unescape fuel false (spell chars ++ ['\x22']) = chars := by
  induction chars using spell.induct generalizing fuel with
  | case1 =>
      cases fuel with
      | zero => simp at enough
      | succ fuel => simp [spell, unescape]
  | case2 =>
      obtain ⟨fuel, rfl⟩ : ∃ less, fuel = less + 2 := ⟨fuel - 2, by simp at enough; omega⟩
      simp [spell, unescape]
  | case3 next rest inductionHypothesis =>
      cases fuel with
      | zero => simp at enough
      | succ fuel =>
          have later := inductionHypothesis fuel (by simpa using enough)
          rw [spell]
          split_ifs with digit
          · rw [List.append_assoc]
            exact (unescape_zero fuel _).trans (congrArg _ later)
          · rw [List.append_assoc]
            exact (unescape_escape fuel '\x00' _).trans (congrArg _ later)
  | case4 char rest _ _ inductionHypothesis =>
      cases fuel with
      | zero => simp at enough
      | succ fuel =>
          have later := inductionHypothesis fuel (by simpa using enough)
          rw [spell, List.append_assoc, unescape_escape, later]
          all_goals assumption

/-- Every character is spelled by one character at least. -/
theorem length_le_length_spell (chars : List Char) : chars.length ≤ (spell chars).length := by
  have shown (char : Char) : 1 ≤ (escape char).length := by
    unfold escape
    split_ifs <;> simp [numbered]
  induction chars using spell.induct with
  | case1 => simp
  | case2 => simp [spell]
  | case3 next rest inductionHypothesis =>
      rw [spell]
      split_ifs <;> simp at * <;> omega
  | case4 char rest _ _ inductionHypothesis =>
      rw [spell, List.length_append, List.length_cons]
      · have := shown char
        omega
      all_goals assumption

/-- **The literal of a text says that text.** -/
theorem value?_literal (text : String) : value? (literal text) = some text := by
  have enough : text.toList.length < (spell text.toList).length + 1 := by
    have := length_le_length_spell text.toList
    omega
  have read := unescape_spell text.toList _ enough
  simp [value?, literal, enclose, read]

end Wireform.Derive.TextLiteral
