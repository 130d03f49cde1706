/-!
# Byte strings and fixed-width numbers

A byte string is the list of its octets in the order they travel. Numbers of a
fixed width are written most significant octet first. `bigEndian` keeps only the
low `width` octets of its argument, so a caller that must not lose any checks the
size before it writes.
-/

namespace Wireform

/-- Octets in the order they travel. -/
abbrev Bytes := List UInt8

namespace Bytes

/-- How many numbers that many octets can tell apart. -/
def capacity : (width : Nat) → Nat
  | 0 => 1
  | width + 1 => capacity width * 256

/-- The low `width` octets of a number, most significant first. -/
def bigEndian : (width : Nat) → Nat → Bytes
  | 0, _ => []
  | width + 1, number => UInt8.ofNat (number / capacity width) :: bigEndian width number

/-- The number whose octets these are, most significant first. -/
def ofBigEndian (bytes : Bytes) : Nat :=
  bytes.foldl (fun number octet => number * 256 + octet.toNat) 0

/-- There is always a number. -/
theorem capacity_pos (width : Nat) : 0 < capacity width := by
  induction width with
  | zero => decide
  | succ width inductionHypothesis => exact Nat.mul_pos inductionHypothesis (by decide)

/-- A written number occupies exactly its width. -/
@[simp] theorem length_bigEndian (width number : Nat) :
    (bigEndian width number).length = width := by
  induction width with
  | zero => rfl
  | succ width inductionHypothesis => simp [bigEndian, inductionHypothesis]

/-- A number is read from the end: the last octet counts once. -/
theorem ofBigEndian_append (front back : Bytes) :
    ofBigEndian (front ++ back) = ofBigEndian front * capacity back.length + ofBigEndian back := by
  have shifted : ∀ (bytes : Bytes) (start : Nat),
      bytes.foldl (fun number octet => number * 256 + octet.toNat) start
        = start * capacity bytes.length + ofBigEndian bytes := by
    intro bytes
    induction bytes with
    | nil => intro start; simp [ofBigEndian, capacity]
    | cons octet rest inductionHypothesis =>
        intro start
        simp only [List.foldl_cons, List.length_cons, ofBigEndian]
        rw [inductionHypothesis, inductionHypothesis (0 * 256 + octet.toNat)]
        simp only [capacity, Nat.add_mul, Nat.zero_mul, Nat.zero_add]
        rw [Nat.mul_assoc, Nat.mul_comm 256]
        omega
  rw [ofBigEndian, List.foldl_append, shifted]
  rfl

/-- A written number is read back as far as it fits its width. -/
theorem ofBigEndian_bigEndian (width number : Nat) :
    ofBigEndian (bigEndian width number) = number % capacity width := by
  induction width with
  | zero => simp [bigEndian, ofBigEndian, capacity, Nat.mod_one]
  | succ width inductionHypothesis =>
      have split := ofBigEndian_append [UInt8.ofNat (number / capacity width)]
        (bigEndian width number)
      simp only [List.cons_append, List.nil_append, length_bigEndian] at split
      rw [bigEndian, split, inductionHypothesis, capacity, Nat.mod_mul]
      simp [ofBigEndian, Nat.mul_comm, Nat.add_comm]

/-- Octets spell a number that fits their count. -/
theorem ofBigEndian_lt (bytes : Bytes) : ofBigEndian bytes < capacity bytes.length := by
  induction bytes with
  | nil => decide
  | cons octet rest inductionHypothesis =>
      have split := ofBigEndian_append [octet] rest
      simp only [List.cons_append, List.nil_append] at split
      have small : octet.toNat < 256 := octet.toNat_lt
      have first : ofBigEndian [octet] = octet.toNat := by simp [ofBigEndian]
      rw [split, first, List.length_cons, capacity]
      calc octet.toNat * capacity rest.length + ofBigEndian rest
          < octet.toNat * capacity rest.length + capacity rest.length := by omega
        _ = (octet.toNat + 1) * capacity rest.length := by rw [Nat.add_mul, Nat.one_mul]
        _ ≤ 256 * capacity rest.length := Nat.mul_le_mul_right _ (by omega)
        _ = capacity rest.length * 256 := Nat.mul_comm _ _

/-- What exceeds the width is not written. -/
theorem bigEndian_add (width high low : Nat) :
    bigEndian width (high * capacity width + low) = bigEndian width low := by
  induction width generalizing high with
  | zero => rfl
  | succ width inductionHypothesis =>
      have shifted : high * capacity (width + 1) + low = high * 256 * capacity width + low := by
        rw [capacity, Nat.mul_assoc, Nat.mul_comm 256]
      have first :
          (high * 256 * capacity width + low) / capacity width
            = high * 256 + low / capacity width := by
        rw [Nat.add_comm, Nat.add_mul_div_right _ _ (capacity_pos _), Nat.add_comm]
      rw [shifted, bigEndian, bigEndian, inductionHypothesis, first]
      congr 1
      apply UInt8.toNat_inj.mp
      simp [UInt8.toNat_ofNat']

/-- Octets are what their number is written as. -/
theorem bigEndian_ofBigEndian (bytes : Bytes) :
    bigEndian bytes.length (ofBigEndian bytes) = bytes := by
  induction bytes with
  | nil => rfl
  | cons octet rest inductionHypothesis =>
      have split := ofBigEndian_append [octet] rest
      simp only [List.cons_append, List.nil_append] at split
      have first : ofBigEndian [octet] = octet.toNat := by simp [ofBigEndian]
      have quotient : (octet.toNat * capacity rest.length + ofBigEndian rest) / capacity rest.length
          = octet.toNat := by
        rw [Nat.add_comm, Nat.add_mul_div_right _ _ (capacity_pos _),
          Nat.div_eq_of_lt (ofBigEndian_lt rest), Nat.zero_add]
      rw [split, first, List.length_cons, bigEndian, bigEndian_add, inductionHypothesis, quotient,
        UInt8.ofNat_toNat]

end Bytes

end Wireform
