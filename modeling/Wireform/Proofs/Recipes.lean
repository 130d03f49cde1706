import Wireform.Proofs.Lawful
import Wireform.Rule

/-!
# Ready-made rules that are lawful

A condition that does not ask for values holds of all places that belong together or of none.
A wrapper that neither drops what it is given nor forgets what it has read leaves any codec as
lawful as it was: it writes something of its own before or behind, or the same once more, and
checks or ignores that on reading. Even the number of enclosing aggregates can be checked,
because both directions walk the same ones.

A number that is stored in a larger width is lawful for all numbers.
-/

namespace Wireform

open Buffer (Conveys)

/-! ## Conditions -/

namespace Condition

/-- The condition does not ask for the value of a context. -/
def valueless : Condition → Bool
  | .hasValue => false
  | .valueIs _ => false
  | .valueBelow _ => false
  | .negation condition => condition.valueless
  | .both first second => first.valueless && second.valueless
  | _ => true

/-- A condition that does not ask for values holds of a context if it holds of one of the same
    place. -/
theorem holds_matches (schema : Schema) (condition : Condition)
    (valueless : condition.valueless = true) (context other : Context)
    (same : context.Matches other) :
    condition.holds schema context = condition.holds schema other := by
  obtain ⟨declared, markers, _⟩ := same
  have unwrapped : other.unwrapped = context.unwrapped := congrArg Ty.unwrapped declared
  induction condition with
  | hasValue => cases valueless
  | valueIs type => cases valueless
  | valueBelow limit => cases valueless
  | negation condition inductionHypothesis =>
      exact congrArg (!·) (inductionHypothesis valueless)
  | both first second firstHypothesis secondHypothesis =>
      obtain ⟨firstValueless, secondValueless⟩ := (Bool.and_eq_true _ _).mp valueless
      simp only [holds, firstHypothesis firstValueless, secondHypothesis secondValueless]
  | always => rfl
  | isType type => simp only [holds, unwrapped]
  | kind label => simp only [holds, unwrapped]
  | declaredIs type => simp only [holds, declared]
  | nullable => simp only [holds, Context.isNullable, markers]
  | streamable => simp only [holds, Context.streamableElement, markers]
  | tagged label => simp only [holds, Context.hasTag, markers]

end Condition

/-! ## Wrappers -/

namespace Wrapping

/-- The wrapper passes on what it is given and hands over what it has read. -/
def restores : Wrapping → Bool
  | .dropping => false
  | .forgetting => false
  | _ => true

section Octets

variable (serializer : Serializer) (depth : Nat) (visited : List Ty)

/-- An octet that is expected is conveyed. -/
theorem conveys_octet (octet : UInt8) (complaint : String) :
    Conveys serializer.config ((writeOctet octet).run (serializer.answer depth visited))
      ((expectOctet octet complaint).run (serializer.answer depth visited)) fun _ => True := by
  have written : Buffer.Appends (Scalar.u8 octet).write (Bytes.bigEndian 1 octet.toNat) :=
    (Buffer.emits_append _).appends
  have read := Buffer.reads_readNumber_of_lt serializer.config 1 octet.toNat octet.toNat_lt
  have number : Conveys serializer.config (Scalar.u8 octet).write (Buffer.readNumber 1)
      (· = octet.toNat) := Buffer.conveys_of_reads _ _ written (fun _ => read) rfl
  simp only [writeOctet, expectOctet, Program.run_bind, Serializer.run_buffer_answer]
  refine Buffer.conveys_bind_pure number ?_
  rintro _ rfl
  refine ⟨(), trivial, fun rest => ?_⟩
  rw [UInt8.ofNat_toNat, if_pos rfl]
  rfl

/-- The number of enclosing aggregates is known in a walk. -/
theorem run_pathLength :
    pathLength.run (serializer.answer depth visited) = pure (UInt8.ofNat visited.length) := by
  have path : Program.path.run (serializer.answer depth visited)
      = pure (visited.reverse.map Ty.name) := by
    rw [Program.path, Program.run_perform]
    cases depth <;> rfl
  rw [pathLength, Program.run_bind, path, LawfulMonad.pure_bind, List.length_map,
    List.length_reverse]
  rfl

end Octets

/-- A wrapper that restores what it is given keeps codecs lawful, whatever they are lawful for
    and whatever counts as alike. -/
theorem keeps_lawful (wrapping : Wrapping) (restores : wrapping.restores = true)
    (serializer : Serializer) (depth : Nat) (among : Option Value → Prop)
    (alike : Value → Value → Prop) (inner : Codec)
    (lawful : inner.Lawful serializer depth among alike) :
    (wrapping.wrap inner).Lawful serializer depth among alike := by
  intro visited value occurs
  have own := lawful visited value occurs
  cases wrapping with
  | dropping => cases restores
  | forgetting => cases restores
  | nullable =>
      have present : inner.Lawful serializer depth
          (fun value => value.isSome = true ∧ among value) alike :=
        fun visited value both => lawful visited value both.2
      exact present.nullable visited value occurs
  | trailing octet =>
      simp only [wrap, Program.run_bind]
      refine Buffer.conveys_bind own fun result alike => ?_
      refine Buffer.conveys_bind_pure (conveys_octet serializer depth visited octet _) ?_
      exact fun _ _ => ⟨result, alike, fun _ => rfl⟩
  | leading octet =>
      simp only [wrap, Program.run_bind]
      exact Buffer.conveys_bind (conveys_octet serializer depth visited octet _) fun _ _ => own
  | twice =>
      simp only [wrap, Program.run_bind]
      refine Buffer.conveys_bind own fun result alike => ?_
      exact Buffer.conveys_bind_pure own fun _ _ => ⟨result, alike, fun _ => rfl⟩
  | depth =>
      simp only [wrap, Program.run_bind, run_pathLength, LawfulMonad.pure_bind]
      exact Buffer.conveys_bind (conveys_octet serializer depth visited _ _) fun _ _ => own

section Asks

variable {schema : Schema}

/-- Writing an octet makes no context. -/
theorem writeOctet_asks (octet : UInt8) : (writeOctet octet).Asks (Request.Placed schema) :=
  Program.asks_buffer _ trivial fun _ => trivial

/-- Expecting an octet makes no context. -/
theorem expectOctet_asks (octet : UInt8) (complaint : String) :
    (expectOctet octet complaint).Asks (Request.Placed schema) := by
  refine Program.asks_bind _ _ (Program.asks_buffer _ trivial fun _ => trivial) fun actual => ?_
  split <;> trivial

/-- Counting the enclosing aggregates makes no context. -/
theorem pathLength_asks : pathLength.Asks (Request.Placed schema) :=
  Program.asks_bind _ _ (Program.asks_perform .path trivial) fun _ => trivial

/-- No wrapper makes contexts of its own. -/
theorem keeps_placed (wrapping : Wrapping) (inner : Codec) (placed : inner.Placed schema) :
    (wrapping.wrap inner).Placed schema := by
  obtain ⟨encode, decode⟩ := placed
  cases wrapping with
  | nullable => exact (Codec.builtin_placed schema).nullable inner ⟨encode, decode⟩
  | trailing octet =>
      refine ⟨fun value => Program.asks_bind _ _ (encode value) fun _ => writeOctet_asks octet, ?_⟩
      refine Program.asks_bind _ _ decode fun value => ?_
      exact Program.asks_bind _ _ (expectOctet_asks octet _) fun _ => trivial
  | leading octet =>
      refine ⟨fun value => Program.asks_bind _ _ (writeOctet_asks octet) fun _ => encode value, ?_⟩
      exact Program.asks_bind _ _ (expectOctet_asks octet _) fun _ => decode
  | twice =>
      refine ⟨fun value => Program.asks_bind _ _ (encode value) fun _ => encode value, ?_⟩
      refine Program.asks_bind _ _ decode fun value => ?_
      exact Program.asks_bind _ _ decode fun _ => trivial
  | dropping => exact ⟨fun _ => encode none, decode⟩
  | forgetting => exact ⟨encode, Program.asks_bind _ _ decode fun _ => trivial⟩
  | depth =>
      constructor
      · intro value
        refine Program.asks_bind _ _ pathLength_asks fun length => ?_
        exact Program.asks_bind _ _ (writeOctet_asks length) fun _ => encode value
      · refine Program.asks_bind _ _ pathLength_asks fun length => ?_
        exact Program.asks_bind _ _ (expectOctet_asks length _) fun _ => decode

end Asks

/-- A ready-made wrapper that restores what it is given is a lawful transform under every
    condition that does not ask for values. -/
theorem transform_lawful (serializer : Serializer) (condition : Condition)
    (valueless : condition.valueless = true) (wrapping : Wrapping)
    (restores : wrapping.restores = true) :
    (wrapping.transform serializer.schema condition).Lawful serializer where
  even := condition.holds_matches serializer.schema valueless
  placed := wrapping.keeps_placed
  present depth _ _ := wrapping.keeps_lawful restores serializer depth _ _
  optional depth _ _ := wrapping.keeps_lawful restores serializer depth _ _

end Wrapping

/-! ## Codecs -/

namespace Recipe

variable {schema : Schema} {config : Config}

/-- A number of 32 bits is conveyed in eight octets, whatever counts as alike. -/
theorem i32Widened_lawful (alike : Value → Value → Prop) (reflexive : ∀ value, alike value value) :
    i32Widened.LawfulTyped config .i32 (Value.Typed schema .i32) alike := by
  refine ⟨_, _, rfl, fun value typed => ?_⟩
  obtain ⟨plain, rfl, small⟩ := typed.scalar_of_leaf
  cases plain with
  | i32 number =>
      have written : Buffer.Appends (Scalar.i64 number.toInt64).write
          (Bytes.bigEndian 8 number.toInt64.toUInt64.toNat) := (Buffer.emits_append _).appends
      have fits : number.toInt64.toUInt64.toNat < Bytes.capacity 8 :=
        number.toInt64.toUInt64.toNat_lt
      have read := Buffer.reads_readNumber_of_lt config 8 _ fits
      have least : -2147483648 ≤ number.toInt64.toInt := by
        rw [Int32.toInt_toInt64]
        exact Int32.le_toInt number
      have greatest : number.toInt64.toInt < 2147483648 := by
        rw [Int32.toInt_toInt64]
        exact Int32.toInt_lt number
      refine Buffer.conveys_of_reads _ _ written (fun _ => ?_) (reflexive _)
      refine Buffer.reads_bind_pure (Buffer.reads_bind_pure read ?_) (Buffer.reads_pure _)
      have back : (UInt64.ofNat number.toInt64.toUInt64.toNat).toInt64 = number.toInt64 := by
        simp
      have within : (-2147483648 ≤ number.toInt64.toInt && number.toInt64.toInt < 2147483648)
          = true := by
        simp only [least, greatest, decide_true, Bool.and_self]
      rw [back, if_pos within, Int32.toInt32_toInt64]
      exact Buffer.reads_pure number
  | _ => cases small

/-- A ready-made resolver of one type is lawful under every condition that does not ask for
    values, if its recipe makes a lawful codec. -/
theorem resolver_lawful (priority : Int) (condition : Condition)
    (valueless : condition.valueless = true) (recipe : Recipe) (type : Ty)
    (only : ∀ context, condition.holds schema context = true → context.unwrapped = type)
    (codec : Codec) (made : ∀ context, recipe.make context = .ok codec)
    (lawful : codec.LawfulTyped config type (Value.Typed schema type) (Value.Alike schema type)) :
    (recipe.resolver schema priority condition).Lawful schema config where
  even context other same :=
    ⟨condition.holds_matches schema valueless context other same,
      (made context).trans (made other).symm⟩
  typed := by
    refine ⟨type, fun context claimed => ⟨only context claimed, fun own supplied => ?_⟩⟩
    cases (made context).symm.trans supplied
    exact lawful

end Recipe

end Wireform
